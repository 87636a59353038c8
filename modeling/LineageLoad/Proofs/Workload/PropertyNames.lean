import LineageLoad.Proofs.Workload.NodeUpdates
import Mathlib.Data.Finset.Card

/-!
The names that nodes gain from updates. The names that an update adds are new among the custom
properties of a node, but its declared properties are not asked. So the node gains a name for each
one that is added if it declares none of them, and only then.
-/

namespace LineageLoad

-----------------------------------------------------------------------------------------
-- Names of properties
-----------------------------------------------------------------------------------------

/-- The names of the properties of a node, declared and custom ones together. -/
def Node.propertyNames (node : Node) : Finset String :=
  node.properties.keys.toFinset ∪ node.customProperties.keys.toFinset

theorem Node.mem_propertyNames {node : Node} {name : String}
    : name ∈ node.propertyNames ↔ name ∈ node.properties ∨ name ∈ node.customProperties := by
  rw [propertyNames, Finset.mem_union, List.mem_toFinset, List.mem_toFinset,
    Std.ExtTreeMap.mem_keys, Std.ExtTreeMap.mem_keys]

/-- A node gains names in a later version: it has no property of any of them, neither a declared nor
a custom one, and the version has more names than the node, by as many as there are.
-/
structure Node.GainsNames (stored : Node) (names : List String) (version : Node) : Prop where
  absent : ∀ name ∈ names, name ∉ stored.propertyNames
  grows : stored.propertyNames ⊂ version.propertyNames
  card : version.propertyNames.card = stored.propertyNames.card + names.length

/-- Further names are as many more as there are among them that were not there. -/
theorem card_union_toFinset {α : Type} [DecidableEq α] (names : Finset α) {further : List α}
    (apart : further.Nodup)
    : (names ∪ further.toFinset).card = names.card + further.countP (· ∉ names) := by
  have fresh : further.toFinset \ names = (further.filter (· ∉ names)).toFinset := by
    ext name
    simp
  rw [Finset.union_comm, ← Finset.card_sdiff_add_card, fresh,
    List.toFinset_card_of_nodup (apart.filter _), List.countP_eq_length_filter, Nat.add_comm]

/-- What a stored node declares is declared by a stored type of its kind. -/
theorem Database.Sound.declared {db : Database} {kind : Kind} {node : Node} (sound : db.Sound)
    (member : node ∈ db.nodesOf kind) {name : String} (held : name ∈ node.properties)
    : ∃ type ∈ db.typesOf kind, name ∈ type.properties := by
  obtain ⟨id, found⟩ := mem_nodesOf_iff.mp member
  obtain ⟨type, typed, _, admits⟩ := ((sound.nodes kind).conforming id node found).typed
  obtain ⟨value, has⟩ :=
    Option.isSome_iff_exists.mp (Std.ExtTreeMap.mem_iff_isSome_getElem?.mp held)
  refine ⟨type, mem_typesOf_iff.mpr ⟨_, typed⟩, Std.ExtTreeMap.mem_iff_isSome_getElem?.mpr ?_⟩
  rw [admits name value has]
  rfl

namespace FillNodes

variable {γ : Type} [WordSource γ] {numProperties stringBytes : Sampler} {stored node : Node}
  {sampled : Nat} {numbers : List Nat}

/-- The names under which an update adds texts. -/
def updateNames (numbers : List Nat) : List String := numbers.map (numbered "update_p-")

-----------------------------------------------------------------------------------------
-- One version
-----------------------------------------------------------------------------------------

namespace IsVersion

theorem properties_eq (version : IsVersion γ numProperties stringBytes stored sampled numbers node)
    : node.properties = stored.properties := by
  rw [version.frame]

/-- No name is added twice. -/
theorem nodup_updateNames
    (version : IsVersion γ numProperties stringBytes stored sampled numbers node)
    : (updateNames numbers).Nodup :=
  version.adds.first.nodup.map fun _ _ => numbered_injective

/-- One name is added at least. -/
theorem updateNames_pos
    (version : IsVersion γ numProperties stringBytes stored sampled numbers node)
    : 0 < (updateNames numbers).length := by
  rw [updateNames, List.length_map, version.length]
  omega

/-- A version has the names of the node and those that are added. -/
theorem propertyNames_eq
    (version : IsVersion γ numProperties stringBytes stored sampled numbers node)
    : node.propertyNames = stored.propertyNames ∪ (updateNames numbers).toFinset := by
  ext name
  rw [Finset.mem_union, List.mem_toFinset, Node.mem_propertyNames, Node.mem_propertyNames,
    version.properties_eq, version.adds.mem_iff, or_assoc, updateNames]

/-- No custom property has a name that is added, so the node has it only if it declares it. -/
theorem mem_propertyNames_iff
    (version : IsVersion γ numProperties stringBytes stored sampled numbers node) {name : String}
    (added : name ∈ updateNames numbers)
    : name ∈ stored.propertyNames ↔ name ∈ stored.properties := by
  obtain ⟨number, chosen, rfl⟩ := List.mem_map.mp added
  rw [Node.mem_propertyNames, or_iff_left (version.adds.first.holds number chosen).2]

/-- A version has as many more names as there are added ones that the node does not declare. -/
theorem card_propertyNames
    (version : IsVersion γ numProperties stringBytes stored sampled numbers node)
    : node.propertyNames.card
      = stored.propertyNames.card + (updateNames numbers).countP (· ∉ stored.properties) := by
  rw [version.propertyNames_eq, card_union_toFinset _ version.nodup_updateNames]
  refine congrArg _ (List.countP_congr fun name added => ?_)
  rw [decide_eq_true_iff, decide_eq_true_iff, version.mem_propertyNames_iff added]

/-- A node gains the names that are added to it if it declares none of them, and only then. -/
theorem gainsNames_iff
    (version : IsVersion γ numProperties stringBytes stored sampled numbers node)
    : stored.GainsNames (updateNames numbers) node
      ↔ ∀ name ∈ updateNames numbers, name ∉ stored.properties := by
  constructor
  · intro gains name added declared
    exact gains.absent name added (Node.mem_propertyNames.mpr (.inl declared))
  · intro undeclared
    have card : node.propertyNames.card
        = stored.propertyNames.card + (updateNames numbers).length := by
      rw [version.card_propertyNames, List.countP_eq_length.mpr]
      exact fun name added => decide_eq_true (undeclared name added)
    have kept : stored.propertyNames ⊆ node.propertyNames :=
      version.propertyNames_eq ▸ Finset.subset_union_left
    refine ⟨fun name added => ?absent, kept.ssubset_of_ne fun same => ?grows, card⟩
    case absent =>
      rw [version.mem_propertyNames_iff added]
      exact undeclared name added
    case grows =>
      have some := version.updateNames_pos
      rw [same] at card
      omega

/-- If no type of the kind declares a name of an update, every node gains the names that are added
to it.
-/
theorem gainsNames {db : Database} {kind : Kind} (sound : db.Sound)
    (member : stored ∈ db.nodesOf kind)
    (version : IsVersion γ numProperties stringBytes stored sampled numbers node)
    (undeclared
      : ∀ type ∈ db.typesOf kind, ∀ number, numbered "update_p-" number ∉ type.properties)
    : stored.GainsNames (updateNames numbers) node := by
  refine version.gainsNames_iff.mpr fun name added declared => ?_
  obtain ⟨number, _, rfl⟩ := List.mem_map.mp added
  obtain ⟨type, typed, has⟩ := sound.declared member declared
  exact undeclared type typed number has

end IsVersion

-----------------------------------------------------------------------------------------
-- Whole loads
-----------------------------------------------------------------------------------------

/-- What a load that updates nodes does to the names of their properties, whatever words are drawn
and after any calls, if it can be prepared. Its items are for the nodes of the kind in the order of
their ids, and each adds names that no custom property of its node has. The node then has those
names and the ones that it had, which are as many more as there are added ones that it does not
declare. So it gains each of them as a further name if it declares none of them, and only then. That
is the case for all nodes if no type of the kind declares a name of an update.
-/
theorem prepare_gainsNames (calls : List Call) (kind : Kind) (numProperties stringBytes : Sampler)
    (count : Nat) (source : γ) (held : List WorkItem) (isPrepared : Bool)
    : let db := Database.empty.serveAll calls
      let isLacking := (db.nodesOf kind).length < count ∧ db.typesOf kind = []
      let workload : GeneratedWorkload (Load Sampler) γ :=
        ⟨.fillNodes kind true numProperties stringBytes, count, source, held, isPrepared⟩
      let prepared := workload.prepare Database.store db
      let base := prepared.2.2
      let final := prepared.2.1.executeAll Database.store (List.range count) base
      ¬isLacking →
        prepared.1.1 = .ok ()
        ∧ ∃ nodes : List Node,
            nodes.length = count
            ∧ prepared.2.1.items.map (·.call) = nodes.map (fun node => .putNodes kind [node])
            ∧ final.nodesOf kind = nodes ++ (base.nodesOf kind).drop count
            ∧ ∀ (index : Nat) node, nodes[index]? = some node →
                ∃ stored sampled numbers,
                  (base.nodesOf kind)[index]? = some stored
                  ∧ IsVersion γ numProperties stringBytes stored sampled numbers node
                  ∧ (∀ name ∈ updateNames numbers, name ∉ stored.customProperties)
                  ∧ node.propertyNames = stored.propertyNames ∪ (updateNames numbers).toFinset
                  ∧ node.propertyNames.card
                    = stored.propertyNames.card
                      + (updateNames numbers).countP (· ∉ stored.properties)
                  ∧ (stored.GainsNames (updateNames numbers) node
                    ↔ ∀ name ∈ updateNames numbers, name ∉ stored.properties)
                  ∧ ((∀ type ∈ db.typesOf kind, ∀ number,
                      numbered "update_p-" number ∉ type.properties)
                    → stored.GainsNames (updateNames numbers) node) := by
  intro db isLacking workload prepared base final ready
  have sound : db.Sound := Database.empty_sound.serveAll calls
  obtain ⟨made, next, nodes, last, after, length, adds, kept, enough, idle, versions, pending,
    run⟩ := run_updates kind numProperties stringBytes count sound
      (fun few untyped => ready ⟨few, untyped⟩) source []
  have created : nodes.length = count := by
    rw [versions.length_eq, List.length_take, Nat.min_eq_left enough]
  obtain ⟨succeeds, same, left, _, leaves⟩ :=
    GeneratedWorkload.prepare_executes workload run ((List.length_map _).trans created) idle kept
      pending
  subst left
  have split : base.nodesOf kind
      = [] ++ (base.nodesOf kind).take count ++ (base.nodesOf kind).drop count :=
    (List.take_append_drop count _).symm
  have listed := (kept.serveAll_nodeVersions_listed split
    (versions.imp fun _ _ ⟨_, _, version⟩ => version.extendsStored)).1
  rw [← calls_items, ← leaves] at listed
  refine ⟨congrArg Prod.fst succeeds, nodes, created, by rw [same, calls_items], listed,
    fun index node found => ?_⟩
  obtain ⟨stored, sampled, numbers, there, version⟩ := versions.getElem? found
  rw [List.getElem?_take, Option.ite_none_right_eq_some] at there
  refine ⟨stored, sampled, numbers, there.2, version, fun name added => ?custom,
    version.propertyNames_eq, version.card_propertyNames, version.gainsNames_iff,
    fun undeclared => ?gains⟩
  case custom =>
    obtain ⟨number, chosen, rfl⟩ := List.mem_map.mp added
    exact (version.adds.first.holds number chosen).2
  case gains =>
    have types : base.typesOf kind = db.typesOf kind := congrArg (·.typesOf kind) adds.frame
    exact version.gainsNames kept (List.mem_of_getElem? there.2) (types ▸ undeclared)

/-- The calls that store one dataset, of a type that declares one property. -/
def declaring (name : String) : List Call :=
  [.putType .artifact ⟨none, "Dataset", .ofList [(name, PropertyType.int)]⟩ false,
    .putNodes .artifact
      [{ Database.dataset "a" with properties := .ofList [(name, Value.int 5)] }]]

/-- Of two names that are added to a node that declares the second one, it gains the first. -/
theorem prepare_gainsNames_secondDeclared
    : let db := Database.empty.serveAll (declaring "update_p-2")
      let workload : GeneratedWorkload (Load Sampler) (Nat → UInt64) :=
        { generator := .fillNodes .artifact true ⟨2, 2, by decide⟩ ⟨0, 0, by decide⟩
          numOperations := 1, source := fun _ => 0 }
      let prepared := workload.prepare Database.store db
      let final := prepared.2.1.executeAll Database.store (List.range 1) prepared.2.2
      ¬((db.nodesOf .artifact).length < 1 ∧ db.typesOf .artifact = [])
        ∧ prepared.1.1 = .ok ()
        ∧ (db.nodesOf .artifact).map Node.propertyNames = [{"update_p-2"}]
        ∧ (final.nodesOf .artifact).map (fun node => node.customProperties.keys)
          = [["update_p-1", "update_p-2"]]
        ∧ (final.nodesOf .artifact).map Node.propertyNames = [{"update_p-1", "update_p-2"}] := by
  intro db workload prepared final
  have ready : ¬((db.nodesOf .artifact).length < 1 ∧ db.typesOf .artifact = []) := by decide +kernel
  obtain ⟨succeeds, _⟩ := prepare_gainsNames (declaring "update_p-2") .artifact
    ⟨2, 2, by decide⟩ ⟨0, 0, by decide⟩ 1 workload.source [] false ready
  exact ⟨ready, succeeds, by decide +kernel, by decide +kernel, by decide +kernel⟩

/-- The name that is added to a node can be one that it declares. The node then has no more names
than before.
-/
theorem prepare_repeatsDeclared
    : let db := Database.empty.serveAll (declaring "update_p-1")
      let workload : LoadWorkload :=
        { generator := .fillNodes .artifact true ⟨1, 1, by decide⟩ ⟨0, 0, by decide⟩
          numOperations := 1, source := .ofSeed 0 }
      let prepared := workload.prepare Database.store db
      let stored : Node :=
        { id := some 1, typeId := 1, typeName := "Dataset", name := some "a"
          properties := .ofList [("update_p-1", Value.int 5)], customProperties := ∅ }
      let version := { stored with customProperties := .ofList [("update_p-1", Value.string "")] }
      db.nodesOf .artifact = [stored]
        ∧ prepared.1.1 = .ok ()
        ∧ prepared.2.1.items.map (·.call) = [.putNodes .artifact [version]]
        ∧ "update_p-1" ∈ stored.propertyNames
        ∧ version.propertyNames = stored.propertyNames
        ∧ ¬stored.GainsNames ["update_p-1"] version := by
  intro db workload prepared stored version
  have declared : "update_p-1" ∈ stored.propertyNames := by decide +kernel
  exact ⟨by decide +kernel, by decide +kernel, by decide +kernel, declared, by decide +kernel,
    fun gains => gains.absent _ List.mem_cons_self declared⟩

end FillNodes
end LineageLoad
