import LineageLoad.Proofs.Workload.NewNodes

/-!
What a load that updates nodes does: it makes up those that are missing, adds texts to the first
nodes of the kind under names that they do not have, and leaves everything else.
-/

namespace LineageLoad

-----------------------------------------------------------------------------------------
-- Versions of listed nodes
-----------------------------------------------------------------------------------------

namespace Database

variable {db : Database} {kind : Kind} {node stored : Node}

/-- The ids of the nodes of a kind are in ascending order. -/
theorem Sound.ascending_ids (sound : db.Sound)
    : ((db.nodesOf kind).filterMap (·.id)).Pairwise (· < ·) := by
  rw [sound.ids_nodes]
  exact Std.ExtTreeMap.ordered_keys.imp Std.compare_eq_lt.mp

/-- A version of a listed node takes its place in the list. Only the rows of the kind change. -/
theorem Sound.serve_nodeVersion_listed (sound : db.Sound) {before after : List Node}
    (listed : db.nodesOf kind = before ++ stored :: after) (version : node.Extends stored)
    : let next := (Database.serve (.putNodes kind [node]) db).2
      next.nodesOf kind = before ++ node :: after
        ∧ next = { db with
          nodes := db.nodes.set kind
            { db.nodes.get kind with rows := (next.nodes.get kind).rows } } := by
  obtain ⟨id, found⟩ : ∃ id, db.nodeById? kind id = some stored :=
    mem_nodesOf_iff.mp (listed ▸ List.mem_append_right before List.mem_cons_self)
  rw [sound.serve_nodeVersion_eq found version]
  refine ⟨?_, by simp only [setNode, PerKind.get_set_self]⟩
  rw [nodesOf, setNode, PerKind.get_set_self]
  exact Table.values_insert sound.nodup_nodes found listed

/-- Versions of nodes that are listed one after the other take their places, and only the rows of
the kind change.
-/
theorem Sound.serveAll_nodeVersions_listed (sound : db.Sound)
    {before olds after versions : List Node}
    (listed : db.nodesOf kind = before ++ olds ++ after)
    (extend : List.Forall₂ Node.Extends versions olds)
    : let next := db.serveAll (versions.map fun node => .putNodes kind [node])
      next.nodesOf kind = before ++ versions ++ after
        ∧ next = { db with
          nodes := db.nodes.set kind
            { db.nodes.get kind with rows := (next.nodes.get kind).rows } } := by
  refine serveAll_versions (·.nodesOf kind) (fun node => .putNodes kind [node])
    (fun db next => next = { db with
      nodes := db.nodes.set kind { db.nodes.get kind with rows := (next.nodes.get kind).rows } })
    (fun db => ?_) (fun {first second third} sooner later => ?_)
    (fun sound => sound.serve_nodeVersion_listed) sound listed extend
  · rw [PerKind.set_get_self]
  · rw [later, sooner, PerKind.set_set, PerKind.get_set_self, PerKind.get_set_self]

end Database

namespace FillNodes

variable {γ : Type} [WordSource γ] {kind : Kind} {numProperties stringBytes : Sampler}
  {db : Database}

-----------------------------------------------------------------------------------------
-- Synthesis
-----------------------------------------------------------------------------------------

/-- A node as an update asks for it: as it is stored with as many further texts as were drawn, but
one at least, under names that it does not have.
-/
structure IsVersion (γ : Type) [WordSource γ] (numProperties stringBytes : Sampler) (stored : Node)
    (sampled : Nat) (numbers : List Nat) (node : Node) : Prop where
  sample : numProperties.IsSample γ sampled
  frame : node = { stored with customProperties := node.customProperties }
  length : numbers.length = max sampled 1
  adds
    : AddsNumbered "update_p-" (fun value => ∃ text, value = .string text
        ∧ stringBytes.IsText γ text) stored.numProperties stored.customProperties numbers
        node.customProperties
  numProperties : node.numProperties = stored.numProperties + max sampled 1

/-- The version of a node that an update asks for, and the source after its properties are drawn. -/
def drawVersion (numProperties stringBytes : Sampler) (stored : Node) (g : γ) : Node × γ :=
  let (sampled, g) := numProperties.sample g
  let (customProperties, g) := addProperties stringBytes (max sampled 1) stored.numProperties
    stored.customProperties g
  ({ stored with customProperties }, g)

theorem isVersion_drawVersion (stored : Node) (g : γ)
    : ∃ numbers, IsVersion γ numProperties stringBytes stored (numProperties.sample g).1 numbers
        (drawVersion numProperties stringBytes stored g).1 := by
  obtain ⟨numbers, length, adds⟩ := addsNumbered_addProperties stringBytes
    (max (numProperties.sample g).1 1) stored.numProperties stored.customProperties
    (numProperties.sample g).2
  refine ⟨numbers, numProperties.isSample g, rfl, length, adds, ?_⟩
  have size := adds.size
  rw [length] at size
  unfold Node.numProperties
  exact (congrArg (stored.properties.size + ·) size).trans (Nat.add_assoc _ _ _).symm

theorem IsVersion.extendsStored {stored node : Node} {sampled : Nat} {numbers : List Nat}
    (version : IsVersion γ numProperties stringBytes stored sampled numbers node)
    : node.Extends stored :=
  ⟨version.frame, fun _ _ => version.adds.keeps⟩

/-- Versions of some nodes in turn. -/
def Versions (γ : Type) [WordSource γ] (numProperties stringBytes : Sampler)
    (versions nodes : List Node) : Prop :=
  List.Forall₂ (fun node stored => ∃ sampled numbers,
    IsVersion γ numProperties stringBytes stored sampled numbers node) versions nodes

/-- A version is one of the node in the same place. -/
theorem Versions.getElem? {versions nodes : List Node}
    (extend : Versions γ numProperties stringBytes versions nodes) {index : Nat} {node : Node}
    (found : versions[index]? = some node)
    : ∃ stored sampled numbers, nodes[index]? = some stored
        ∧ IsVersion γ numProperties stringBytes stored sampled numbers node := by
  obtain ⟨inside, rfl⟩ := List.getElem?_eq_some_iff.mp found
  have there : index < nodes.length := extend.length_eq ▸ inside
  obtain ⟨sampled, numbers, version⟩ := extend.get inside there
  exact ⟨nodes[index], sampled, numbers, List.getElem?_eq_getElem there, version⟩

/-- Items for versions of nodes are drawn one after the other, by induction on the nodes. -/
theorem run_updateItems (kind : Kind) (numProperties stringBytes : Sampler) (nodes : List Node)
    (g : γ)
    : ∃ versions last,
        Versions γ numProperties stringBytes versions nodes
        ∧ (updateItems kind numProperties stringBytes nodes).run g
          = (.ok (versions.map (item kind)), last) := by
  induction nodes generalizing g with
  | nil => exact ⟨[], g, .nil, rfl⟩
  | cons node rest ih =>
      obtain ⟨versions, last, extend, run⟩ :=
        ih (drawVersion numProperties stringBytes node g).2
      refine ⟨(drawVersion numProperties stringBytes node g).1 :: versions, last,
        .cons ⟨_, isVersion_drawVersion node g⟩ extend, ?_⟩
      unfold updateItems
      rw [run_bind_of_ok (DrawM.run_draw _ g), run_bind_of_ok (DrawM.run_draw _ _)]
      exact (run_bind_of_ok run _).trans rfl

/-- The nodes that are missing are made up as new ones, if the kind has a type. -/
theorem run_makeUp (kind : Kind) (numProperties stringBytes : Sampler) (missing : Nat)
    (sound : db.Sound) (someType : db.typesOf kind ≠ []) (source : γ) (notes : List Note)
    : ∃ made next last after,
        made.length = missing
        ∧ db.AddsNodes kind made next
        ∧ next.Sound
        ∧ (makeUp kind numProperties stringBytes Database.store missing).run
            { store := db, source, notes }
          = (.ok (), { store := next, source := last, notes := after }) := by
  obtain ⟨_, made, last, length, series, pending, run⟩ := run_inserts kind numProperties stringBytes
    missing sound someType source (notes ++ [.makingUpNodes kind missing])
  have noted : (PrepareM.note (.makingUpNodes kind missing) : PrepareM Database γ Unit).run
      { store := db, source, notes }
      = (.ok (), { store := db, source, notes := notes ++ [.makingUpNodes kind missing] }) := rfl
  obtain ⟨after, issued⟩ : ∃ after,
      (makeUp kind numProperties stringBytes Database.store missing).run
        { store := db, source, notes }
      = (.ok (), { store := db.serveAll ((made.map (item kind)).map (·.call)), source := last
                   notes := after }) := by
    unfold makeUp
    rw [run_bind_of_ok noted, run_bind_of_ok run]
    exact run_forM_issue _ _ db _ _
  exact ⟨made, _, last, after, length, series.addsNodes pending sound, sound.serveAll _, issued⟩

/-- Without types of the kind no missing node can be made up. -/
theorem run_makeUp_none (none : db.typesOf kind = []) (numProperties stringBytes : Sampler)
    (missing : Nat) (source : γ) (notes : List Note)
    : (makeUp kind numProperties stringBytes Database.store missing).run
        { store := db, source, notes }
      = (.error (.noTypeToCreateOf kind),
          { store := db, source, notes := notes ++ [.makingUpNodes kind missing] }) := by
  have noted : (PrepareM.note (.makingUpNodes kind missing) : PrepareM Database γ Unit).run
      { store := db, source, notes }
      = (.ok (), { store := db, source, notes := notes ++ [.makingUpNodes kind missing] }) := rfl
  unfold makeUp
  rw [run_bind_of_ok noted, run_bind_of_error (run_inserts_none none _ _ _ _ _)]

/-- Requests for versions of different stored nodes are open. -/
theorem versions_pending (sound : db.Sound) {count : Nat} {versions : List Node} {source last : γ}
    (run
      : (updateItems kind numProperties stringBytes ((db.nodesOf kind).take count)).run source
        = (.ok (versions.map (item kind)), last))
    : (Load.fillNodes kind true numProperties stringBytes).Pending db
        ((versions.map (item kind)).map (·.call)) := by
  have stored (node : Node) (member : node ∈ (db.nodesOf kind).take count)
      : ∃ id, db.nodeById? kind id = some node :=
    Database.mem_nodesOf_iff.mp (List.mem_of_mem_take member)
  have apart := sound.nodup_ids.sublist
    ((List.take_sublist count (db.nodesOf kind)).filterMap (·.id))
  have draws : Draws (updateItems kind numProperties stringBytes ((db.nodesOf kind).take count)
      : DrawM γ _) _ := updateItems_pending sound stored apart
  have ends := draws source trivial
  rw [run] at ends
  cases ends with
  | answered holds => exact holds.pending

/-- Updates are synthesized for the first nodes of the kind, after those that are missing are made
up.
-/
theorem run_updates (kind : Kind) (numProperties stringBytes : Sampler) (count : Nat)
    (sound : db.Sound) (someType : (db.nodesOf kind).length < count → db.typesOf kind ≠ [])
    (source : γ) (notes : List Note)
    : ∃ made next versions last after,
        made.length = count - (db.nodesOf kind).length
        ∧ db.AddsNodes kind made next
        ∧ next.Sound
        ∧ count ≤ (next.nodesOf kind).length
        ∧ (count = 0 → next = db ∧ after = notes)
        ∧ Versions γ numProperties stringBytes versions ((next.nodesOf kind).take count)
        ∧ (Load.fillNodes kind true numProperties stringBytes).Pending next
          ((versions.map (item kind)).map (·.call))
        ∧ (updates kind numProperties stringBytes Database.store count).run
            { store := db, source, notes }
          = (.ok (versions.map (item kind)),
              { store := next, source := last, notes := after }) := by
  have existing (db : Database)
      : (Database.store.existingNodes kind).run db = (.ok (db.nodesOf kind), db) := rfl
  -- Once there are enough nodes, the rest of the preparation only draws.
  have goesOn {next : Database} (sound : next.Sound) (enough : count ≤ (next.nodesOf kind).length)
      (source : γ) (notes : List Note)
      : ∃ versions last,
          Versions γ numProperties stringBytes versions ((next.nodesOf kind).take count)
          ∧ (Load.fillNodes kind true numProperties stringBytes).Pending next
            ((versions.map (item kind)).map (·.call))
          ∧ (do
                if (next.nodesOf kind).length < count then
                  throw (.tooFewNodes kind (next.nodesOf kind).length count)
                PrepareM.onSource
                  (updateItems kind numProperties stringBytes ((next.nodesOf kind).take count))
                : PrepareM Database γ _).run { store := next, source, notes }
            = (.ok (versions.map (item kind)), { store := next, source := last, notes }) := by
    obtain ⟨versions, last, extend, run⟩ := run_updateItems kind numProperties stringBytes
      ((next.nodesOf kind).take count) source
    refine ⟨versions, last, extend, versions_pending sound run, ?_⟩
    rw [if_neg (Nat.not_lt.mpr enough)]
    exact PrepareM.run_onSource run next notes
  unfold updates
  rw [run_bind_of_ok (PrepareM.run_onStore (existing db) source notes)]
  by_cases few : (db.nodesOf kind).length < count
  · obtain ⟨made, next, middle, after, length, adds, kept, run⟩ := run_makeUp kind numProperties
      stringBytes (count - (db.nodesOf kind).length) sound (someType few) source notes
    have enough : count ≤ (next.nodesOf kind).length := by
      rw [adds.nodesOf sound, List.length_append, List.length_map, length_enumerated, length]
      omega
    obtain ⟨versions, last, extend, pending, rest⟩ := goesOn kept enough middle after
    refine ⟨made, next, versions, last, after, length, adds, kept, enough, fun none => by omega,
      extend, pending, ?_⟩
    rw [if_pos few, run_bind_of_ok run,
      run_bind_of_ok (PrepareM.run_onStore (existing next) _ after)]
    exact rest
  · have enough := Nat.le_of_not_lt few
    obtain ⟨versions, last, extend, pending, rest⟩ := goesOn sound enough source notes
    refine ⟨[], db, versions, last, notes, (Nat.sub_eq_zero_of_le enough).symm, .nil db kind, sound,
      enough, fun _ => ⟨rfl, rfl⟩, extend, pending, ?_⟩
    rw [if_neg few]
    exact rest

/-- Nodes that are missing cannot be updated without types of the kind. -/
theorem run_updates_none (few : (db.nodesOf kind).length < count) (none : db.typesOf kind = [])
    (numProperties stringBytes : Sampler) (source : γ) (notes : List Note)
    : (updates kind numProperties stringBytes Database.store count).run
        { store := db, source, notes }
      = (.error (.noTypeToCreateOf kind),
          { store := db, source
            notes := notes ++ [.makingUpNodes kind (count - (db.nodesOf kind).length)] }) := by
  have existing : (Database.store.existingNodes kind).run db = (.ok (db.nodesOf kind), db) := rfl
  unfold updates
  rw [run_bind_of_ok (PrepareM.run_onStore existing source notes), if_pos few,
    run_bind_of_error (run_makeUp_none none _ _ _ _ _)]

-----------------------------------------------------------------------------------------
-- Whole loads
-----------------------------------------------------------------------------------------

/-- What a load that updates nodes does, whatever words are drawn and after any calls. If there are
fewer nodes of the kind than operations and no type to create more of, its preparation does not
write and fails, since a precondition is missing. Otherwise it succeeds. Then there are at least as
many nodes of the kind as operations; those that are made up come after those that were there, and
nothing else changes. Each item is for the node of the kind in its place, in the order of the ids.
It asks for the node as it is with as many further texts as was drawn for it, but one at least,
under names that the node does not have. Executed in their order, all items succeed. Each of these
nodes is then as it was asked for, in its place, and nothing else changes.
-/
theorem prepare_nodeUpdates (calls : List Call) (kind : Kind) (numProperties stringBytes : Sampler)
    (count : Nat) (source : γ) (held : List WorkItem) (isPrepared : Bool)
    : let db := Database.empty.serveAll calls
      let existing := (db.nodesOf kind).length
      let isLacking := existing < count ∧ db.typesOf kind = []
      let workload : GeneratedWorkload (Load Sampler) γ :=
        ⟨.fillNodes kind true numProperties stringBytes, count, source, held, isPrepared⟩
      let prepared := workload.prepare Database.store db
      let base := prepared.2.2
      let final := prepared.2.1.executeAll Database.store (List.range count) base
      (isLacking →
          base = db
          ∧ ∃ error, prepared.1.1 = .error error ∧ error.category = .failedPrecondition)
        ∧ (¬isLacking →
            prepared.1.1 = .ok ()
            ∧ (∃ made, made.length = count - existing
              ∧ base.nodesOf kind = db.nodesOf kind ++ made)
            ∧ (base.nodesOf kind).length = max existing count
            ∧ ((base.nodesOf kind).filterMap (·.id)).Pairwise (· < ·)
            ∧ base = { db with nodes := db.nodes.set kind (base.nodes.get kind) }
            ∧ ∃ nodes : List Node,
                nodes.length = count
                ∧ prepared.2.1.items.map (·.call) = nodes.map (fun node => .putNodes kind [node])
                ∧ (∀ (index : Nat) node, nodes[index]? = some node →
                    ∃ stored sampled numbers,
                      (base.nodesOf kind)[index]? = some stored
                      ∧ IsVersion γ numProperties stringBytes stored sampled numbers node)
                ∧ (∀ (index : Nat) item, prepared.2.1.items[index]? = some item →
                    (prepared.2.1.execute index Database.store
                      (prepared.2.1.executeAll Database.store (List.range index) base)).1
                    = .ok item.bytes)
                ∧ final.nodesOf kind = nodes ++ (base.nodesOf kind).drop count
                ∧ (final.nodesOf kind).length = (base.nodesOf kind).length
                ∧ final = { base with
                    nodes := base.nodes.set kind
                      { base.nodes.get kind with rows := (final.nodes.get kind).rows } }) := by
  intro db existing isLacking workload prepared base final
  have sound : db.Sound := Database.empty_sound.serveAll calls
  refine ⟨fun ⟨few, untyped⟩ => ?lacking, fun ready => ?prepared⟩
  case lacking =>
    have run := run_updates_none few untyped numProperties stringBytes source []
    have failed := workload.prepare_of_failure Database.store db (Nat.zero_lt_of_lt few) run
    exact ⟨congrArg (·.2.2) failed, _, congrArg (·.1.1) failed, rfl⟩
  case prepared =>
    obtain ⟨made, next, nodes, last, after, length, adds, kept, enough, idle, versions, pending,
      run⟩ := run_updates kind numProperties stringBytes count sound
        (fun few untyped => ready ⟨few, untyped⟩) source []
    have created : nodes.length = count := by
      rw [versions.length_eq, List.length_take, Nat.min_eq_left enough]
    obtain ⟨succeeds, same, left, executes, leaves⟩ :=
      GeneratedWorkload.prepare_executes workload run ((List.length_map _).trans created) idle kept
        pending
    subst left
    have grown := adds.nodesOf sound
    have split : base.nodesOf kind
        = [] ++ (base.nodesOf kind).take count ++ (base.nodesOf kind).drop count :=
      (List.take_append_drop count _).symm
    obtain ⟨listed, frame⟩ := kept.serveAll_nodeVersions_listed split
      (versions.imp fun _ _ ⟨_, _, version⟩ => version.extendsStored)
    rw [← calls_items, ← leaves] at listed frame
    refine ⟨congrArg Prod.fst succeeds, ⟨_, ?made, grown⟩, ?length, kept.ascending_ids, adds.frame,
      nodes, created, ?calls, fun index node found => ?versions, ?executes, listed, ?total, frame⟩
    case made => rw [List.length_map, length_enumerated, length]
    case length =>
      rw [grown, List.length_append, List.length_map, length_enumerated, length]
      omega
    case calls => rw [same, calls_items]
    case versions =>
      obtain ⟨stored, sampled, numbers, there, version⟩ := versions.getElem? found
      rw [List.getElem?_take, Option.ite_none_right_eq_some] at there
      exact ⟨stored, sampled, numbers, there.2, version⟩
    case executes =>
      intro index item found
      rw [same] at found
      exact executes index item found
    case total =>
      rw [listed, List.nil_append, List.length_append, created, List.length_drop]
      exact Nat.add_sub_of_le enough

/-- One node is made up beside the only one that there is. Two texts are added to each: the one that
is made up has two properties already.
-/
theorem prepare_nodeUpdates_oneMissing
    : let calls :=
        [.putType .artifact ⟨none, "Dataset", FillTypes.newProperties 1⟩ false,
          .putNodes .artifact [Database.dataset "a"]]
      let db := Database.empty.serveAll calls
      let workload : GeneratedWorkload (Load Sampler) (Nat → UInt64) :=
        { generator := .fillNodes .artifact true ⟨2, 2, by decide⟩ ⟨3, 3, by decide⟩
          numOperations := 2, source := fun _ => 0 }
      let prepared := workload.prepare Database.store db
      let final := prepared.2.1.executeAll Database.store (List.range 2) prepared.2.2
      ¬((db.nodesOf .artifact).length < 2 ∧ db.typesOf .artifact = [])
        ∧ prepared.1.1 = .ok ()
        ∧ (final.nodesOf .artifact).length = (prepared.2.2.nodesOf .artifact).length
        ∧ (prepared.2.2.nodesOf .artifact).map (fun node => (node.name, node.numProperties))
          = [(some "a", 0), (some "node_1", 2)]
        ∧ (final.nodesOf .artifact).map (fun node => (node.name, node.numProperties))
          = [(some "a", 2), (some "node_1", 4)] := by
  intro calls db workload prepared final
  have ready : ¬((db.nodesOf .artifact).length < 2 ∧ db.typesOf .artifact = []) := by decide +kernel
  obtain ⟨_, updated⟩ := prepare_nodeUpdates calls .artifact ⟨2, 2, by decide⟩ ⟨3, 3, by decide⟩ 2
    workload.source [] false
  obtain ⟨succeeds, _, _, _, _, _, _, _, _, _, _, total, _⟩ := updated ready
  exact ⟨ready, succeeds, total, by decide +kernel, by decide +kernel⟩

end FillNodes
end LineageLoad
