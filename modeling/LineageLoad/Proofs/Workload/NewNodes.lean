import LineageLoad.Proofs.Store.Batches
import LineageLoad.Proofs.Store.Rows
import LineageLoad.Proofs.Workload.Executions

/-!
What a load that creates nodes does: of which types and with which properties it makes them up,
under which names, and what the store holds after they were created in their order.
-/

namespace LineageLoad
namespace FillNodes

variable {γ : Type} [WordSource γ] {kind : Kind} {numProperties stringBytes : Sampler}
  {db : Database}

-----------------------------------------------------------------------------------------
-- New nodes
-----------------------------------------------------------------------------------------

theorem nodup_customNames (start stop : Nat)
    : ((customNames start stop).map (·.1)).Nodup := by
  rw [customNames, List.map_map]
  exact List.Nodup.map (fun _ _ => numbered_injective) List.nodup_range'

/-- Properties are listed under their names in ascending order. -/
theorem keys_eq_of_mem_iff {α : Type} {properties : PropertyMap α} {names : List String}
    (ascending : names.Pairwise (compare · · = .lt))
    (listed : ∀ name, name ∈ properties ↔ name ∈ names)
    : properties.keys = names := by
  have : Std.Irrefl fun first second : String => compare first second = .lt :=
    ⟨fun name below => by simp at below⟩
  have : Std.Antisymm fun first second : String => compare first second = .lt :=
    ⟨fun _ _ below above => by cases (Std.OrientedCmp.gt_of_lt below).symm.trans above⟩
  refine Std.ExtTreeMap.ordered_keys.eq_of_mem_iff ascending ?_
  intro name
  rw [Std.ExtTreeMap.mem_keys, listed]

/-- A node that a load generates for a type, with as many properties as were drawn. The first ones
are those that the type declares, in order of the names, each with a value of its type; texts follow
as custom properties if the type does not declare as many.
-/
structure IsNew (γ : Type) [WordSource γ] (numProperties stringBytes : Sampler) (type : EntityType)
    (sampled : Nat) (node : Node) : Prop where
  sample : numProperties.IsSample γ sampled
  unnumbered : node.id = none
  typeName : node.typeName = type.name
  numProperties : node.numProperties = sampled
  declared : node.properties.keys = type.properties.keys.take sampled
  values
    : ∀ (name : String) value, node.properties[name]? = some value →
      ∃ declared, type.properties[name]? = some declared ∧ IsValue γ stringBytes declared value
  custom
    : ∀ (name : String) value, node.customProperties[name]? = some value →
      IsValue γ stringBytes .string value

/-- A node whose properties are generated for the first ones that its type declares, and for further
ones, is a new one.
-/
theorem isNew_of_fills {type : EntityType} {sampled : Nat} {node : Node}
    (sample : numProperties.IsSample γ sampled) (unnumbered : node.id = none)
    (typeName : node.typeName = type.name)
    (properties : Fills γ stringBytes (type.properties.toList.take sampled) node.properties)
    (custom
      : Fills γ stringBytes
          (customNames (type.properties.toList.take sampled).length sampled) node.customProperties)
    : IsNew γ numProperties stringBytes type sampled node := by
  refine ⟨sample, unnumbered, typeName, ?total, ?declared, fun name value found => ?values,
    fun name value found => ?custom⟩
  case total =>
    rw [Node.numProperties, properties.size, custom.size, customNames, List.length_map,
      List.length_range', List.length_take]
    omega
  case declared =>
    refine keys_eq_of_mem_iff (Std.ExtTreeMap.ordered_keys.sublist (List.take_sublist _ _)) ?_
    intro name
    rw [properties.names, List.map_take, Std.ExtTreeMap.map_fst_toList_eq_keys]
  case values =>
    obtain ⟨declared, listed, isValue⟩ := properties.values name value found
    have own := List.mem_of_mem_take listed
    exact ⟨declared, Std.ExtTreeMap.mem_toList_iff_getElem?_eq_some.mp own, isValue⟩
  case custom =>
    obtain ⟨declared, listed, isValue⟩ := custom.values name value found
    obtain ⟨number, _, same⟩ := List.mem_map.mp listed
    cases same
    exact isValue

/-- The new node of a type under a number, and the source after its properties are drawn. -/
def drawNode (numProperties stringBytes : Sampler) (typeId : EntityId) (type : EntityType)
    (number : Nat) (g : γ) : Node × γ :=
  let (sampled, g) := numProperties.sample g
  let declared := type.properties.toList.take sampled
  let (properties, g) := drawProperties stringBytes declared g
  let (custom, g) := drawProperties stringBytes (customNames declared.length sampled) g
  let node : Node := {
    id := none, typeId, typeName := type.name, name := some (numbered "node_" number)
    properties := .ofList properties, customProperties := .ofList custom }
  (node, g)

theorem isNew_drawNode (typeId : EntityId) (type : EntityType) (number : Nat) (g : γ)
    : IsNew γ numProperties stringBytes type (numProperties.sample g).1
        (drawNode numProperties stringBytes typeId type number g).1 :=
  isNew_of_fills (numProperties.isSample g) rfl rfl (fills_drawProperties (nodup_declared type _) _)
    (fills_drawProperties (nodup_customNames _ _) _)

-----------------------------------------------------------------------------------------
-- Synthesis
-----------------------------------------------------------------------------------------

/-- Nodes that are generated one after the other, for some of the types and under ascending numbers
from (next) on. None of them has a name that its type has already (taken).
-/
structure Series (γ : Type) [WordSource γ] (numProperties stringBytes : Sampler)
    (types : List (EntityId × EntityType)) (next : Nat) (taken : List (EntityId × String))
    (numbers : List Nat) (nodes : List Node) : Prop where
  names : nodes.map (·.name) = numbers.map fun number => some (numbered "node_" number)
  ascending : numbers.Pairwise (· < ·)
  beyond : ∀ number ∈ numbers, next ≤ number
  free : ∀ node ∈ nodes, ∀ name, node.name = some name → (node.typeId, name) ∉ taken
  isNew
    : ∀ node ∈ nodes, ∃ type sampled, (node.typeId, type) ∈ types
      ∧ IsNew γ numProperties stringBytes type sampled node

namespace Series

variable {types : List (EntityId × EntityType)} {next number : Nat}
  {taken : List (EntityId × String)} {numbers : List Nat} {nodes : List Node}

theorem nil
    : Series γ numProperties stringBytes types next taken [] [] :=
  ⟨rfl, .nil, List.forall_mem_nil _, List.forall_mem_nil _, List.forall_mem_nil _⟩

/-- A node under the number that the search finds comes before those beyond it. -/
theorem cons {node : Node} {type : EntityType} {sampled : Nat}
    (search
      : firstFree (fun k => taken.contains (node.typeId, numbered "node_" k)) (taken.length + 1)
        next = number)
    (named : node.name = some (numbered "node_" number)) (listed : (node.typeId, type) ∈ types)
    (isNew : IsNew γ numProperties stringBytes type sampled node)
    (rest
      : Series γ numProperties stringBytes types (number + 1)
          ((node.typeId, numbered "node_" number) :: taken) numbers nodes)
    : Series γ numProperties stringBytes types next taken (number :: numbers) (node :: nodes) where
  names := by rw [List.map_cons, List.map_cons, named, rest.names]
  ascending := List.pairwise_cons.mpr ⟨rest.beyond, rest.ascending⟩
  beyond := by
    have least : next ≤ number := search ▸ le_firstFree _ _ next
    refine List.forall_mem_cons.mpr ⟨least, ?_⟩
    intro other member
    exact Nat.le_trans least (Nat.le_of_succ_le (rest.beyond other member))
  free := by
    refine List.forall_mem_cons.mpr ⟨?_, ?_⟩
    · intro name given
      cases named.symm.trans given
      rw [← search]
      exact firstFree_not_mem fun same => numbered_injective (Prod.mk.inj same).2
    · intro other member name given inUse
      exact rest.free other member name given (List.mem_cons_of_mem _ inUse)
  isNew := List.forall_mem_cons.mpr ⟨⟨type, sampled, listed, isNew⟩, rest.isNew⟩

/-- No two nodes have the same name, not even nodes of different types. -/
theorem nodup_names (series : Series γ numProperties stringBytes types next taken numbers nodes)
    : (nodes.map (·.name)).Nodup := by
  rw [series.names]
  refine List.Nodup.map ?_ (series.ascending.imp Nat.ne_of_lt)
  intro number other same
  exact numbered_injective (Option.some.inj same)

end Series

/-- Items for new nodes are drawn one after the other, by induction on their number. -/
theorem run_insertItems (kind : Kind) (numProperties stringBytes : Sampler)
    {types : List (EntityId × EntityType)} (someType : types ≠ []) (count next : Nat)
    (taken : List (EntityId × String)) (g : γ)
    : ∃ numbers nodes last,
        nodes.length = count
        ∧ Series γ numProperties stringBytes types next taken numbers nodes
        ∧ (insertItems kind numProperties stringBytes types count next taken).run g
          = (.ok (nodes.map (item kind)), last) := by
  induction count generalizing next taken g with
  | zero => exact ⟨[], [], g, rfl, .nil, rfl⟩
  | succ count ih =>
      obtain ⟨⟨typeId, type⟩, chosen, choice, listed⟩ := Gives.choose someType g trivial
      obtain ⟨number, search⟩ : ∃ number,
          firstFree (fun k => taken.contains (typeId, numbered "node_" k)) (taken.length + 1) next
            = number := ⟨_, rfl⟩
      obtain ⟨numbers, nodes, last, length, series, run⟩ := ih (number + 1)
        ((typeId, numbered "node_" number) :: taken)
        (drawNode numProperties stringBytes typeId type number chosen).2
      refine ⟨number :: numbers,
        (drawNode numProperties stringBytes typeId type number chosen).1 :: nodes, last,
        congrArg Nat.succ length, .cons search rfl listed (isNew_drawNode typeId type number chosen)
          series, ?_⟩
      unfold insertItems
      dsimp only
      rw [run_bind_of_ok choice]
      dsimp only
      rw [search, run_bind_of_ok (DrawM.run_draw _ _), run_bind_of_ok (DrawM.run_draw _ _),
        run_bind_of_ok (DrawM.run_draw _ _)]
      exact (run_bind_of_ok run _).trans rfl

theorem calls_items (nodes : List Node)
    : (nodes.map (item kind)).map (·.call) = nodes.map fun node => .putNodes kind [node] :=
  List.map_map

/-- A load creates nodes of the types of the kind, from the number of its nodes on. -/
theorem run_inserts (kind : Kind) (numProperties stringBytes : Sampler) (count : Nat)
    (sound : db.Sound) (someType : db.typesOf kind ≠ []) (source : γ) (notes : List Note)
    : ∃ numbers nodes last,
        nodes.length = count
        ∧ Series γ numProperties stringBytes (db.types.get kind).toList (db.nodesOf kind).length
          ((db.nodesOf kind).filterMap fun node => node.name.map (node.typeId, ·)) numbers nodes
        ∧ (Load.fillNodes kind false numProperties stringBytes).Pending db
          ((nodes.map (item kind)).map (·.call))
        ∧ (inserts kind numProperties stringBytes Database.store count).run
            { store := db, source, notes }
          = (.ok (nodes.map (item kind)), { store := db, source := last, notes }) := by
  have entries : (db.typesOf kind).filterMap (fun type => type.id.map (·, type))
      = (db.types.get kind).toList := sound.entries_types
  have someEntry : (db.types.get kind).toList ≠ [] := by
    intro none
    exact someType (by rw [Database.typesOf, Table.values, none, List.map_nil])
  obtain ⟨numbers, nodes, last, length, series, run⟩ := run_insertItems kind numProperties
    stringBytes someEntry count (db.nodesOf kind).length
    ((db.nodesOf kind).filterMap fun node => node.name.map (node.typeId, ·)) source
  have existing : (Database.store.existingTypes kind).run db = (.ok (db.typesOf kind), db) := rfl
  have there : (Database.store.existingNodes kind).run db = (.ok (db.nodesOf kind), db) := rfl
  refine ⟨numbers, nodes, last, length, series, ?pending, ?run⟩
  case pending =>
    have creates : Draws (insertItems kind numProperties stringBytes _ count
        (db.nodesOf kind).length _ : DrawM γ _) _ :=
      insertItems_creates sound someEntry
        (fun entry member => Std.ExtTreeMap.mem_toList_iff_getElem?_eq_some.mp member)
        (fun id node name found named => Database.mem_namesInUse_iff.mpr
          ⟨node, Database.mem_nodesOf_iff.mpr ⟨id, found⟩, rfl, named⟩) count _
    have ends := creates source trivial
    rw [run] at ends
    cases ends with
    | answered holds => exact holds.pending
  case run =>
    unfold inserts
    rw [run_bind_of_ok (PrepareM.run_onStore existing source notes)]
    dsimp only
    rw [entries, if_neg (mt List.isEmpty_iff.mp someEntry),
      run_bind_of_ok (PrepareM.run_onStore there source notes), PrepareM.run_onSource run db notes]

/-- Without types of the kind no node can be created. -/
theorem run_inserts_none (none : db.typesOf kind = []) (numProperties stringBytes : Sampler)
    (count : Nat) (source : γ) (notes : List Note)
    : (inserts kind numProperties stringBytes Database.store count).run
        { store := db, source, notes }
      = (.error (.noTypeToCreateOf kind), { store := db, source, notes }) := by
  have existing : (Database.store.existingTypes kind).run db = (.ok [], db) := by
    rw [← none]
    rfl
  unfold inserts
  rw [run_bind_of_ok (PrepareM.run_onStore existing source notes)]
  rfl

namespace Series

variable {next : Nat} {taken : List (EntityId × String)} {numbers : List Nat} {nodes : List Node}

/-- Nodes that are generated for the types of a kind are of stored types. -/
theorem exists_type
    (series
      : Series γ numProperties stringBytes (db.types.get kind).toList next taken numbers nodes)
    : ∀ node ∈ nodes, ∃ type sampled, db.typeById? kind node.typeId = some type
        ∧ IsNew γ numProperties stringBytes type sampled node := by
  intro node member
  obtain ⟨type, sampled, listed, isNew⟩ := series.isNew node member
  exact ⟨type, sampled, Std.ExtTreeMap.mem_toList_iff_getElem?_eq_some.mp listed, isNew⟩

/-- Open requests for generated nodes add these in their order, since they have the names of their
types already.
-/
theorem addsNodes
    (series
      : Series γ numProperties stringBytes (db.types.get kind).toList next taken numbers nodes)
    (pending
      : (Load.fillNodes kind false numProperties stringBytes).Pending db
          ((nodes.map (item kind)).map (·.call)))
    (sound : db.Sound)
    : db.AddsNodes kind nodes (db.serveAll ((nodes.map (item kind)).map (·.call))) := by
  have adds := pending.addsNodes sound
  have handed : ((nodes.map (item kind)).map (·.call)).flatMap Call.nodes = nodes := by
    rw [calls_items, List.flatMap_map]
    exact List.flatMap_singleton' nodes
  have same : nodes.map (db.withTypeName kind) = nodes := by
    refine (List.map_congr_left fun node member => ?_).trans (List.map_id nodes)
    obtain ⟨type, _, typed, isNew⟩ := series.exists_type node member
    exact Database.withTypeName_eq_self typed isNew.typeName
  rwa [handed, same] at adds

end Series

-----------------------------------------------------------------------------------------
-- Whole loads
-----------------------------------------------------------------------------------------

/-- What a load that creates nodes does, whatever words are drawn and after any calls. Its
preparation does not write. It fails if the kind has no type, since a precondition is missing then.
Otherwise there is a new node for each operation, of a stored type whose name is filled in. The
names have ascending numbers from the number of nodes of the kind on; no stored node of the same
type has the name, and no other new node at all. Executed in their order, all items succeed. The
nodes are then listed after those that were there, under the ids after the one given last, and
nothing else changes.
-/
theorem prepare_newNodes (calls : List Call) (kind : Kind) (numProperties stringBytes : Sampler)
    {count : Nat} (positive : 0 < count) (source : γ) (held : List WorkItem) (isPrepared : Bool)
    : let db := Database.empty.serveAll calls
      let existing := (db.nodesOf kind).length
      let workload : GeneratedWorkload (Load Sampler) γ :=
        ⟨.fillNodes kind false numProperties stringBytes, count, source, held, isPrepared⟩
      let prepared := workload.prepare Database.store db
      let final := prepared.2.1.executeAll Database.store (List.range count) prepared.2.2
      prepared.2.2 = db
        ∧ (db.typesOf kind = [] →
            ∃ error, prepared.1 = (.error error, []) ∧ error.category = .failedPrecondition)
        ∧ (db.typesOf kind ≠ [] →
            prepared.1 = (.ok (), [])
            ∧ ∃ (nodes : List Node) (numbers : List Nat),
                nodes.length = count
                ∧ prepared.2.1.items.map (·.call) = nodes.map (fun node => .putNodes kind [node])
                ∧ nodes.map (·.name) = numbers.map (fun number => some (numbered "node_" number))
                ∧ numbers.Pairwise (· < ·)
                ∧ (∀ number ∈ numbers, existing ≤ number)
                ∧ (∀ node ∈ nodes, ∀ stored ∈ db.nodesOf kind,
                    stored.typeId = node.typeId → stored.name ≠ node.name)
                ∧ (nodes.map (·.name)).Nodup
                ∧ (∀ node ∈ nodes, ∃ type sampled,
                    db.typeById? kind node.typeId = some type
                    ∧ IsNew γ numProperties stringBytes type sampled node)
                ∧ (∀ (index : Nat) item, prepared.2.1.items[index]? = some item →
                    (prepared.2.1.execute index Database.store
                      (prepared.2.1.executeAll Database.store (List.range index) db)).1
                    = .ok item.bytes)
                ∧ final.nodesOf kind
                  = db.nodesOf kind
                    ++ (enumerated existing nodes).map
                      (fun (id, node) => { node with id := some id })
                ∧ final = { db with nodes := db.nodes.set kind (final.nodes.get kind) }
                ∧ (final.nodes.get kind).lastId = existing + count) := by
  intro db existing workload prepared final
  have sound : db.Sound := Database.empty_sound.serveAll calls
  have told := Database.empty_toldBy.serveAll Database.empty_sound calls
  have last : (db.nodes.get kind).lastId = existing := told.lastId_eq sound kind
  by_cases none : db.typesOf kind = []
  · have run := run_inserts_none none numProperties stringBytes count source []
    have failed := workload.prepare_of_failure Database.store db positive run
    refine ⟨congrArg (·.2.2) failed, fun _ => ⟨_, congrArg Prod.fst failed, rfl⟩, ?_⟩
    intro someType
    exact absurd none someType
  · obtain ⟨numbers, nodes, after, length, series, pending, run⟩ :=
      run_inserts kind numProperties stringBytes count sound none source []
    obtain ⟨succeeds, same, unchanged, executes, leaves⟩ :=
      GeneratedWorkload.prepare_executes workload run ((List.length_map _).trans length)
        (fun _ => ⟨rfl, rfl⟩) sound pending
    have adds := series.addsNodes pending sound
    rw [← leaves] at adds
    have final_last := adds.lastId
    rw [last, length] at final_last
    refine ⟨unchanged, fun lacking => absurd lacking none, fun _ => ⟨succeeds, nodes, numbers,
      length, ?calls, series.names, series.ascending, series.beyond, ?free, series.nodup_names,
      series.exists_type, ?executes, ?listed, adds.frame, final_last⟩⟩
    case calls => rw [same, calls_items]
    case free =>
      intro node member stored listed sameType sameName
      obtain ⟨name, named⟩ : ∃ name, node.name = some name := by
        have held : node.name ∈ nodes.map (·.name) := List.mem_map_of_mem member
        rw [series.names] at held
        obtain ⟨number, _, given⟩ := List.mem_map.mp held
        exact ⟨_, given.symm⟩
      refine series.free node member name named (Database.mem_namesInUse_iff.mpr ?_)
      exact ⟨stored, listed, sameType, sameName.trans named⟩
    case executes =>
      intro index item found
      rw [same] at found
      have ended := executes index item found
      rwa [unchanged] at ended
    case listed =>
      have listed := adds.nodesOf sound
      rw [last] at listed
      exact listed

/-- Two nodes are created beside one that has the first number already. -/
theorem prepare_newNodes_besideAnother
    : let calls :=
        [.putType .artifact ⟨none, "Dataset", FillTypes.newProperties 1⟩ false,
          .putNodes .artifact [Database.dataset "node_1"]]
      let db := Database.empty.serveAll calls
      let workload : GeneratedWorkload (Load Sampler) (Nat → UInt64) :=
        { generator := .fillNodes .artifact false ⟨2, 2, by decide⟩ ⟨3, 3, by decide⟩
          numOperations := 2, source := fun _ => 0 }
      let prepared := workload.prepare Database.store db
      let final := prepared.2.1.executeAll Database.store (List.range 2) prepared.2.2
      0 < 2
        ∧ prepared.2.2 = db
        ∧ prepared.1 = (.ok (), [])
        ∧ (final.nodes.get .artifact).lastId = (db.nodesOf .artifact).length + 2
        ∧ (final.nodesOf .artifact).map (fun node => (node.name, node.numProperties))
          = [(some "node_1", 0), (some "node_2", 2), (some "node_3", 2)] := by
  intro calls db workload prepared final
  obtain ⟨unchanged, _, created⟩ := prepare_newNodes calls .artifact ⟨2, 2, by decide⟩
    ⟨3, 3, by decide⟩ (by decide : 0 < 2) workload.source [] false
  have someType : db.typesOf .artifact ≠ [] := by decide +kernel
  obtain ⟨succeeds, _, _, _, _, _, _, _, _, _, _, _, _, _, last⟩ := created someType
  exact ⟨by decide, unchanged, succeeds, last, by decide +kernel⟩

end FillNodes
end LineageLoad
