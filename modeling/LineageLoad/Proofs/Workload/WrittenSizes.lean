import LineageLoad.Proofs.Workload.NodeUpdates
import LineageLoad.Proofs.Workload.TypeUpdates
import LineageLoad.Size

/-!
The estimates of loads that write types or nodes are exact: in whatever order all items are
executed, what an item wrote is then read back with the size that was estimated.
-/

namespace LineageLoad

-----------------------------------------------------------------------------------------
-- Written rows
-----------------------------------------------------------------------------------------

/-- What a call that was served by some contents wrote is read back from later ones, with a size: a
type under its name, and a node under the id that was answered.
-/
inductive Database.ReadsBack (met final : Database) : Call → Nat → Prop
  | type {kind type canAddFields stored}
    (found : Database.serve (.getType kind type.name) final = (.ok (some stored), final))
    : ReadsBack met final (.putType kind type canAddFields) stored.bytes
  | node {kind node id stored}
    (answered : (Database.serve (.putNodes kind [node]) met).1 = .ok [id])
    (found : Database.serve (.getNodesById kind [id]) final = (.ok [stored], final))
    : ReadsBack met final (.putNodes kind [node]) stored.bytes

section

variable {met final : Database} {kind : Kind} {id : EntityId} {bytes : Nat}

theorem Database.ReadsBack.ofType {type stored : EntityType} {canAddFields : Bool}
    (sound : final.Sound) (found : final.typeById? kind id = some stored)
    (named : stored.name = type.name) (size : stored.bytes = bytes)
    : ReadsBack met final (.putType kind type canAddFields) bytes := by
  subst size
  refine .type ?_
  rw [← named, Database.serve, sound.typeByName?_name found]

theorem Database.ReadsBack.ofNode {node stored : Node}
    (answered : (Database.serve (.putNodes kind [node]) met).1 = .ok [id])
    (found : final.nodeById? kind id = some stored) (size : stored.bytes = bytes)
    : ReadsBack met final (.putNodes kind [node]) bytes := by
  subst size
  refine .node answered ?_
  rw [Database.serve, List.filterMap_cons_some found, List.filterMap_nil]

end

-----------------------------------------------------------------------------------------
-- Open requests
-----------------------------------------------------------------------------------------

namespace Load.Pending

variable {db : Database} {kind other : Kind} {numProperties stringBytes : Sampler} {call : Call}
  {calls : List Call} {type : EntityType} {node : Node} {canAddFields : Bool}

/-- A new type stays as it is while others are added. -/
theorem readsBack_newType
    (pending
      : (Load.fillTypes kind false numProperties).Pending db
          (.putType other type canAddFields :: calls))
    (sound : db.Sound)
    : db.ReadsBack (db.serveAll (.putType other type canAddFields :: calls))
        (.putType other type canAddFields) type.bytes := by
  have later := (pending.serve_head sound).2
  have kept := sound.serve (.putType other type canAddFields)
  cases pending.acceptable _ List.mem_cons_self with
  | read reading => cases reading
  | newType unnumbered named absent =>
      have served : Database.serve (.putType kind type false) db
          = (.ok (db.addType kind type).1, (db.addType kind type).2) :=
        congrArg db.commit (Database.putType_new named absent unnumbered)
      have grows := later.serveAll_changes kept
      rw [served] at grows kept
      have added : (db.addType kind type).2.typeById? kind (db.lastTypeId + 1)
          = some (type.under (db.lastTypeId + 1)) := by
        rw [Database.typeById?_addType, if_pos ⟨rfl, rfl⟩]
        rfl
      rw [Database.serveAll, List.foldl_cons, served]
      exact .ofType (kept.serveAll calls) (grows.remains.types _ _ _ added) rfl rfl

/-- A new node stays as it is while others are added. The name of its type is not filled in by the
store if it is there already, so it counts before as well.
-/
theorem readsBack_newNode
    (pending
      : (Load.fillNodes kind false numProperties stringBytes).Pending db
          (.putNodes other [node] :: calls))
    (sound : db.Sound) (titled : db.withTypeName other node = node)
    : db.ReadsBack (db.serveAll (.putNodes other [node] :: calls)) (.putNodes other [node])
        node.bytes := by
  have later := (pending.serve_head sound).2
  have kept := sound.serve (.putNodes other [node])
  cases pending.acceptable _ List.mem_cons_self with
  | read reading => cases reading
  | newNode unnumbered accepts =>
      have served := Database.serve_putNode accepts
      rw [titled] at served
      have grows := later.serveAll_changes kept
      rw [served] at grows
      have added : Database.nodeById? { db with
            nodes := db.nodes.set kind ((db.nodes.get kind).put node).2 } kind
            ((db.nodes.get kind).put node).1
          = some (node.under ((db.nodes.get kind).put node).1) := by
        rw [Database.nodeById?, PerKind.get_set_self, NodeTable.put_rows, if_pos rfl]
        rfl
      rw [Database.serveAll, List.foldl_cons, served]
      exact .ofNode (congrArg Prod.fst served) (grows.remains.nodes _ _ _ added) rfl

/-- The first of some open requests may come last. -/
theorem serve_last {load : Load Sampler}
    (commute
      : ∀ {db first second}, db.Sound → load.Pending db [first, second] →
        db.serveAll [first, second] = db.serveAll [second, first])
    (pending : load.Pending db (call :: calls)) (sound : db.Sound)
    : db.serveAll (call :: calls) = (Database.serve call (db.serveAll calls)).2
        ∧ load.Acceptable (db.serveAll calls) call := by
  have perm : (call :: calls).Perm (calls ++ [call]) := (List.perm_append_singleton call calls).symm
  have last := (pending.perm perm).serveAll_append sound
  refine ⟨?_, last.acceptable call List.mem_cons_self⟩
  rw [serveAll_eq commute pending sound perm, Database.serveAll, List.foldl_append]
  rfl

/-- A version of a type is as it was asked for after it was served last. -/
theorem readsBack_typeVersion
    (pending
      : (Load.fillTypes kind true numProperties).Pending db
          (.putType other type canAddFields :: calls))
    (sound : db.Sound)
    : db.ReadsBack (db.serveAll (.putType other type canAddFields :: calls))
        (.putType other type canAddFields) type.bytes := by
  obtain ⟨last, acceptable⟩ := serve_last commute_typeVersions pending sound
  have kept := sound.serveAll (.putType other type canAddFields :: calls)
  rw [last] at kept ⊢
  cases acceptable with
  | read reading => cases reading
  | @typeVersion _ _ id _ _ found version =>
      rw [(sound.serveAll calls).serve_typeVersion_set found version] at kept ⊢
      have own : ((db.serveAll calls).setType kind id type).typeById? kind id = some type := by
        rw [Database.typeById?_setType, if_pos ⟨rfl, rfl⟩]
      exact .ofType kept own rfl rfl

/-- A version of a node is as it was asked for after it was served last. Its id is told by itself,
so the answer is the same when it is served first.
-/
theorem readsBack_nodeVersion
    (pending
      : (Load.fillNodes kind true numProperties stringBytes).Pending db
          (.putNodes other [node] :: calls))
    (sound : db.Sound)
    : db.ReadsBack (db.serveAll (.putNodes other [node] :: calls)) (.putNodes other [node])
        node.bytes := by
  obtain ⟨last, acceptable⟩ := serve_last commute_nodeVersions pending sound
  rw [last]
  cases acceptable with
  | read reading => cases reading
  | @nodeVersion _ _ _ id _ _ found version =>
      have kept := sound.serveAll calls
      rw [kept.serve_nodeVersion_eq found version]
      have target := (version.target? found kept).1
      cases pending.acceptable _ List.mem_cons_self with
      | read reading => cases reading
      | nodeVersion there again =>
          cases target.symm.trans (again.target? there sound).1
          have answered : (Database.serve (.putNodes kind [node]) db).1 = .ok [id] := by
            rw [sound.serve_nodeVersion_eq there again]
          refine .ofNode answered ?_ rfl
          rw [Database.nodeById?, Database.setNode, PerKind.get_set_self,
            Std.ExtTreeMap.getElem?_insert_self]

end Load.Pending

-----------------------------------------------------------------------------------------
-- Items
-----------------------------------------------------------------------------------------

/-- A load writes types or nodes, be they new or versions. -/
def Load.writesRows : Load Sampler → Bool
  | fillTypes .. => true
  | fillNodes .. => true
  | _ => false

/-- The estimate of an item is the size of the type or of the node that it asks for. A node has the
name of its type already.
-/
inductive WorkItem.IsSized (db : Database) : WorkItem → Prop
  | type (kind : Kind) (type : EntityType) (canAddFields : Bool)
    : IsSized db ⟨.putType kind type canAddFields, type.bytes⟩
  | node {kind node} (titled : db.withTypeName kind node = node)
    : IsSized db ⟨.putNodes kind [node], node.bytes⟩

section

variable {db : Database} {load : Load Sampler}

/-- What an item wrote is read back with its estimate, when it was executed between others. By the
kinds of load.
-/
theorem Load.Pending.readsBack (rows : load.writesRows = true) {before after : List Call}
    {item : WorkItem} (pending : load.Pending db (before ++ item.call :: after)) (sound : db.Sound)
    (sized : item.IsSized db)
    : (db.serveAll before).ReadsBack (db.serveAll (before ++ item.call :: after)) item.call
        item.bytes := by
  have later := pending.serveAll_append sound
  have kept := sound.serveAll before
  have sooner := (pending.sublist (List.sublist_append_left before _)).serveAll_changes sound
  have split : db.serveAll (before ++ item.call :: after)
      = (db.serveAll before).serveAll (item.call :: after) := List.foldl_append
  rw [split]
  cases sized with
  | type kind type canAddFields =>
      cases load with
      | fillTypes kind update =>
          cases update with
          | false => exact later.readsBack_newType kept
          | true => exact later.readsBack_typeVersion kept
      | fillNodes => cases later.acceptable _ List.mem_cons_self with
        | read reading => cases reading
      | _ => cases rows
  | node titled =>
      cases load with
      | fillTypes => cases later.acceptable _ List.mem_cons_self with
        | read reading => cases reading
      | fillNodes kind update =>
          cases update with
          | false =>
              refine later.readsBack_newNode kept ?_
              rw [Database.NodesGrow.frame sooner]
              exact titled
          | true => exact later.readsBack_nodeVersion kept
      | _ => cases rows

/-- Items that are open and have the sizes of what they ask for. -/
structure Load.Sized (load : Load Sampler) (db : Database) (items : List WorkItem) : Prop where
  sound : db.Sound
  pending : load.Pending db (items.map (·.call))
  sized : ∀ item ∈ items, item.IsSized db

variable {γ : Type} [WordSource γ] {kind : Kind} {numProperties stringBytes : Sampler} {count : Nat}
  {source : γ} {notes : List Note} {items : List WorkItem} {p : Preparation Database γ}

theorem FillTypes.isSized_items (db : Database) {types : List EntityType} {canAddFields : Bool}
    : ∀ item ∈ types.map (FillTypes.item kind · canAddFields), item.IsSized db := by
  intro item member
  obtain ⟨type, _, rfl⟩ := List.mem_map.mp member
  exact .type kind type canAddFields

theorem FillTypes.sized_inserts (sound : db.Sound)
    (generated
      : (inserts kind numProperties Database.store count).run { store := db, source, notes }
        = (.ok items, p))
    : (Load.fillTypes kind false numProperties).Sized p.store items := by
  obtain ⟨numbers, _, _, pending, run⟩ := run_inserts kind numProperties count db source notes
  cases run.symm.trans generated
  exact ⟨sound, pending, isSized_items db⟩

theorem FillTypes.sized_updates (sound : db.Sound)
    (generated
      : (updates kind numProperties Database.store count).run { store := db, source, notes }
        = (.ok items, p))
    : (Load.fillTypes kind true numProperties).Sized p.store items := by
  obtain ⟨_, next, _, _, _, kept, enough, _, run⟩ :=
    run_updates kind numProperties count sound source notes
  cases run.symm.trans generated
  refine ⟨kept, versions_pending ?_ ?_ ?_, isSized_items next⟩
  · exact fun type member => Database.mem_typesOf_iff.mp (List.mem_of_mem_take member)
  · exact kept.nodup_typeNames.sublist
      ((List.take_sublist count (next.typesOf kind)).map (·.name))
  · rw [numProperties.length_samples, List.length_take, Nat.min_eq_left enough]

theorem FillNodes.isSized_items {nodes : List Node}
    (titled : ∀ node ∈ nodes, db.withTypeName kind node = node)
    : ∀ item ∈ nodes.map (FillNodes.item kind), item.IsSized db := by
  intro item member
  obtain ⟨node, listed, rfl⟩ := List.mem_map.mp member
  exact .node (titled node listed)

/-- New nodes have the names of their types. -/
theorem FillNodes.sized_inserts (sound : db.Sound)
    (generated
      : (inserts kind numProperties stringBytes Database.store count).run
          { store := db, source, notes } = (.ok items, p))
    : (Load.fillNodes kind false numProperties stringBytes).Sized p.store items := by
  by_cases none : db.typesOf kind = []
  · cases (run_inserts_none none numProperties stringBytes count source notes).symm.trans generated
  · obtain ⟨_, nodes, _, _, series, pending, run⟩ :=
      run_inserts kind numProperties stringBytes count sound none source notes
    cases run.symm.trans generated
    refine ⟨sound, pending, isSized_items fun node member => ?_⟩
    obtain ⟨type, _, typed, isNew⟩ := series.exists_type node member
    exact Database.withTypeName_eq_self typed isNew.typeName

/-- Versions of nodes keep the names of their types. -/
theorem FillNodes.sized_updates (sound : db.Sound)
    (generated
      : (updates kind numProperties stringBytes Database.store count).run
          { store := db, source, notes } = (.ok items, p))
    : (Load.fillNodes kind true numProperties stringBytes).Sized p.store items := by
  by_cases lacking : (db.nodesOf kind).length < count ∧ db.typesOf kind = []
  · cases (run_updates_none lacking.1 lacking.2 numProperties stringBytes source notes).symm.trans
      generated
  · obtain ⟨_, next, versions, _, _, _, _, kept, _, _, extend, pending, run⟩ :=
      run_updates kind numProperties stringBytes count sound
        (fun few untyped => lacking ⟨few, untyped⟩) source notes
    cases run.symm.trans generated
    refine ⟨kept, pending, isSized_items fun node member => ?_⟩
    obtain ⟨index, found⟩ := List.mem_iff_getElem?.mp member
    obtain ⟨stored, _, _, there, version⟩ := extend.getElem? found
    obtain ⟨id, listed⟩ :=
      Database.mem_nodesOf_iff.mp (List.mem_of_mem_take (List.mem_of_getElem? there))
    exact kept.withTypeName_version listed version.extendsStored

/-- By the kinds of load. -/
theorem Load.sized_generate (rows : load.writesRows = true) (sound : db.Sound)
    (generated
      : (load.generate Database.store count).run { store := db, source, notes } = (.ok items, p))
    : load.Sized p.store items := by
  cases load with
  | fillTypes kind update =>
      cases update with
      | false => exact FillTypes.sized_inserts sound generated
      | true => exact FillTypes.sized_updates sound generated
  | fillNodes kind update =>
      cases update with
      | false => exact FillNodes.sized_inserts sound generated
      | true => exact FillNodes.sized_updates sound generated
  | _ => cases rows

end

-----------------------------------------------------------------------------------------
-- Whole loads
-----------------------------------------------------------------------------------------

namespace GeneratedWorkload

/-- The estimates of a load that writes types or nodes are exact, whatever words are drawn and after
any calls. If its preparation succeeds, then there is an item for each operation. Whatever the order
in which all of them are executed, what an item wrote is read back at the end: the type of that name
and the node under the id that was answered have the size that the item estimated.
-/
theorem executeAll_readsBack {γ : Type} [WordSource γ] (calls : List Call) {load : Load Sampler}
    (rows : load.writesRows = true) (count : Nat) (source : γ) (held : List WorkItem)
    (isPrepared : Bool)
    : let db := Database.empty.serveAll calls
      let workload : GeneratedWorkload (Load Sampler) γ := ⟨load, count, source, held, isPrepared⟩
      let prepared := workload.prepare Database.store db
      let executed (indices : List Nat) : Database :=
        prepared.2.1.executeAll Database.store indices prepared.2.2
      prepared.1.1 = .ok () →
        prepared.2.1.items.length = count
        ∧ ∀ before index after, (before ++ index :: after).Perm (List.range count) →
            ∃ item, prepared.2.1.items[index]? = some item
              ∧ (executed before).ReadsBack (executed (before ++ index :: after)) item.call
                item.bytes := by
  intro db workload prepared executed succeeded
  have sound : db.Sound := Database.empty_sound.serveAll calls
  obtain ⟨ready, length, either⟩ := workload.of_prepare_ok Database.store db succeeded
  have sized : load.Sized prepared.2.2 prepared.2.1.items := by
    rcases either with ⟨none, same⟩ | ⟨p, generated, same⟩
    · rw [none, same]
      exact ⟨sound, .nil, List.forall_mem_nil _⟩
    · rw [same]
      exact Load.sized_generate rows sound generated
  refine ⟨length, fun before index after perm => ?_⟩
  have within (other : Nat) (member : other ∈ before ++ index :: after)
      : other < prepared.2.1.items.length := by
    rw [length]
    exact List.mem_range.mp (perm.mem_iff.mp member)
  have inside := within index (List.mem_append_right before List.mem_cons_self)
  refine ⟨prepared.2.1.items[index], List.getElem?_eq_getElem inside, ?_⟩
  have pending := sized.pending.callsAt (perm.nodup_iff.mpr List.nodup_range)
    fun other member => by rw [List.length_map]; exact within other member
  have split : callsAt (prepared.2.1.items.map (·.call)) (before ++ index :: after)
      = callsAt (prepared.2.1.items.map (·.call)) before
        ++ prepared.2.1.items[index].call
          :: callsAt (prepared.2.1.items.map (·.call)) after := by
    rw [callsAt, List.filterMap_append, List.filterMap_cons_some]
    · rfl
    · rw [List.getElem?_map, List.getElem?_eq_getElem inside, Option.map_some]
  rw [split] at pending
  have readsBack := pending.readsBack rows sized.sound (sized.sized _ (List.getElem_mem inside))
  rw [← split, ← executeAll_eq ready, ← executeAll_eq ready] at readsBack
  exact readsBack

/-- The estimates of two versions count the stored nodes and what is added to them. The first
version has its estimate also if it is written last.
-/
theorem executeAll_readsBack_lastFirst
    : let calls :=
        [.putType .artifact ⟨none, "Dataset", FillTypes.newProperties 1⟩ false,
          .putNodes .artifact [Database.dataset "a", Database.dataset "b"]]
      let db := Database.empty.serveAll calls
      let load : Load Sampler := .fillNodes .artifact true ⟨2, 2, by decide⟩ ⟨3, 3, by decide⟩
      let workload : GeneratedWorkload (Load Sampler) (Nat → UInt64) :=
        ⟨load, 2, fun _ => 0, [], false⟩
      let prepared := workload.prepare Database.store db
      let executed (indices : List Nat) : Database :=
        prepared.2.1.executeAll Database.store indices prepared.2.2
      load.writesRows = true
        ∧ prepared.1.1 = .ok ()
        ∧ [1, 0].Perm (List.range 2)
        ∧ (db.nodesOf .artifact).map (·.bytes) = [24, 24]
        ∧ prepared.2.1.items.map (·.bytes) = [50, 50]
        ∧ ∃ item, prepared.2.1.items[0]? = some item
          ∧ (executed [1]).ReadsBack (executed [1, 0]) item.call item.bytes := by
  intro calls db load workload prepared executed
  have succeeded : prepared.1.1 = .ok () := by decide +kernel
  have perm : [1, 0].Perm (List.range 2) := by decide
  obtain ⟨_, reads⟩ := executeAll_readsBack calls (rfl : load.writesRows = true) 2 (fun _ => 0) []
    false succeeded
  exact ⟨rfl, succeeded, perm, by decide +kernel, by decide +kernel, reads [1] 0 [] perm⟩

end GeneratedWorkload

end LineageLoad
