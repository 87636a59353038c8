import LineageLoad.Proofs.Store.Identity

/-!
What a batch of nodes means: when it is accepted, which ids its nodes get, and what stands under
these ids afterwards. An accepted batch does what its nodes do if they are written one at a time.
-/

namespace LineageLoad

-----------------------------------------------------------------------------------------
-- Tables of nodes
-----------------------------------------------------------------------------------------

namespace NodeTable

variable {types : EntityId → Option EntityType} {kind : Kind} {table : NodeTable} {node : Node}
  {nodes rest : List Node} {last id : EntityId}

theorem length_idsAfter (last : EntityId) (nodes : List Node)
    : (idsAfter last nodes).length = nodes.length := by
  induction nodes generalizing last with
  | nil => rfl
  | cons node rest ih =>
      rw [idsAfter]
      cases node.id with
      | none => simp [ih]
      | some id => simp [ih]

/-- An id under which nodes are stored comes with one of them or is one of the next. -/
theorem mem_idsAfter (member : id ∈ idsAfter last nodes)
    : (∃ node ∈ nodes, node.id = some id) ∨ last < id := by
  induction nodes generalizing last with
  | nil => cases member
  | cons node rest ih =>
      rw [idsAfter] at member
      cases given : node.id with
      | some own =>
          simp only [given, List.mem_cons] at member
          rcases member with rfl | later
          · exact .inl ⟨node, List.mem_cons_self, given⟩
          · rcases ih later with ⟨other, listed, numbered⟩ | beyond
            · exact .inl ⟨other, List.mem_cons_of_mem _ listed, numbered⟩
            · exact .inr beyond
      | none =>
          simp only [given, List.mem_cons] at member
          rcases member with rfl | later
          · exact .inr (Int.lt_succ _)
          · rcases ih later with ⟨other, listed, numbered⟩ | beyond
            · exact .inl ⟨other, List.mem_cons_of_mem _ listed, numbered⟩
            · exact .inr (Int.lt_trans (Int.lt_succ _) beyond)

/-- No later node of a batch is stored under the id of an earlier one. A later node that comes with
an id has another one, which stood in the table before, and a new id is beyond all that stand.
-/
theorem Sound.put_fst_not_mem (sound : table.Sound types kind)
    (ready : table.Ready types kind node) (later : ∀ other ∈ rest, table.Ready types kind other)
    (apart : ∀ other ∈ rest, Database.Apart node other)
    : (table.put node).1 ∉ ((table.put node).2.putAll rest).1 := by
  intro again
  rw [putAll_fst] at again
  rcases mem_idsAfter again with ⟨other, listed, numbered⟩ | beyond
  · rcases sound.id_or_free node with own | ⟨_, free⟩
    · exact (apart other listed).ids _ own numbered
    · obtain ⟨old, found, _⟩ := (later other listed).stored _ numbered
      cases free.symm.trans found
  · have stands : (table.put node).2.rows[(table.put node).1]?
        = some { node with id := some (table.put node).1 } := by
      rw [put_rows, if_pos rfl]
    exact absurd beyond (Int.not_lt.mpr ((sound.put ready).bounded _ _ stands))

/-- After a batch each node stands under its id, and all other rows stay. By induction on the batch:
later nodes do not touch the row of an earlier one.
-/
theorem Sound.putAll_rows (sound : table.Sound types kind)
    (ready : ∀ node ∈ nodes, table.Ready types kind node) (apart : nodes.Pairwise Database.Apart)
    : (∀ entry ∈ nodes.zip (table.putAll nodes).1,
          (table.putAll nodes).2.rows[entry.2]? = some { entry.1 with id := some entry.2 })
        ∧ ∀ id ∉ (table.putAll nodes).1,
            (table.putAll nodes).2.rows[id]? = table.rows[id]? := by
  induction nodes generalizing table with
  | nil => exact ⟨List.forall_mem_nil _, fun _ _ => rfl⟩
  | cons node rest ih =>
      obtain ⟨separate, apart⟩ := List.pairwise_cons.mp apart
      obtain ⟨first, later⟩ := List.forall_mem_cons.mp ready
      obtain ⟨held, kept⟩ := ih (sound.put first)
        (fun other member => (later other member).put (separate other member) sound) apart
      have once := sound.put_fst_not_mem first later separate
      rw [NodeTable.putAll]
      dsimp only
      refine ⟨?_, fun id elsewhere => ?_⟩
      · rw [List.zip_cons_cons]
        refine List.forall_mem_cons.mpr ⟨?_, held⟩
        rw [kept _ once, put_rows, if_pos rfl]
      · obtain ⟨other, elsewhere⟩ := not_or.mp (mt List.mem_cons.mpr elsewhere)
        rw [kept id elsewhere, put_rows, if_neg other]

end NodeTable

-----------------------------------------------------------------------------------------
-- Accepted batches
-----------------------------------------------------------------------------------------

namespace Database

variable {db : Database} {kind : Kind} {node : Node} {nodes : List Node} {log : List Answer}

/-- The checks of a node, without the index of names: no other node of its type has its name. -/
theorem Sound.accepts_iff (sound : db.Sound)
    : (∃ type, db.Accepts kind type node)
      ↔ (∃ type, db.typeById? kind node.typeId = some type ∧ type.Admits node)
        ∧ (∀ id, node.id = some id →
            ∃ old, db.nodeById? kind id = some old ∧ old.typeId = node.typeId)
        ∧ (kind = .context → node.name ≠ none)
        ∧ ∀ name, node.name = some name → ∀ id other, db.nodeById? kind id = some other →
            other.typeId = node.typeId → other.name = some name → node.id = some id := by
  have index := (sound.nodes kind).indexed node.typeId
  constructor
  · rintro ⟨type, accepts⟩
    refine ⟨⟨type, accepts.typed, accepts.admitted⟩, accepts.stored, accepts.named, ?_⟩
    intro name named id other found same titled
    exact accepts.free name id named ((index name id).mpr ⟨other, found, same, titled⟩)
  · rintro ⟨⟨type, typed, admits⟩, stored, named, free⟩
    refine ⟨type, typed, stored, admits, named, fun name owner given held => ?_⟩
    obtain ⟨other, found, same, titled⟩ := (index name owner).mp held
    exact free name given owner other found same titled

/-- The nodes of a batch stand apart exactly if no name of a type and no id is listed twice. -/
theorem pairwise_apart_iff
    : nodes.Pairwise Apart
      ↔ (nodes.filterMap fun node => node.name.map (node.typeId, ·)).Nodup
        ∧ (nodes.filterMap (·.id)).Nodup := by
  rw [List.nodup_iff_pairwise_ne, List.nodup_iff_pairwise_ne, List.pairwise_filterMap,
    List.pairwise_filterMap, ← List.pairwise_and_iff]
  refine ⟨List.Pairwise.imp ?_, List.Pairwise.imp ?_⟩
  · intro node other apart
    refine ⟨?_, fun id own twin again => ?_⟩
    · simp only [Option.map_eq_some_iff]
      rintro _ ⟨name, named, rfl⟩ _ ⟨title, titled, rfl⟩ same
      obtain ⟨sameType, rfl⟩ := Prod.mk.inj same
      exact apart.names name named titled sameType
    · rintro rfl
      exact apart.ids id own again
  · intro node other ⟨names, ids⟩
    refine ⟨fun name named titled same => ?_, fun id own again => ids id own id again rfl⟩
    refine names (node.typeId, name) ?_ (other.typeId, name) ?_ (by rw [same])
    · simp [named]
    · simp [titled]

/-- Nodes are never removed, so the last id that was given is the number of nodes. -/
theorem ToldBy.lastId_eq (told : db.ToldBy log) (sound : db.Sound) (kind : Kind)
    : (db.nodes.get kind).lastId = (db.nodesOf kind).length := by
  have listed := congrArg List.length (told.map_nodesOf sound kind)
  rw [List.length_map, List.length_map, length_enumerated] at listed
  rw [(told.nodes kind).lastId, listed]

/-- After an accepted batch each of its nodes stands under its id, with the name of its type filled
in, and the other nodes of the kind stay.
-/
theorem Sound.putNodes_rows {ids : List EntityId} {next : Database} (sound : db.Sound)
    (stored : db.putNodes kind nodes = .ok (ids, next))
    : (∀ entry ∈ nodes.zip ids, ∃ type, db.typeById? kind entry.1.typeId = some type
          ∧ next.nodeById? kind entry.2
            = some { entry.1 with id := some entry.2, typeName := type.name })
        ∧ ∀ id ∉ ids, next.nodeById? kind id = db.nodeById? kind id := by
  obtain ⟨accepts, apart, listed, left⟩ := putNodes_eq_ok_iff.mp stored
  obtain ⟨held, kept⟩ := (sound.nodes kind).putAll_rows (ready_withTypeName accepts)
    (apart_withTypeName apart)
  rw [← listed] at held kept
  have rows (id : EntityId) : next.nodeById? kind id
      = ((db.nodes.get kind).putAll (nodes.map (db.withTypeName kind))).2.rows[id]? := by
    rw [left, nodeById?, PerKind.get_set_self]
  refine ⟨fun entry member => ?_, fun id elsewhere => ?_⟩
  · obtain ⟨type, accepted⟩ := accepts entry.1 (List.of_mem_zip member).1
    refine ⟨type, accepted.typed, ?_⟩
    have filled : (db.withTypeName kind entry.1, entry.2)
        ∈ (nodes.map (db.withTypeName kind)).zip ids := by
      rw [List.zip_map_left]
      exact List.mem_map.mpr ⟨entry, member, rfl⟩
    rw [rows, held _ filled]
    simp [withTypeName, accepted.typed]
  · rw [rows, kept id elsewhere]
    rfl

/-- What a write of nodes means, after any calls. A batch is accepted exactly if each of its nodes
is of a stored type that declares its properties with the types of their values, has the id of a
stored node of that type or none, has a name if it is a context, and has no name that another stored
node of the type has, and if no name of a type and no id comes twice in the batch. The ids that are
answered are those of the nodes, or the next ones for those without. Then each node stands under its
id, with the name of its type filled in, and everything else stays.
-/
theorem serve_putNodes_iff (calls : List Call) (kind : Kind) (nodes : List Node)
    : let db := empty.serveAll calls
      let ended := serve (.putNodes kind nodes) db
      ((∃ ids, ended.1 = .ok ids)
        ↔ (∀ node ∈ nodes,
            (∃ type, db.typeById? kind node.typeId = some type
              ∧ ∀ (name : String) value, node.properties[name]? = some value
                  → type.properties[name]? = some value.propertyType)
            ∧ (∀ id, node.id = some id →
                ∃ old, db.nodeById? kind id = some old ∧ old.typeId = node.typeId)
            ∧ (kind = .context → node.name ≠ none)
            ∧ ∀ name, node.name = some name → ∀ id other, db.nodeById? kind id = some other →
                other.typeId = node.typeId → other.name = some name → node.id = some id)
          ∧ (nodes.filterMap fun node => node.name.map (node.typeId, ·)).Nodup
          ∧ (nodes.filterMap (·.id)).Nodup)
      ∧ ∀ ids, ended.1 = .ok ids →
          ids.length = nodes.length
          ∧ ids = NodeTable.idsAfter (db.nodesOf kind).length nodes
          ∧ (∀ id, db.hasNode kind id → id ≤ (db.nodesOf kind).length)
          ∧ (∀ entry ∈ nodes.zip ids, ∃ type, db.typeById? kind entry.1.typeId = some type
              ∧ ended.2.nodeById? kind entry.2
                = some { entry.1 with id := some entry.2, typeName := type.name })
          ∧ (∀ id ∉ ids, ended.2.nodeById? kind id = db.nodeById? kind id)
          ∧ (∀ other, other ≠ kind → ended.2.nodes.get other = db.nodes.get other)
          ∧ ended.2.types = db.types
          ∧ ended.2.lastTypeId = db.lastTypeId
          ∧ ended.2.events = db.events
          ∧ ended.2.attributions = db.attributions
          ∧ ended.2.associations = db.associations := by
  intro db ended
  have sound : db.Sound := empty_sound.serveAll calls
  have told : db.ToldBy (store.answers calls .empty) := by
    simpa using empty_toldBy.serveAll empty_sound calls
  have accepted {ids : List EntityId} (answer : ended.1 = .ok ids)
      : db.putNodes kind nodes = .ok (ids, ended.2) :=
    of_commit_eq_ok (Prod.ext answer rfl)
  refine ⟨⟨fun ⟨ids, answer⟩ => ?_, fun ⟨fit, apart⟩ => ?_⟩, fun ids answer => ?_⟩
  · obtain ⟨accepts, apart, _⟩ := putNodes_eq_ok_iff.mp (accepted answer)
    exact ⟨fun node member => sound.accepts_iff.mp (accepts node member),
      pairwise_apart_iff.mp apart⟩
  · have written := putNodes_eq_ok_iff.mpr
      ⟨fun node member => sound.accepts_iff.mpr (fit node member), pairwise_apart_iff.mpr apart,
        rfl, rfl⟩
    exact ⟨_, congrArg (fun outcome => (db.commit outcome).1) written⟩
  · obtain ⟨_, _, listed, left⟩ := putNodes_eq_ok_iff.mp (accepted answer)
    obtain ⟨held, kept⟩ := sound.putNodes_rows (accepted answer)
    have numbers : ids = NodeTable.idsAfter (db.nodesOf kind).length nodes := by
      rw [listed, NodeTable.putAll_fst, told.lastId_eq sound,
        NodeTable.idsAfter_map (f := db.withTypeName kind) (fun _ => rfl)]
    refine ⟨?_, numbers, fun id stored => ?_, held, kept, fun other different => ?_, ?_⟩
    · rw [numbers, NodeTable.length_idsAfter]
    · obtain ⟨node, found⟩ := hasNode_iff.mp stored
      exact told.lastId_eq sound kind ▸ (sound.nodes kind).bounded id node found
    · rw [left, PerKind.get_set_of_ne _ _ different]
    · rw [left]
      exact ⟨rfl, rfl, rfl, rfl, rfl⟩

-----------------------------------------------------------------------------------------
-- One node at a time
-----------------------------------------------------------------------------------------

/-- The calls that write nodes one at a time. -/
def singly (kind : Kind) (nodes : List Node) : List Call :=
  nodes.map fun node => .putNodes kind [node]

/-- Nodes that are accepted and stand apart are accepted one after the other, and they are put into
the table as by one call. By induction on the nodes: those that follow stay acceptable.
-/
theorem Sound.serveAll_singly (sound : db.Sound)
    (accepts : ∀ node ∈ nodes, ∃ type, db.Accepts kind type node) (apart : nodes.Pairwise Apart)
    : store.answers (singly kind nodes) db
          = List.zipWith (fun node id => ⟨.putNodes kind [node], .ok [id]⟩) nodes
              ((db.nodes.get kind).putAll (nodes.map (db.withTypeName kind))).1
        ∧ db.serveAll (singly kind nodes) = { db with
            nodes := db.nodes.set kind
              ((db.nodes.get kind).putAll (nodes.map (db.withTypeName kind))).2 } := by
  induction nodes generalizing db with
  | nil =>
      refine ⟨rfl, ?_⟩
      exact (congrArg (fun nodes => { db with nodes }) (PerKind.set_get_self db.nodes kind)).symm
  | cons node rest ih =>
      obtain ⟨⟨type, first⟩, later⟩ := List.forall_mem_cons.mp accepts
      obtain ⟨separate, apart⟩ := List.pairwise_cons.mp apart
      have served := serve_putNode first
      have after := sound.serve (.putNodes kind [node])
      rw [served] at after
      obtain ⟨answers, left⟩ := ih after (fun other member =>
        (later other member).imp fun _ accepted => accepted.put sound (separate other member)) apart
      rw [PerKind.get_set_self] at answers left
      rw [PerKind.set_set] at left
      have answered : store.answers (singly kind (node :: rest)) db
          = ⟨.putNodes kind [node], (Database.serve (.putNodes kind [node]) db).1⟩
            :: store.answers (singly kind rest) (Database.serve (.putNodes kind [node]) db).2 := rfl
      have reached : db.serveAll (singly kind (node :: rest))
          = (Database.serve (.putNodes kind [node]) db).2.serveAll (singly kind rest) := rfl
      rw [answered, reached, served, answers, left]
      exact ⟨rfl, rfl⟩

/-- A batch that is accepted does what its nodes do one at a time, in the order of the batch: each
of these calls is accepted as well, they answer the same ids, and they leave the same contents.
-/
theorem serveAll_singly_of_accepted (calls : List Call) (kind : Kind) (nodes : List Node)
    (ids : List EntityId)
    (accepted : (serve (.putNodes kind nodes) (empty.serveAll calls)).1 = .ok ids)
    : let db := empty.serveAll calls
      ids.length = nodes.length
      ∧ store.answers (singly kind nodes) db
        = List.zipWith (fun node id => ⟨.putNodes kind [node], .ok [id]⟩) nodes ids
      ∧ db.serveAll (singly kind nodes) = (serve (.putNodes kind nodes) db).2 := by
  intro db
  have sound : db.Sound := empty_sound.serveAll calls
  obtain ⟨next, written⟩ := commit_eq_ok accepted
  obtain ⟨accepts, apart, rfl, rfl⟩ := putNodes_eq_ok_iff.mp written
  obtain ⟨answers, left⟩ := sound.serveAll_singly accepts apart
  refine ⟨?_, answers, left.trans ?_⟩
  · rw [NodeTable.putAll_fst, NodeTable.length_idsAfter, List.length_map]
  · exact (congrArg (fun outcome => (db.commit outcome).2) written).symm

/-- A batch that renames a dataset and creates another one. -/
theorem serveAll_singly_renamed
    : let calls :=
        [.putType .artifact ⟨none, "Dataset", ∅⟩ false, .putNodes .artifact [dataset "a"]]
      let nodes := [{ dataset "c" with id := some 1 }, dataset "b"]
      let db := empty.serveAll calls
      (serve (.putNodes .artifact nodes) db).1 = .ok [1, 2]
        ∧ store.answers (singly .artifact nodes) db
          = [⟨.putNodes .artifact [{ dataset "c" with id := some 1 }], .ok [1]⟩,
              ⟨.putNodes .artifact [dataset "b"], .ok [2]⟩]
        ∧ db.serveAll (singly .artifact nodes) = (serve (.putNodes .artifact nodes) db).2 := by
  have accepted
      : (serve (.putNodes .artifact [{ dataset "c" with id := some 1 }, dataset "b"])
          (empty.serveAll [.putType .artifact ⟨none, "Dataset", ∅⟩ false,
            .putNodes .artifact [dataset "a"]])).1 = .ok [1, 2] := by
    rfl
  obtain ⟨_, answers, left⟩ := serveAll_singly_of_accepted _ _ _ _ accepted
  exact ⟨accepted, answers, left⟩

end Database

end LineageLoad
