import LineageLoad.Proofs.Store.Listings

/-!
Nodes that are looked up by the name of their type, or by their own name as well, are those that a
scan of all nodes of the kind finds. The lookups go through the ids of types and the index of names,
a scan reads what stands in the nodes.
-/

namespace LineageLoad

/-- At most one entry of a list is selected if it is known which one. -/
theorem filter_eq_toList {α : Type} {list : List α} {selects : α → Bool} {found : Option α}
    (distinct : list.Nodup) (only : ∀ entry, entry ∈ list.filter selects ↔ found = some entry)
    : list.filter selects = found.toList := by
  cases found with
  | none =>
      refine List.eq_nil_iff_forall_not_mem.mpr fun entry member => ?_
      cases (only entry).mp member
  | some entry =>
      refine List.perm_singleton.mp ((List.perm_ext_iff_of_nodup ?_ ?_).mpr fun other => ?_)
      · exact distinct.filter selects
      · exact List.pairwise_singleton _ entry
      · rw [only, List.mem_singleton, Option.some.injEq, eq_comm]

namespace Database

variable {db : Database} {kind : Kind} {typeName name : String} {node : Node}

/-- Through the index of names: its entries are the names of the nodes, under the ids of their
types.
-/
theorem Sound.nodeByName?_eq_some_iff (sound : db.Sound)
    : db.nodeByName? kind typeName name = some node
      ↔ node ∈ db.nodesOf kind ∧ node.typeName = typeName ∧ node.name = some name := by
  constructor
  · intro found
    unfold nodeByName? at found
    cases resolved : db.typeIdByName? kind typeName with
    | none =>
        rw [resolved] at found
        cases found
    | some typeId =>
        rw [resolved] at found
        obtain ⟨id, entry, there⟩ := Option.bind_eq_some_iff.mp found
        obtain ⟨row, standing, typed, named⟩ :=
          ((sound.nodes kind).indexed typeId name id).mp entry
        cases there.symm.trans standing
        have member : node ∈ db.nodesOf kind := mem_nodesOf_iff.mpr ⟨id, there⟩
        exact ⟨member, (sound.typeName_eq_iff resolved member).mpr typed, named⟩
  · rintro ⟨member, rfl, named⟩
    obtain ⟨id, there⟩ := mem_nodesOf_iff.mp member
    exact sound.nodeByName?_name there named

theorem Sound.nodeByName?_toList (sound : db.Sound) (kind : Kind) (typeName name : String)
    : (db.nodesOf kind).filter
          (fun node => node.typeName == typeName && node.name == some name)
        = (db.nodeByName? kind typeName name).toList := by
  refine filter_eq_toList sound.nodup_nodes fun node => ?_
  rw [sound.nodeByName?_eq_some_iff, List.mem_filter, Bool.and_eq_true, beq_iff_eq, beq_iff_eq]

/-- Lookups agree with scans, after any calls. The nodes of a type are the nodes of the kind that
have its name, in the same order. A node is found by the name of its type and its own name exactly
if it is a node of the kind with these names, it is then the only one, and none is found exactly if
there is none.
-/
theorem serve_lookups_scan (calls : List Call) (kind : Kind) (typeName name : String)
    : let db := empty.serveAll calls
      ∃ nodes found,
        (serve (.getNodes kind) db).1 = .ok nodes
        ∧ (serve (.getNodesByType kind typeName) db).1
            = .ok (nodes.filter (·.typeName == typeName))
        ∧ (serve (.getNodeByTypeAndName kind typeName name) db).1 = .ok found
        ∧ (∀ node, found = some node
            ↔ node ∈ nodes ∧ node.typeName = typeName ∧ node.name = some name)
        ∧ nodes.filter (fun node => node.typeName == typeName && node.name == some name)
            = found.toList
        ∧ (found = none
            ↔ ∀ node ∈ nodes, ¬(node.typeName = typeName ∧ node.name = some name)) := by
  intro db
  have sound : db.Sound := empty_sound.serveAll calls
  refine ⟨db.nodesOf kind, db.nodeByName? kind typeName name, rfl, ?_, rfl,
    fun node => sound.nodeByName?_eq_some_iff, sound.nodeByName?_toList kind typeName name, ?_⟩
  · exact congrArg Except.ok (sound.nodesByType_eq kind typeName)
  · simp only [Option.eq_none_iff_forall_ne_some, ne_eq, sound.nodeByName?_eq_some_iff, not_and]

/-- A name that a node gave up by an update belongs to the node that took it over. -/
example
    : let type : EntityType := { id := none, name := "t", properties := ∅ }
      let named (id : Option EntityId) (name : Option String) : Node :=
        { id, typeId := 1, typeName := "", name, properties := ∅, customProperties := ∅ }
      let db := empty.serveAll [.putType .artifact type false,
        .putNodes .artifact [named none (some "a")], .putNodes .artifact [named (some 1) none],
        .putNodes .artifact [named none (some "a")]]
      (db.nodeByName? .artifact "t" "a").map (·.id) = some (some 2) := by
  decide +kernel

end Database

end LineageLoad
