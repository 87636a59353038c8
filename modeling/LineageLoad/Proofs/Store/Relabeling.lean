import LineageLoad.Proofs.Store.Invariant
import Mathlib.Data.List.Nodup
import Mathlib.Data.Prod.Basic
import Mathlib.Logic.Equiv.Basic

/-!
Contents that are equal up to other ids for the rows that were added since some earlier contents,
and up to the order of the events that were stored since then.
-/

namespace LineageLoad

-----------------------------------------------------------------------------------------
-- Relabelings
-----------------------------------------------------------------------------------------

/-- Other ids: for types, which share one sequence, and for the nodes of each kind. -/
structure Relabeling where
  types : Equiv.Perm EntityId
  nodes : Kind → Equiv.Perm EntityId

namespace Relabeling

/-- Every id stays as it is. -/
def refl : Relabeling := ⟨Equiv.refl _, fun _ => Equiv.refl _⟩

/-- Only types have other ids. -/
def ofTypes (ids : Equiv.Perm EntityId) : Relabeling := ⟨ids, fun _ => Equiv.refl _⟩

/-- Only the nodes of one kind have other ids. -/
def ofNodes (kind : Kind) (ids : Equiv.Perm EntityId) : Relabeling :=
  ⟨Equiv.refl _, fun other => if other = kind then ids else Equiv.refl _⟩

/-- A type under its other id. -/
def type (labels : Relabeling) (type : EntityType) : EntityType :=
  { type with id := type.id.map labels.types }

/-- A node under its other id, with the other id of its type. -/
def node (labels : Relabeling) (kind : Kind) (node : Node) : Node :=
  { node with id := node.id.map (labels.nodes kind), typeId := labels.types node.typeId }

theorem ofNodes_self (kind : Kind) (ids : Equiv.Perm EntityId)
    : (ofNodes kind ids).nodes kind = ids :=
  if_pos rfl

theorem ofNodes_of_ne {kind other : Kind} (different : other ≠ kind) (ids : Equiv.Perm EntityId)
    : (ofNodes kind ids).nodes other = Equiv.refl _ :=
  if_neg different

theorem type_refl
    : refl.type = id := by
  funext ⟨id, name, properties⟩
  cases id <;> rfl

theorem node_refl (kind : Kind)
    : refl.node kind = id := by
  funext ⟨id, typeId, typeName, name, properties, customProperties⟩
  cases id <;> rfl

end Relabeling

-----------------------------------------------------------------------------------------
-- Contents up to a relabeling
-----------------------------------------------------------------------------------------

/-- What a type is, apart from its id. -/
def EntityType.content (type : EntityType) : String × PropertyMap PropertyType :=
  (type.name, type.properties)

/-- What a node is, apart from its id and the one of its type. -/
def Node.content (node : Node)
    : String × Option String × PropertyMap Value × PropertyMap Value :=
  (node.typeName, node.name, node.properties, node.customProperties)

namespace Database

/-- The second contents are the first ones under other ids, with the events after those of (base) in
another order. Only ids that were given since (base) change; events and links have none of these.
-/
structure Matches (base : Database) (labels : Relabeling) (first second : Database) : Prop where
  oldTypes : ∀ kind id, (base.typeById? kind id).isSome → labels.types id = id
  oldNodes : ∀ kind id, base.hasNode kind id → labels.nodes kind id = id
  newTypes : ∀ id, labels.types id ≠ id → base.lastTypeId < id ∧ id ≤ first.lastTypeId
  newNodes
    : ∀ kind id, labels.nodes kind id ≠ id →
      (base.nodes.get kind).lastId < id ∧ id ≤ (first.nodes.get kind).lastId
  lastTypeId : second.lastTypeId = first.lastTypeId
  lastIds : ∀ kind, (second.nodes.get kind).lastId = (first.nodes.get kind).lastId
  types
    : ∀ kind id, second.typeById? kind (labels.types id)
      = (first.typeById? kind id).map labels.type
  nodes
    : ∀ kind id, second.nodeById? kind (labels.nodes kind id)
      = (first.nodeById? kind id).map (labels.node kind)
  names
    : ∀ kind (typeId : EntityId) (name : String),
      (second.nodes.get kind).names[(labels.types typeId, name)]?
        = (first.nodes.get kind).names[(typeId, name)]?.map (labels.nodes kind)
  events
    : ∃ added others, first.events = base.events ++ added ∧ second.events = base.events ++ others
      ∧ added.Perm others
  links : ∀ kind, second.linksOf kind = first.linksOf kind
  joined
    : ∀ event ∈ first.events, labels.nodes .artifact event.artifact = event.artifact
      ∧ labels.nodes .execution event.execution = event.execution
  linked
    : ∀ kind, ∀ pair ∈ first.linksOf kind, labels.nodes .context pair.1 = pair.1
      ∧ labels.nodes kind pair.2 = pair.2

/-- Contents are equal up to a relabeling of the rows added since (base), and up to the order of the
events since then.
-/
def SameUpTo (base first second : Database) : Prop :=
  ∃ labels, base.Matches labels first second

/-- Contents with the same types and nodes, whatever their ids are, the same links and the same
events in any order.
-/
structure LooksLike (first second : Database) : Prop where
  types
    : ∀ kind, ((first.typesOf kind).map (·.content)).Perm ((second.typesOf kind).map (·.content))
  nodes
    : ∀ kind, ((first.nodesOf kind).map (·.content)).Perm ((second.nodesOf kind).map (·.content))
  links : ∀ kind, first.linksOf kind = second.linksOf kind
  events : first.events.Perm second.events

end Database

namespace Table

variable {α β : Type} {table other : Table α} {labels : Equiv.Perm EntityId} {rename : α → α}

theorem nodup_keys (table : Table α)
    : (table.toList.map Prod.fst).Nodup := by
  rw [Std.ExtTreeMap.map_fst_toList_eq_keys]
  exact Std.ExtTreeMap.nodup_keys

/-- A table with the same rows under other ids lists these rows in some order. -/
theorem toList_perm (rows : ∀ id, other[labels id]? = table[id]?.map rename)
    : (table.toList.map (Prod.map labels rename)).Perm other.toList := by
  have keys : ((table.toList.map (Prod.map labels rename)).map Prod.fst).Nodup := by
    rw [List.map_map, Prod.map_fst', ← List.map_map]
    exact table.nodup_keys.map labels.injective
  refine (List.perm_ext_iff_of_nodup keys.of_map other.nodup_keys.of_map).mpr ?_
  rintro ⟨key, row⟩
  obtain ⟨id, rfl⟩ := labels.surjective key
  rw [Std.ExtTreeMap.mem_toList_iff_getElem?_eq_some, rows, Option.map_eq_some_iff]
  constructor
  · intro member
    obtain ⟨⟨old, stored⟩, found, equal⟩ := List.mem_map.mp member
    obtain ⟨key, value⟩ := Prod.mk.inj equal
    obtain rfl := labels.injective key
    exact ⟨stored, Std.ExtTreeMap.mem_toList_iff_getElem?_eq_some.mp found, value⟩
  · rintro ⟨stored, found, rfl⟩
    exact List.mem_map.mpr
      ⟨(id, stored), Std.ExtTreeMap.mem_toList_iff_getElem?_eq_some.mpr found, rfl⟩

/-- Such tables have the same values, as far as these are the same under other ids. -/
theorem values_perm {content : α → β} (rows : ∀ id, other[labels id]? = table[id]?.map rename)
    (same : ∀ row, content (rename row) = content row)
    : (table.values.map content).Perm (other.values.map content) := by
  have listed := (toList_perm rows).map (content ·.2)
  rw [List.map_map] at listed
  rw [values, values, List.map_map, List.map_map]
  refine .trans (.of_eq (List.map_congr_left fun row _ => ?_)) listed
  exact (same row.2).symm

end Table

/-- Rows are found under their other ids if only ids above all of theirs move. -/
theorem lookup_relabeled {α : Type} {last : EntityId} {labels : Equiv.Perm EntityId}
    {there : EntityId → Option α} {rename : α → α} (moves : ∀ id, labels id ≠ id → last < id)
    (bounded : ∀ id found, there id = some found → id ≤ last)
    (kept : ∀ id found, there id = some found → rename found = found) (id : EntityId)
    : there (labels id) = (there id).map rename := by
  by_cases fixed : labels id = id
  · rw [fixed]
    cases found : there id with
    | none => rfl
    | some old => exact congrArg some (kept id old found).symm
  · have free (key : EntityId) (above : last < key) : there key = none := by
      cases found : there key with
      | none => rfl
      | some old => exact absurd (bounded key old found) (Int.not_le.mpr above)
    -- Neither the id nor the other one has been given before.
    have moved : labels (labels id) ≠ labels id := fun again => fixed (labels.injective again)
    rw [free id (moves id fixed), free _ (moves _ moved)]
    rfl

namespace Database

variable {base first second : Database} {labels : Relabeling}

theorem Matches.events_perm (same : base.Matches labels first second)
    : first.events.Perm second.events := by
  obtain ⟨added, others, before, after, perm⟩ := same.events
  rw [before, after]
  exact perm.append_left _

theorem SameUpTo.looksLike (same : base.SameUpTo first second)
    : first.LooksLike second := by
  obtain ⟨labels, same⟩ := same
  exact {
    types kind := Table.values_perm (same.types kind) fun _ => rfl
    nodes kind := Table.values_perm (same.nodes kind) fun _ => rfl
    links kind := (same.links kind).symm
    events := same.events_perm }

/-- Contents that differ in the order of their last events are equal up to it. -/
theorem sameUpTo_of_events {db : Database} {added others : List Event}
    (same : db.events = base.events) (perm : added.Perm others)
    : base.SameUpTo { db with events := db.events ++ added }
        { db with events := db.events ++ others } := by
  refine ⟨.refl, ?_⟩
  exact {
    oldTypes _ _ _ := rfl
    oldNodes _ _ _ := rfl
    newTypes _ moved := absurd rfl moved
    newNodes _ _ moved := absurd rfl moved
    lastTypeId := rfl
    lastIds _ := rfl
    types kind id := by
      rw [Relabeling.type_refl, Option.map_id]
      rfl
    nodes kind id := by
      rw [Relabeling.node_refl, Option.map_id]
      rfl
    names kind typeId name := by
      change _ = Option.map id _
      rw [Option.map_id]
      rfl
    events := ⟨added, others, by rw [same], by rw [same], perm⟩
    links _ := rfl
    joined _ _ := ⟨rfl, rfl⟩
    linked _ _ _ := ⟨rfl, rfl⟩ }

-----------------------------------------------------------------------------------------
-- Rows under other ids
-----------------------------------------------------------------------------------------

/-- A relabeling only moves ids above those that were given. -/
structure Keeps (base : Database) (labels : Relabeling) : Prop where
  types : ∀ id, labels.types id ≠ id → base.lastTypeId < id
  nodes : ∀ kind id, labels.nodes kind id ≠ id → (base.nodes.get kind).lastId < id

namespace Keeps

variable {kind : Kind} {id : EntityId}

theorem typeId_eq (keeps : base.Keeps labels) (sound : base.Sound) {type : EntityType}
    (found : base.typeById? kind id = some type)
    : labels.types id = id := by
  by_contra moved
  exact absurd (sound.types.bounded kind id type found) (Int.not_le.mpr (keeps.types id moved))

theorem nodeId_eq (keeps : base.Keeps labels) (sound : base.Sound) {node : Node}
    (found : base.nodeById? kind id = some node)
    : labels.nodes kind id = id := by
  by_contra moved
  exact absurd ((sound.nodes kind).bounded id node found)
    (Int.not_le.mpr (keeps.nodes kind id moved))

theorem nodeId_eq_of_hasNode (keeps : base.Keeps labels) (sound : base.Sound)
    (stored : base.hasNode kind id = true)
    : labels.nodes kind id = id := by
  obtain ⟨node, found⟩ := hasNode_iff.mp stored
  exact keeps.nodeId_eq sound found

theorem type_eq (keeps : base.Keeps labels) (sound : base.Sound) {type : EntityType}
    (found : base.typeById? kind id = some type)
    : labels.type type = type := by
  have own := sound.types.numbered kind id type found
  rw [Relabeling.type, own, Option.map_some, keeps.typeId_eq sound found, ← own]

theorem node_eq (keeps : base.Keeps labels) (sound : base.Sound) {node : Node}
    (found : base.nodeById? kind id = some node)
    : labels.node kind node = node := by
  have own := (sound.nodes kind).numbered id node found
  obtain ⟨type, typed, _⟩ := ((sound.nodes kind).conforming id node found).typed
  rw [Relabeling.node, own, Option.map_some, keeps.nodeId_eq sound found,
    keeps.typeId_eq sound typed, ← own]

/-- Types that were there are found as before. -/
theorem typeById? (keeps : base.Keeps labels) (sound : base.Sound) (kind : Kind) (id : EntityId)
    : base.typeById? kind (labels.types id) = (base.typeById? kind id).map labels.type :=
  lookup_relabeled keeps.types (sound.types.bounded kind) (fun _ _ => keeps.type_eq sound) id

/-- Nodes that were there are found as before. -/
theorem nodeById? (keeps : base.Keeps labels) (sound : base.Sound) (kind : Kind) (id : EntityId)
    : base.nodeById? kind (labels.nodes kind id)
        = (base.nodeById? kind id).map (labels.node kind) :=
  lookup_relabeled (keeps.nodes kind) (sound.nodes kind).bounded
    (fun _ _ => keeps.node_eq sound) id

end Keeps

/-- The index of names follows the nodes to their other ids. Witness: in both contents it holds
exactly the names of the nodes.
-/
theorem Sound.names_of_nodes (sooner : first.Sound) (later : second.Sound) (kind : Kind)
    (nodes
      : ∀ id, second.nodeById? kind (labels.nodes kind id)
        = (first.nodeById? kind id).map (labels.node kind))
    (typeId : EntityId) (name : String)
    : (second.nodes.get kind).names[(labels.types typeId, name)]?
        = (first.nodes.get kind).names[(typeId, name)]?.map (labels.nodes kind) := by
  refine Option.ext fun key => ?_
  obtain ⟨id, rfl⟩ := (labels.nodes kind).surjective key
  rw [(later.nodes kind).indexed, Option.map_eq_some_iff]
  constructor
  · rintro ⟨node, found, sameType, named⟩
    obtain ⟨old, before, rfl⟩ := Option.map_eq_some_iff.mp ((nodes id).symm.trans found)
    refine ⟨id, ((sooner.nodes kind).indexed typeId name id).mpr ⟨old, before, ?_, named⟩, rfl⟩
    exact labels.types.injective sameType
  · rintro ⟨other, held, same⟩
    obtain rfl := (labels.nodes kind).injective same
    obtain ⟨old, before, rfl, named⟩ := ((sooner.nodes kind).indexed typeId name other).mp held
    exact ⟨labels.node kind old, (nodes other).trans (congrArg (Option.map _) before), rfl, named⟩

/-- Contents with the events and the links of (base) match if their types and nodes do. Events and
links have none of the ids that change, since their ends were stored before.
-/
theorem Sound.matches_of_rows (sound : base.Sound) (sooner : first.Sound) (later : second.Sound)
    (newTypes : ∀ id, labels.types id ≠ id → base.lastTypeId < id ∧ id ≤ first.lastTypeId)
    (newNodes
      : ∀ kind id, labels.nodes kind id ≠ id →
        (base.nodes.get kind).lastId < id ∧ id ≤ (first.nodes.get kind).lastId)
    (lastTypeId : second.lastTypeId = first.lastTypeId)
    (lastIds : ∀ kind, (second.nodes.get kind).lastId = (first.nodes.get kind).lastId)
    (types
      : ∀ kind id, second.typeById? kind (labels.types id)
        = (first.typeById? kind id).map labels.type)
    (nodes
      : ∀ kind id, second.nodeById? kind (labels.nodes kind id)
        = (first.nodeById? kind id).map (labels.node kind))
    (events : first.events = base.events ∧ second.events = base.events)
    (links : ∀ kind, first.linksOf kind = base.linksOf kind
      ∧ second.linksOf kind = base.linksOf kind)
    : base.Matches labels first second := by
  have keeps : base.Keeps labels :=
    ⟨fun id moved => (newTypes id moved).1, fun kind id moved => (newNodes kind id moved).1⟩
  have fixed {kind id} (stored : base.hasNode kind id = true) : labels.nodes kind id = id :=
    keeps.nodeId_eq_of_hasNode sound stored
  exact {
    oldTypes kind id stored := by
      obtain ⟨type, found⟩ := Option.isSome_iff_exists.mp stored
      exact keeps.typeId_eq sound found
    oldNodes _ _ := fixed
    newTypes, newNodes, lastTypeId, lastIds, types, nodes
    names kind typeId name := sooner.names_of_nodes later kind (nodes kind) typeId name
    events := ⟨[], [], by rw [events.1, List.append_nil], by rw [events.2, List.append_nil], .nil⟩
    links kind := (links kind).2.trans (links kind).1.symm
    joined event member := by
      rw [events.1] at member
      exact (sound.events event member).imp fixed fixed
    linked kind pair member := by
      rw [(links kind).1] at member
      exact (sound.linksOf pair member).symm.imp fixed fixed }

end Database

end LineageLoad
