import LineageLoad.Proofs.Store.Growth
import LineageLoad.Proofs.Store.Relabeling

/-!
New rows take the ids that follow the last one, in the order in which they come. In another order
they take the same ids in another way, so the contents are equal up to a relabeling of these ids.
-/

namespace LineageLoad

-----------------------------------------------------------------------------------------
-- Successive ids
-----------------------------------------------------------------------------------------

/-- What stands under an id when items take the ids after (last) in their order. -/
def successive {α : Type} (last : EntityId) : List α → EntityId → Option α
  | [], _ => none
  | item :: rest, id => if id = last + 1 then some item else successive (last + 1) rest id

section

variable {α β : Type} {last id : EntityId} {items others : List α} {item : α}

theorem successive_bounds (found : successive last items id = some item)
    : last < id ∧ id ≤ last + items.length := by
  induction items generalizing last with
  | nil => cases found
  | cons first rest ih =>
      rw [successive] at found
      simp only [EntityId, List.length_cons] at *
      split at found
      · omega
      · have bounds := ih found
        omega

theorem successive_eq_none (outside : id ≤ last)
    : successive last items id = none := by
  cases found : successive last items id with
  | none => rfl
  | some item => exact absurd (successive_bounds found).1 (Int.not_lt.mpr outside)

/-- Two items that change places swap the next two ids. -/
theorem successive_swap (first second : α) (rest : List α) (id : EntityId)
    : successive last (first :: second :: rest) (Equiv.swap (last + 1) (last + 2) id)
        = successive last (second :: first :: rest) id := by
  have next : last + 1 + 1 = last + 2 := by
    simp only [EntityId]
    omega
  have apart : last + 2 ≠ last + 1 := by
    simp only [EntityId]
    omega
  simp only [successive, next]
  by_cases before : id = last + 1
  · subst before
    rw [Equiv.swap_apply_left, if_neg apart, if_pos rfl, if_neg apart.symm, if_pos rfl]
  · by_cases after : id = last + 2
    · subst after
      rw [Equiv.swap_apply_right, if_pos rfl, if_neg apart, if_pos rfl]
    · rw [Equiv.swap_apply_of_ne_of_ne before after]
      simp only [if_neg before, if_neg after]

/-- Items in another order take the same ids in another way, by induction on the reordering. -/
theorem exists_relabeling (perm : items.Perm others) (last : EntityId)
    : ∃ labels : Equiv.Perm EntityId,
        (∀ id, labels id ≠ id → last < id ∧ id ≤ last + items.length)
        ∧ ∀ id, successive last others (labels id) = successive last items id := by
  induction perm generalizing last with
  | nil => exact ⟨Equiv.refl _, fun _ moved => absurd rfl moved, fun _ => rfl⟩
  | @cons item items others perm ih =>
      obtain ⟨labels, within, same⟩ := ih (last + 1)
      have fixed : labels (last + 1) = last + 1 := by
        by_contra moved
        exact absurd (within _ moved).1 (Int.lt_irrefl _)
      refine ⟨labels, fun id moved => ?_, fun id => ?_⟩
      · have bounds := within id moved
        simp only [EntityId, List.length_cons] at *
        omega
      · rw [successive, successive, same]
        refine if_congr ?_ rfl rfl
        conv_lhs => rw [← fixed]
        exact labels.injective.eq_iff
  | swap first second rest =>
      refine ⟨Equiv.swap (last + 1) (last + 2), fun id moved => ?_,
        successive_swap first second rest⟩
      have either : id = last + 1 ∨ id = last + 2 := by
        by_contra neither
        obtain ⟨before, after⟩ := not_or.mp neither
        exact moved (Equiv.swap_apply_of_ne_of_ne before after)
      simp only [EntityId, List.length_cons] at *
      omega
  | @trans first middle second perm _ ih ih' =>
      obtain ⟨labels, within, same⟩ := ih last
      obtain ⟨further, beyond, again⟩ := ih' last
      refine ⟨labels.trans further, fun id moved => ?_, fun id => ?_⟩
      · by_cases kept : labels id = id
        · rw [perm.length_eq]
          refine beyond id fun still => moved ?_
          rw [Equiv.trans_apply, kept, still]
        · exact within id kept
      · exact (again (labels id)).trans (same id)

/-- What stands under an id when items are numbered after rows that are there. -/
theorem successive_or_cons {rest : List α} (id : EntityId) (row : α → β) (there : Option β)
    : ((successive last (item :: rest) id).map row).or there
        = ((successive (last + 1) rest id).map row).or
          (if id = last + 1 then some (row item) else there) := by
  rw [successive]
  split
  · next next =>
      rw [successive_eq_none (Int.le_of_eq next)]
      rfl
  · rfl

/-- Rows with further ones after them are found under their other ids if those alone are. -/
theorem successive_relabeled {labels : Equiv.Perm EntityId} {there : EntityId → Option β}
    {row : EntityId → α → β} {rename : β → β}
    (same : ∀ id, successive last others (labels id) = successive last items id)
    (renamed : ∀ id item, rename (row id item) = row (labels id) item)
    (relabeled : ∀ id, there (labels id) = (there id).map rename) (id : EntityId)
    : ((successive last others (labels id)).map (row (labels id))).or (there (labels id))
        = (((successive last items id).map (row id)).or (there id)).map rename := by
  rw [same]
  cases successive last items id with
  | some item => exact congrArg some (renamed id item).symm
  | none => exact relabeled id

end

-----------------------------------------------------------------------------------------
-- New types and new nodes
-----------------------------------------------------------------------------------------

/-- A type under an id. -/
def EntityType.under (id : EntityId) (type : EntityType) : EntityType := { type with id := some id }

/-- A node under an id. -/
def Node.under (id : EntityId) (node : Node) : Node := { node with id := some id }

namespace Database

variable {base db next first second : Database} {kind : Kind}

/-- Types of one kind are new, under the ids after the one given last. -/
structure AddsTypes (kind : Kind) (types : List EntityType) (before after : Database) : Prop where
  frame : after = { before with
    types := before.types.set kind (after.types.get kind), lastTypeId := after.lastTypeId }
  lastTypeId : after.lastTypeId = before.lastTypeId + types.length
  rows
    : ∀ id, after.typeById? kind id
      = ((successive before.lastTypeId types id).map (EntityType.under id)).or
        (before.typeById? kind id)

/-- Nodes of one kind are new, under the ids after the one given last. -/
structure AddsNodes (kind : Kind) (nodes : List Node) (before after : Database) : Prop where
  frame : after = { before with nodes := before.nodes.set kind (after.nodes.get kind) }
  lastId : (after.nodes.get kind).lastId = (before.nodes.get kind).lastId + nodes.length
  rows
    : ∀ id, after.nodeById? kind id
      = ((successive (before.nodes.get kind).lastId nodes id).map (Node.under id)).or
        (before.nodeById? kind id)

theorem AddsTypes.nil (db : Database) (kind : Kind)
    : db.AddsTypes kind [] db :=
  ⟨by rw [PerKind.set_get_self], (Int.add_zero _).symm, fun _ => rfl⟩

/-- A type that is added comes before those that follow it. -/
theorem AddsTypes.cons {type : EntityType} {rest : List EntityType}
    (adds : (db.addType kind type).2.AddsTypes kind rest next)
    : db.AddsTypes kind (type :: rest) next where
  frame := by
    conv_lhs => rw [adds.frame]
    simp only [addType, setType, PerKind.set_set]
  lastTypeId := by
    have added : (db.addType kind type).2.lastTypeId = db.lastTypeId + 1 := rfl
    rw [adds.lastTypeId, added, List.length_cons]
    simp only [EntityId]
    omega
  rows id := by
    rw [adds.rows, typeById?_addType, successive_or_cons]
    congr 1
    by_cases here : id = db.lastTypeId + 1
    · rw [if_pos ⟨rfl, here⟩, if_pos here, EntityType.under, here]
    · rw [if_neg fun both => here both.2, if_neg here]

theorem AddsNodes.nil (db : Database) (kind : Kind)
    : db.AddsNodes kind [] db :=
  ⟨by rw [PerKind.set_get_self], (Int.add_zero _).symm, fun _ => rfl⟩

/-- A node without an id that is put comes before those that follow it. -/
theorem AddsNodes.cons {node : Node} {rest : List Node} (unnumbered : node.id = none)
    (adds : AddsNodes kind rest
      { db with nodes := db.nodes.set kind ((db.nodes.get kind).put node).2 } next)
    : db.AddsNodes kind (node :: rest) next := by
  have key : ((db.nodes.get kind).put node).1 = (db.nodes.get kind).lastId + 1 := by
    rw [NodeTable.put_fst, unnumbered]
    rfl
  have last : ((db.nodes.get kind).put node).2.lastId = (db.nodes.get kind).lastId + 1 := by
    simp [NodeTable.put, unnumbered]
  refine ⟨?frame, ?lastId, fun id => ?rows⟩
  case frame =>
    conv_lhs => rw [adds.frame]
    simp only [PerKind.set_set]
  case lastId =>
    rw [adds.lastId, PerKind.get_set_self, last, List.length_cons]
    simp only [EntityId]
    omega
  case rows =>
    rw [adds.rows, PerKind.get_set_self, last, successive_or_cons]
    congr 1
    rw [nodeById?, PerKind.get_set_self, NodeTable.put_rows, key]
    by_cases here : id = (db.nodes.get kind).lastId + 1
    · rw [if_pos here, if_pos here, Node.under, here]
    · rw [if_neg here, if_neg here]
      rfl

/-- New types that come in another order are the same up to their ids. -/
theorem AddsTypes.sameUpTo {types others : List EntityType} (sound : base.Sound)
    (sooner : first.Sound) (later : second.Sound) (adds : base.AddsTypes kind types first)
    (again : base.AddsTypes kind others second) (perm : types.Perm others)
    : base.SameUpTo first second := by
  obtain ⟨ids, within, same⟩ := exists_relabeling perm base.lastTypeId
  have keeps : base.Keeps (.ofTypes ids) :=
    ⟨fun id moved => (within id moved).1, fun _ _ moved => absurd rfl moved⟩
  refine ⟨.ofTypes ids, sound.matches_of_rows sooner later (fun id moved => ?newTypes)
    (fun _ _ moved => absurd rfl moved) ?lastTypeId (fun other => ?lastIds)
    (fun other id => ?types) (fun other id => ?nodes) ?events (fun other => ?links)⟩
  case newTypes => exact adds.lastTypeId ▸ within id moved
  case lastTypeId => rw [again.lastTypeId, adds.lastTypeId, perm.length_eq]
  case lastIds => rw [again.frame, adds.frame]
  case types =>
    by_cases here : other = kind
    · subst here
      rw [again.rows, adds.rows]
      refine successive_relabeled same (fun _ _ => ?_) (keeps.typeById? sound other) id
      rfl
    · have kept {after : Database} {new : List EntityType} (adds : base.AddsTypes kind new after)
          (key : EntityId) : after.typeById? other key = base.typeById? other key := by
        rw [adds.frame]
        simp only [Database.typeById?, PerKind.get_set_of_ne _ _ here]
      rw [kept again, kept adds]
      exact keeps.typeById? sound other id
  case nodes =>
    rw [again.frame, adds.frame]
    exact keeps.nodeById? sound other id
  case events =>
    rw [again.frame, adds.frame]
    exact ⟨rfl, rfl⟩
  case links =>
    rw [again.frame, adds.frame]
    cases other <;> exact ⟨rfl, rfl⟩

/-- New nodes that come in another order are the same up to their ids. -/
theorem AddsNodes.sameUpTo {nodes others : List Node} (sound : base.Sound)
    (sooner : first.Sound) (later : second.Sound) (adds : base.AddsNodes kind nodes first)
    (again : base.AddsNodes kind others second) (perm : nodes.Perm others)
    : base.SameUpTo first second := by
  obtain ⟨ids, within, same⟩ := exists_relabeling perm (base.nodes.get kind).lastId
  have moves {other : Kind} {id : EntityId}
      (moved : (Relabeling.ofNodes kind ids).nodes other id ≠ id)
      : other = kind ∧ ids id ≠ id := by
    by_cases here : other = kind
    · subst here
      rw [Relabeling.ofNodes_self] at moved
      exact ⟨rfl, moved⟩
    · rw [Relabeling.ofNodes_of_ne here] at moved
      exact absurd rfl moved
  have keeps : base.Keeps (.ofNodes kind ids) := by
    refine ⟨fun _ moved => absurd rfl moved, fun other id moved => ?_⟩
    obtain ⟨rfl, shifted⟩ := moves moved
    exact (within id shifted).1
  have kept {other : Kind} (different : other ≠ kind) {after : Database} {new : List Node}
      (adds : base.AddsNodes kind new after)
      : after.nodes.get other = base.nodes.get other := by
    rw [adds.frame]
    exact PerKind.get_set_of_ne _ _ different
  refine ⟨.ofNodes kind ids, sound.matches_of_rows sooner later (fun _ moved => absurd rfl moved)
    (fun other id moved => ?newNodes) ?lastTypeId (fun other => ?lastIds)
    (fun other id => ?types) (fun other id => ?nodes) ?events (fun other => ?links)⟩
  case newNodes =>
    obtain ⟨rfl, shifted⟩ := moves moved
    rw [adds.lastId]
    exact within id shifted
  case lastTypeId => rw [again.frame, adds.frame]
  case lastIds =>
    by_cases equal : other = kind
    · subst equal
      rw [again.lastId, adds.lastId, perm.length_eq]
    · rw [kept equal again, kept equal adds]
  case types =>
    rw [again.frame, adds.frame]
    exact keeps.typeById? sound other id
  case nodes =>
    by_cases equal : other = kind
    · subst equal
      have found := keeps.nodeById? sound other
      rw [Relabeling.ofNodes_self] at found ⊢
      rw [again.rows, adds.rows]
      refine successive_relabeled same (fun _ _ => ?_) found id
      rw [Relabeling.node, Relabeling.ofNodes_self]
      rfl
    · simp only [Database.nodeById?, kept equal again, kept equal adds]
      exact keeps.nodeById? sound other id
  case events =>
    rw [again.frame, adds.frame]
    exact ⟨rfl, rfl⟩
  case links =>
    rw [again.frame, adds.frame]
    cases other <;> exact ⟨rfl, rfl⟩

end Database

end LineageLoad
