import LineageLoad.Proofs.Store.Batches
import LineageLoad.Proofs.Store.Failures
import LineageLoad.Proofs.Store.Rows
import LineageLoad.Proofs.Workload.Names
import LineageLoad.Seeding

/-!
The names of seeded rows. They are numbered from the count of rows, so they are free as long as all
numbers in use are below it. No row is ever removed, so this stays true under every call that does
not bring in a greater number.
-/

namespace LineageLoad

-----------------------------------------------------------------------------------------
-- Names
-----------------------------------------------------------------------------------------

namespace Kind

/-- The name of the seeded type with a number. -/
def typeSeed (kind : Kind) (number : Nat) : String :=
  numbered s!"pre_insert_{kind.typeLabel}-" number

/-- The name of the seeded node with a number. -/
def nodeSeed (kind : Kind) (number : Nat) : String :=
  numbered s!"pre_insert_{kind.label}-" number

/-- The seeded type with a number. -/
def seedType (kind : Kind) (number : Nat) : EntityType where
  id := none
  name := kind.typeSeed number
  properties := (∅ : PropertyMap PropertyType).insert "property" .string

/-- Types that workloads number have other names, which begin with another character. -/
theorem typeSeed_ne_numbered (kind : Kind) (number other : Nat)
    : kind.typeSeed number ≠ numbered "type_" other := by
  intro same
  have first := congrArg (·.toList.head?) same
  simp [typeSeed, numbered] at first
  rcases first with first | ⟨first, _⟩ <;> exact absurd first (by decide)

/-- Nodes that workloads number have other names, which begin with another character. -/
theorem nodeSeed_ne_numbered (kind : Kind) (number other : Nat)
    : kind.nodeSeed number ≠ numbered "node_" other := by
  intro same
  have first := congrArg (·.toList.head?) same
  simp [nodeSeed, numbered] at first
  rcases first with first | ⟨first, _⟩ <;> exact absurd first (by decide)

end Kind

-----------------------------------------------------------------------------------------
-- Counts of rows
-----------------------------------------------------------------------------------------

theorem Table.length_values {α : Type} (table : Table α)
    : table.values.length = table.size := by
  rw [values, List.length_map, Std.ExtTreeMap.length_toList]

/-- No row is removed when nodes are put, by induction on them. -/
theorem NodeTable.size_le_putAll (table : NodeTable) (nodes : List Node)
    : table.rows.size ≤ (table.putAll nodes).2.rows.size := by
  induction nodes generalizing table with
  | nil => exact Nat.le_refl _
  | cons node rest ih =>
      have put : table.rows.size ≤ (table.put node).2.rows.size :=
        Std.ExtTreeMap.size_le_size_insert
      exact Nat.le_trans put (ih _)

namespace Database

/-- No kind has fewer rows afterwards. -/
structure CountsLe (before after : Database) : Prop where
  types : ∀ kind, (before.typesOf kind).length ≤ (after.typesOf kind).length
  nodes : ∀ kind, (before.nodesOf kind).length ≤ (after.nodesOf kind).length

variable {db before middle after next limit larger : Database} {kind : Kind} {call : Call}

theorem CountsLe.refl (db : Database)
    : db.CountsLe db :=
  ⟨fun _ => Nat.le_refl _, fun _ => Nat.le_refl _⟩

theorem CountsLe.trans (sooner : before.CountsLe middle) (later : middle.CountsLe after)
    : before.CountsLe after :=
  ⟨fun kind => Nat.le_trans (sooner.types kind) (later.types kind),
    fun kind => Nat.le_trans (sooner.nodes kind) (later.nodes kind)⟩

theorem countsLe_setType (db : Database) (kind : Kind) (id : EntityId) (type : EntityType)
    : db.CountsLe (db.setType kind id type) where
  types other := by
    rw [typesOf, typesOf, Table.length_values, Table.length_values, setType]
    by_cases here : other = kind
    · subst here
      rw [PerKind.get_set_self]
      exact Std.ExtTreeMap.size_le_size_insert
    · rw [PerKind.get_set_of_ne _ _ here]
  nodes _ := Nat.le_refl _

theorem countsLe_putNodes {nodes : List Node} {ids : List EntityId}
    (stored : db.putNodes kind nodes = .ok (ids, next))
    : db.CountsLe next := by
  obtain ⟨_, _, _, rfl⟩ := putNodes_eq_ok_iff.mp stored
  refine ⟨fun _ => Nat.le_refl _, fun other => ?_⟩
  rw [nodesOf, nodesOf, Table.length_values, Table.length_values]
  by_cases here : other = kind
  · subst here
    rw [PerKind.get_set_self]
    exact NodeTable.size_le_putAll _ _
  · rw [PerKind.get_set_of_ne _ _ here]

/-- What a call does to rows: it stores a type, it stores nodes, or it leaves all types and nodes.
-/
inductive RowsServed (db : Database) : Call → Database → Prop
  | type {kind : Kind} {type : EntityType} {canAddFields : Bool} {id : EntityId} {next : Database}
    (stored : db.putType kind type canAddFields = .ok (id, next))
    : RowsServed db (.putType kind type canAddFields) next
  | nodes {kind : Kind} {nodes : List Node} {ids : List EntityId} {next : Database}
    (stored : db.putNodes kind nodes = .ok (ids, next))
    : RowsServed db (.putNodes kind nodes) next
  | none {call : Call} {next : Database} (types : next.types = db.types)
    (nodes : next.nodes = db.nodes)
    : RowsServed db call next

/-- A write does what it is accepted for, or nothing. -/
theorem rowsServed_commit {α : Type} {outcome : Except StoreError (α × Database)}
    (written : ∀ reply next, outcome = .ok (reply, next) → db.RowsServed call next)
    : db.RowsServed call (db.commit outcome).2 := by
  cases outcome with
  | error _ => exact .none rfl rfl
  | ok pair => exact written pair.1 pair.2 rfl

theorem rowsServed (db : Database) (call : Call)
    : db.RowsServed call (serve call db).2 := by
  cases call with
  | putType => exact rowsServed_commit fun _ _ stored => .type stored
  | putNodes => exact rowsServed_commit fun _ _ stored => .nodes stored
  | putEvents events =>
      refine rowsServed_commit fun _ next stored => ?_
      obtain ⟨_, stored, same⟩ := map_eq_ok_iff.mp stored
      obtain ⟨_, rfl⟩ := putEvents_eq_ok_iff.mp stored
      cases same
      exact .none rfl rfl
  | putLinks attributions associations =>
      refine rowsServed_commit fun _ next stored => ?_
      obtain ⟨_, stored, same⟩ := map_eq_ok_iff.mp stored
      obtain ⟨_, rfl⟩ := putLinks_eq_ok_iff.mp stored
      cases same
      exact .none rfl rfl
  | _ => exact .none rfl rfl

/-- No call removes a row. -/
theorem countsLe_serve (db : Database) (call : Call)
    : db.CountsLe (serve call db).2 := by
  have rows := db.rowsServed call
  generalize (serve call db).2 = next at rows ⊢
  cases rows with
  | @type kind type _ _ _ stored =>
      cases (putType_eq_ok stored).2 with
      | created =>
          have added := countsLe_setType db kind (db.lastTypeId + 1)
            { type with id := some (db.lastTypeId + 1) }
          exact ⟨added.types, added.nodes⟩
      | extended => exact countsLe_setType db kind _ _
  | nodes stored => exact countsLe_putNodes stored
  | none types nodes =>
      refine ⟨fun kind => ?_, fun kind => ?_⟩
      · rw [typesOf, typesOf, types]
      · rw [nodesOf, nodesOf, nodes]

-----------------------------------------------------------------------------------------
-- Numbers in use
-----------------------------------------------------------------------------------------

/-- The numbers of all names of seeded rows are below the counts of rows in (limit). -/
structure SeedsBelow (db limit : Database) : Prop where
  types
    : ∀ kind number, ∀ type ∈ db.typesOf kind, type.name = kind.typeSeed number →
        number < (limit.typesOf kind).length
  nodes
    : ∀ kind number, ∀ node ∈ db.nodesOf kind, node.name = some (kind.nodeSeed number) →
        number < (limit.nodesOf kind).length

end Database

/-- The numbers of names of seeded rows that a call hands in are below the counts in (limit). -/
def Call.SeedsBelow (limit : Database) : Call → Prop
  | putType kind type _ => ∀ number, type.name = kind.typeSeed number →
      number < (limit.typesOf kind).length
  | putNodes kind nodes => ∀ node ∈ nodes, ∀ number, node.name = some (kind.nodeSeed number) →
      number < (limit.nodesOf kind).length
  | _ => True

theorem Call.SeedsBelow.mono {limit larger : Database} {call : Call}
    (below : call.SeedsBelow limit) (counts : limit.CountsLe larger)
    : call.SeedsBelow larger := by
  cases call with
  | putType kind type canAddFields =>
      intro number named
      exact Nat.lt_of_lt_of_le (below number named) (counts.types kind)
  | putNodes kind nodes =>
      intro node member number named
      exact Nat.lt_of_lt_of_le (below node member number named) (counts.nodes kind)
  | _ => trivial

namespace Database

variable {db next limit larger : Database} {kind : Kind} {call : Call}

theorem SeedsBelow.mono (below : db.SeedsBelow limit) (counts : limit.CountsLe larger)
    : db.SeedsBelow larger where
  types kind number type member named :=
    Nat.lt_of_lt_of_le (below.types kind number type member named) (counts.types kind)
  nodes kind number node member named :=
    Nat.lt_of_lt_of_le (below.nodes kind number node member named) (counts.nodes kind)

/-- After a type was stored, the names of all types are those that were there or its own. -/
theorem TypeStored.typesOf_name {type : EntityType} {id : EntityId}
    (stored : db.TypeStored kind type id next) (sound : db.Sound) {other : Kind}
    {found : EntityType} (member : found ∈ next.typesOf other)
    : (∃ old ∈ db.typesOf other, old.name = found.name)
      ∨ other = kind ∧ found.name = type.name := by
  obtain ⟨key, there⟩ := mem_typesOf_iff.mp member
  rw [stored.rows sound] at there
  split at there
  · next here =>
      cases there
      exact .inr ⟨here.1, rfl⟩
  · exact .inl ⟨found, mem_typesOf_iff.mpr ⟨key, there⟩, rfl⟩

/-- After nodes were stored, the names of all nodes are those that were there or their own. -/
theorem Sound.nodesOf_name {nodes : List Node} {ids : List EntityId} (sound : db.Sound)
    (stored : db.putNodes kind nodes = .ok (ids, next)) {other : Kind} {found : Node}
    (member : found ∈ next.nodesOf other)
    : (∃ old ∈ db.nodesOf other, old.name = found.name)
      ∨ other = kind ∧ ∃ node ∈ nodes, node.name = found.name := by
  obtain ⟨key, there⟩ := mem_nodesOf_iff.mp member
  by_cases here : other = kind
  · subst here
    obtain ⟨rows, kept⟩ := sound.putNodes_rows stored
    by_cases written : key ∈ ids
    · have same : ids.length = nodes.length := by
        obtain ⟨_, _, listed, _⟩ := putNodes_eq_ok_iff.mp stored
        rw [listed, NodeTable.putAll_fst, NodeTable.length_idsAfter, List.length_map]
      rw [← List.map_snd_zip (Nat.le_of_eq same)] at written
      obtain ⟨entry, listed, rfl⟩ := List.mem_map.mp written
      obtain ⟨type, _, row⟩ := rows entry listed
      cases row.symm.trans there
      exact .inr ⟨rfl, entry.1, (List.of_mem_zip listed).1, rfl⟩
    · rw [kept key written] at there
      exact .inl ⟨found, mem_nodesOf_iff.mpr ⟨key, there⟩, rfl⟩
  · obtain ⟨_, _, _, rfl⟩ := putNodes_eq_ok_iff.mp stored
    rw [nodeById?, PerKind.get_set_of_ne _ _ here] at there
    exact .inl ⟨found, mem_nodesOf_iff.mpr ⟨key, there⟩, rfl⟩

/-- Names come in by calls only. -/
theorem SeedsBelow.serve (below : db.SeedsBelow limit) (sound : db.Sound)
    (handsIn : call.SeedsBelow limit)
    : (Database.serve call db).2.SeedsBelow limit := by
  have rows := db.rowsServed call
  generalize (Database.serve call db).2 = next at rows ⊢
  cases rows with
  | type stored =>
      have stored := (putType_eq_ok stored).2
      constructor
      · intro other number found member named
        rcases stored.typesOf_name sound member with ⟨old, listed, same⟩ | ⟨rfl, same⟩
        · exact below.types other number old listed (same.trans named)
        · exact handsIn number (same.symm.trans named)
      · intro other number found member named
        rw [stored.frame] at member
        exact below.nodes other number found member named
  | nodes stored =>
      constructor
      · intro other number found member named
        obtain ⟨_, _, _, rfl⟩ := putNodes_eq_ok_iff.mp stored
        exact below.types other number found member named
      · intro other number found member named
        rcases sound.nodesOf_name stored member with ⟨old, listed, same⟩ | ⟨rfl, node, listed, same⟩
        · exact below.nodes other number old listed (same.trans named)
        · exact handsIn node listed number (same.trans named)
  | none types nodes =>
      constructor
      · intro other number found member named
        rw [typesOf, types] at member
        exact below.types other number found member named
      · intro other number found member named
        rw [nodesOf, nodes] at member
        exact below.nodes other number found member named

/-- Contents in which seeded rows can be numbered from the counts of rows. -/
structure Seedable (db : Database) : Prop where
  sound : db.Sound
  below : db.SeedsBelow db

theorem empty_seedable
    : empty.Seedable where
  sound := empty_sound
  below := by
    refine ⟨fun kind number type member => ?_, fun kind number node member => ?_⟩
    · obtain ⟨id, found⟩ := mem_typesOf_iff.mp member
      simp [typeById?, empty] at found
    · obtain ⟨id, found⟩ := mem_nodesOf_iff.mp member
      simp [nodeById?, empty] at found

/-- Contents that follow on others: seeded rows can still be numbered, and no row was removed. -/
structure Continues (before after : Database) : Prop where
  seedable : after.Seedable
  counts : before.CountsLe after

theorem Seedable.continues (seedable : db.Seedable) (same : next = db)
    : db.Continues next := by
  subst same
  exact ⟨seedable, .refl next⟩

theorem Continues.trans {before middle after : Database} (sooner : before.Continues middle)
    (later : middle.Continues after)
    : before.Continues after :=
  ⟨later.seedable, sooner.counts.trans later.counts⟩

/-- A call goes on well if its numbers are below the counts of rows that it leaves. -/
theorem Seedable.serve (seedable : db.Seedable)
    (handsIn : call.SeedsBelow (Database.serve call db).2)
    : db.Continues (Database.serve call db).2 :=
  have counts := countsLe_serve db call
  have below := (seedable.below.mono counts).serve seedable.sound handsIn
  ⟨⟨seedable.sound.serve call, below⟩, counts⟩

-----------------------------------------------------------------------------------------
-- Seeded rows
-----------------------------------------------------------------------------------------

/-- The next seeded type is new, and there is one more type then. -/
theorem Seedable.serve_seedType (seedable : db.Seedable) (kind : Kind)
    : let type := kind.seedType (db.typesOf kind).length
      let next := (db.addType kind type).2
      Database.serve (.putType kind type false) db = (.ok (db.addType kind type).1, next)
        ∧ (next.typesOf kind).length = (db.typesOf kind).length + 1
        ∧ db.Continues next := by
  intro type next
  have absent : db.typeEntry? kind type.name = none := by
    refine typeEntry?_eq_none fun id stored found named => ?_
    have below := seedable.below.types kind _ stored (mem_typesOf_iff.mpr ⟨id, found⟩) named
    exact absurd below (Nat.lt_irrefl _)
  have titled : type.name ≠ "" := numbered_ne_empty (by cases kind <;> decide)
  have served : Database.serve (.putType kind type false) db
      = (.ok (db.addType kind type).1, next) :=
    congrArg db.commit (putType_new titled absent rfl)
  have adds : db.AddsTypes kind [type] next := .cons (.nil next kind)
  have length : (next.typesOf kind).length = (db.typesOf kind).length + 1 := by
    rw [adds.typesOf seedable.sound, List.length_append, List.length_map, length_enumerated]
    rfl
  have kept : db.Continues (Database.serve (.putType kind type false) db).2 := by
    refine seedable.serve ?_
    rw [served]
    intro number named
    obtain rfl := numbered_injective named
    exact length ▸ Nat.lt_succ_self _
  rw [served] at kept
  exact ⟨served, length, kept⟩

/-- Nodes without ids that are put are new, by induction on them. -/
theorem AddsNodes.putAll {nodes : List Node} (unnumbered : ∀ node ∈ nodes, node.id = none)
    (db : Database) (kind : Kind)
    : db.AddsNodes kind nodes
        { db with nodes := db.nodes.set kind ((db.nodes.get kind).putAll nodes).2 } := by
  induction nodes generalizing db with
  | nil =>
      rw [NodeTable.putAll, PerKind.set_get_self]
      exact .nil db kind
  | cons node rest ih =>
      obtain ⟨first, others⟩ := List.forall_mem_cons.mp unnumbered
      have adds := ih others
        { db with nodes := db.nodes.set kind ((db.nodes.get kind).put node).2 }
      rw [PerKind.get_set_self, PerKind.set_set] at adds
      exact .cons first adds

theorem propertyType_seedValue (number : Nat) (declared : PropertyType)
    : (Store.seedValue number declared).propertyType = declared := by
  cases declared <;> rfl

/-- A seeded node has all the properties that its type declares. -/
theorem admits_seedNode (kind : Kind) (typeId : EntityId) (type : EntityType) (number : Nat)
    : type.Admits (Store.seedNode kind typeId type number) := by
  intro name value held
  rw [Store.seedNode, Std.ExtTreeMap.getElem?_map] at held
  obtain ⟨declared, found, rfl⟩ := Option.map_eq_some_iff.mp held
  rw [propertyType_seedValue, found]

/-- Nodes without ids are new if they are accepted. -/
theorem AddsNodes.of_putNodes {nodes : List Node} {ids : List EntityId}
    (stored : db.putNodes kind nodes = .ok (ids, next))
    (unnumbered : ∀ node ∈ nodes, node.id = none)
    : db.AddsNodes kind (nodes.map (db.withTypeName kind)) next := by
  obtain ⟨_, _, _, rfl⟩ := putNodes_eq_ok_iff.mp stored
  refine .putAll (fun node member => ?_) db kind
  obtain ⟨given, listed, rfl⟩ := List.mem_map.mp member
  exact unnumbered given listed

/-- The next seeded nodes of a stored type are new, and there are as many more nodes then. -/
theorem Seedable.serve_seedNodes (seedable : db.Seedable) {typeId : EntityId} {type : EntityType}
    (typed : db.typeById? kind typeId = some type) (count : Nat)
    : let numbers := List.range' (db.nodesOf kind).length count
      let nodes := numbers.map (Store.seedNode kind typeId type)
      ∃ ids next, Database.serve (.putNodes kind nodes) db = (.ok ids, next)
        ∧ db.AddsNodes kind (nodes.map (db.withTypeName kind)) next
        ∧ db.Continues next := by
  intro numbers nodes
  have accepts : ∀ node ∈ nodes, ∃ type, db.Accepts kind type node := by
    intro node member
    obtain ⟨number, within, rfl⟩ := List.mem_map.mp member
    refine seedable.sound.accepts_iff.mpr
      ⟨⟨type, typed, admits_seedNode kind typeId type number⟩, nofun, fun _ => nofun, ?_⟩
    rintro _ ⟨⟩ id other found _ named
    have below := seedable.below.nodes kind number other (mem_nodesOf_iff.mpr ⟨id, found⟩) named
    exact absurd (List.mem_range'_1.mp within).1 (Nat.not_le.mpr below)
  have apart : nodes.Pairwise Apart := by
    refine List.pairwise_map.mpr ((List.pairwise_lt_range' 1).imp fun {first second} before => ?_)
    refine ⟨?_, nofun⟩
    rintro _ ⟨⟩ same
    exact absurd (numbered_injective (Option.some.inj same)) (Nat.ne_of_gt before)
  obtain ⟨ids, next, stored⟩ : ∃ ids next, db.putNodes kind nodes = .ok (ids, next) :=
    ⟨_, _, putNodes_eq_ok_iff.mpr ⟨accepts, apart, rfl, rfl⟩⟩
  have served : Database.serve (.putNodes kind nodes) db = (.ok ids, next) :=
    congrArg db.commit stored
  have adds : db.AddsNodes kind (nodes.map (db.withTypeName kind)) next :=
    .of_putNodes stored fun node member => by
      obtain ⟨number, _, rfl⟩ := List.mem_map.mp member
      rfl
  have kept : db.Continues (Database.serve (.putNodes kind nodes) db).2 := by
    refine seedable.serve ?_
    rw [served]
    intro node member number named
    obtain ⟨other, within, rfl⟩ := List.mem_map.mp member
    obtain rfl := numbered_injective (Option.some.inj named)
    rw [adds.nodesOf seedable.sound, List.length_append, List.length_map, length_enumerated,
      List.length_map, List.length_map, List.length_range']
    exact (List.mem_range'_1.mp within).2
  rw [served] at kept
  exact ⟨ids, next, served, adds, kept⟩

end Database

end LineageLoad
