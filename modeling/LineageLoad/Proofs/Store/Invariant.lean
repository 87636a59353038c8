import LineageLoad.Proofs.Store.Acceptance
import Mathlib.Logic.Basic

/-!
What holds of every store that calls have led to: rows stand under their own ids and refer to rows
that exist, and the index of names mirrors the nodes. The invariant is kept by each single put into
a table, hence by a batch, hence by every call, whether it is accepted or refused.
-/

namespace LineageLoad

-----------------------------------------------------------------------------------------
-- One table of nodes
-----------------------------------------------------------------------------------------

/-- A node conforms to the types of its kind: it has the name of a stored type that admits it, and
contexts have names of their own.
-/
structure Node.Conforms (types : EntityId → Option EntityType) (kind : Kind) (node : Node)
    : Prop where
  typed
    : ∃ type, types node.typeId = some type ∧ node.typeName = type.name ∧ type.Admits node
  named : kind = .context → node.name ≠ none

namespace NodeTable

variable {types : EntityId → Option EntityType} {kind : Kind} {table : NodeTable}
  {node other : Node}

/-- The table is sound: its rows stand under their own ids, none above the id given last, and
conform to the types; the index holds exactly the names of the rows.
-/
structure Sound (types : EntityId → Option EntityType) (kind : Kind) (table : NodeTable)
    : Prop where
  numbered : ∀ (id : EntityId) node, table.rows[id]? = some node → node.id = some id
  bounded : ∀ (id : EntityId) node, table.rows[id]? = some node → id ≤ table.lastId
  conforming : ∀ (id : EntityId) node, table.rows[id]? = some node → node.Conforms types kind
  indexed
    : ∀ (typeId : EntityId) (name : String) id,
        table.names[(typeId, name)]? = some id
          ↔ ∃ node, table.rows[id]? = some node ∧ node.typeId = typeId ∧ node.name = some name

/-- A node can be put into the table: it conforms, an id belongs to a row of its type, and no row
of the type but its own holds the name.
-/
structure Ready (types : EntityId → Option EntityType) (kind : Kind) (table : NodeTable)
    (node : Node) : Prop where
  conforming : node.Conforms types kind
  stored
    : ∀ id, node.id = some id → ∃ old, table.rows[id]? = some old ∧ old.typeId = node.typeId
  free
    : ∀ (name : String) owner, node.name = some name
      → table.names[(node.typeId, name)]? = some owner → node.id = some owner

theorem put_fst : (table.put node).1 = node.id.getD (table.lastId + 1) := rfl

theorem put_rows (id : EntityId)
    : (table.put node).2.rows[id]?
      = if id = (table.put node).1 then some { node with id := some (table.put node).1 }
        else table.rows[id]? := by
  change (table.rows.insert (table.put node).1 _)[id]? = _
  simp only [Std.ExtTreeMap.getElem?_insert, Std.LawfulEqCmp.compare_eq_iff_eq]
  exact if_congr eq_comm rfl rfl

/-- The index without the name of the row that a node replaces. -/
def released (table : NodeTable) (node : Node)
    : Std.ExtTreeMap (EntityId × String) EntityId pairOrder :=
  ((table.rows[(table.put node).1]?).bind (·.name)).elim table.names fun old =>
    table.names.erase (node.typeId, old)

/-- The index loses the name of the row that a node replaces. -/
theorem getElem?_released (typeId : EntityId) (name : String)
    : (table.released node)[(typeId, name)]?
      = if typeId = node.typeId
            ∧ (table.rows[(table.put node).1]?).bind (·.name) = some name then none
        else table.names[(typeId, name)]? := by
  unfold released
  cases (table.rows[(table.put node).1]?).bind (·.name) with
  | none => simp
  | some old =>
      simp only [Option.elim_some, Std.ExtTreeMap.getElem?_erase, Std.LawfulEqCmp.compare_eq_iff_eq,
        Prod.mk.injEq, Option.some.injEq]
      exact if_congr (and_congr_left' eq_comm) rfl rfl

/-- The index gains the name of the node that is put and loses the one of the row it replaces. -/
theorem put_names (typeId : EntityId) (name : String)
    : (table.put node).2.names[(typeId, name)]?
      = if typeId = node.typeId ∧ node.name = some name then some (table.put node).1
        else if typeId = node.typeId
            ∧ (table.rows[(table.put node).1]?).bind (·.name) = some name then none
        else table.names[(typeId, name)]? := by
  rw [← getElem?_released]
  have index : (table.put node).2.names
      = node.name.elim (table.released node) fun new =>
          (table.released node).insert (node.typeId, new) (table.put node).1 := by
    unfold released put
    dsimp only
    cases node.name with
    | none => cases (table.rows[node.id.getD (table.lastId + 1)]?).bind (·.name) <;> rfl
    | some new => cases (table.rows[node.id.getD (table.lastId + 1)]?).bind (·.name) <;> rfl
  rw [index]
  cases node.name with
  | none => simp
  | some new =>
      simp only [Option.elim_some, Std.ExtTreeMap.getElem?_insert,
        Std.LawfulEqCmp.compare_eq_iff_eq, Prod.mk.injEq, Option.some.injEq]
      exact if_congr (and_congr_left' eq_comm) rfl rfl

/-- The id under which a node is put is its own, or it is free. -/
theorem Sound.id_or_free (sound : table.Sound types kind) (node : Node)
    : node.id = some (table.put node).1
      ∨ node.id = none ∧ table.rows[(table.put node).1]? = none := by
  rw [put_fst]
  cases given : node.id with
  | some id => exact Or.inl rfl
  | none =>
      refine Or.inr ⟨rfl, ?_⟩
      cases found : table.rows[(none : Option EntityId).getD (table.lastId + 1)]? with
      | none => rfl
      | some old =>
          have bound := sound.bounded _ old found
          simp only [Option.getD_none, EntityId] at bound
          omega

theorem Ready.replaced_typeId (ready : table.Ready types kind node)
    (sound : table.Sound types kind) {old : Node}
    (found : table.rows[(table.put node).1]? = some old)
    : old.typeId = node.typeId := by
  rcases sound.id_or_free node with own | ⟨_, free⟩
  · obtain ⟨row, foundRow, same⟩ := ready.stored _ own
    rw [found] at foundRow
    exact Option.some.inj foundRow ▸ same
  · rw [found] at free
    cases free

/-- The index after a put names the rows after it. Witness: the name that is added is the one of
the new row; one that is taken away belonged to the row that is replaced; any other name stays
with its row, which is not the replaced one.
-/
theorem Sound.put_indexed (sound : table.Sound types kind) (ready : table.Ready types kind node)
    (typeId : EntityId) (name : String) (id : EntityId)
    : (table.put node).2.names[(typeId, name)]? = some id
      ↔ ∃ row, (table.put node).2.rows[id]? = some row
          ∧ row.typeId = typeId ∧ row.name = some name := by
  rw [put_names, put_rows]
  by_cases added : typeId = node.typeId ∧ node.name = some name
  · obtain ⟨rfl, named⟩ := added
    rw [if_pos ⟨rfl, named⟩, Option.some.injEq]
    by_cases here : id = (table.put node).1
    · rw [if_pos here]
      exact ⟨fun _ => ⟨_, rfl, rfl, named⟩, fun _ => here.symm⟩
    -- Another row with the new name would own it, so the node would be put under its id.
    · rw [if_neg here]
      refine ⟨fun equal => absurd equal.symm here, fun row => ?_⟩
      have owned := ready.free name id named ((sound.indexed _ _ _).mpr row)
      rw [put_fst, owned] at here
      exact absurd rfl here
  · rw [if_neg added]
    by_cases here : id = (table.put node).1
    · subst id
      rw [if_pos rfl]
      constructor
      · split
        · rintro ⟨⟩
        · rename_i kept
          intro held
          obtain ⟨row, found, same, named⟩ := (sound.indexed _ _ _).mp held
          refine absurd ⟨?_, by simp [found, named]⟩ kept
          exact same.symm.trans (ready.replaced_typeId sound found)
      · rintro ⟨row, equal, same, named⟩
        cases equal
        exact absurd ⟨same.symm, named⟩ added
    · rw [if_neg here, ← sound.indexed]
      split
      · rename_i released
        obtain ⟨rfl, previous⟩ := released
        obtain ⟨old, found, named⟩ := Option.bind_eq_some_iff.mp previous
        have owner := (sound.indexed node.typeId name _).mpr
          ⟨old, found, ready.replaced_typeId sound found, named⟩
        rw [owner, Option.some.injEq]
        exact ⟨fun impossible => (by cases impossible), fun equal => absurd equal.symm here⟩
      · rfl

theorem Sound.put (sound : table.Sound types kind) (ready : table.Ready types kind node)
    : (table.put node).2.Sound types kind := by
  have grows : table.lastId ≤ (table.put node).2.lastId := by
    change table.lastId ≤ if node.id.isSome then table.lastId else node.id.getD (table.lastId + 1)
    cases node.id with
    | none => exact Int.le_add_one (Int.le_refl _)
    | some _ => exact Int.le_refl _
  -- An id that comes with the node is one of a stored row; one that is made is the next one.
  have within : (table.put node).1 ≤ (table.put node).2.lastId := by
    rcases sound.id_or_free node with own | ⟨free, _⟩
    · obtain ⟨old, found, _⟩ := ready.stored _ own
      exact Int.le_trans (sound.bounded _ old found) grows
    · change node.id.getD (table.lastId + 1)
        ≤ if node.id.isSome then table.lastId else node.id.getD (table.lastId + 1)
      simp [free]
  refine ⟨?_, ?_, ?_, sound.put_indexed ready⟩
  · intro id row found
    rw [put_rows] at found
    split at found
    · cases found
      simp [*]
    · exact sound.numbered id row found
  · intro id row found
    rw [put_rows] at found
    split at found
    · rename_i here
      exact here ▸ within
    · exact Int.le_trans (sound.bounded id row found) grows
  · intro id row found
    rw [put_rows] at found
    split at found
    · cases found
      exact ⟨ready.conforming.typed, ready.conforming.named⟩
    · exact sound.conforming id row found

/-- A node that stands apart from the one that is put stays ready. Witness: the row it replaces,
if any, is another one, and the only name that is added is not its own.
-/
theorem Ready.put (later : table.Ready types kind other) (apart : Database.Apart node other)
    (sound : table.Sound types kind)
    : (table.put node).2.Ready types kind other := by
  refine ⟨later.conforming, ?_, ?_⟩
  · intro id numbered
    obtain ⟨old, found, same⟩ := later.stored id numbered
    refine ⟨old, ?_, same⟩
    rw [put_rows, if_neg ?_]
    · exact found
    · rintro rfl
      rcases sound.id_or_free node with own | ⟨_, free⟩
      · exact apart.ids _ own numbered
      · rw [free] at found
        cases found
  · intro name owner named held
    rw [put_names] at held
    split at held
    · rename_i added
      exact absurd added.1.symm (apart.names name added.2 named)
    · split at held
      · cases held
      · exact later.free name owner named held

/-- Putting a batch of ready nodes that stand apart keeps a table sound, by induction on the
batch.
-/
theorem Sound.putAll {nodes : List Node} (sound : table.Sound types kind)
    (ready : ∀ node ∈ nodes, table.Ready types kind node) (apart : nodes.Pairwise Database.Apart)
    : (table.putAll nodes).2.Sound types kind := by
  induction nodes generalizing table with
  | nil => exact sound
  | cons node rest ih =>
      obtain ⟨separate, apart⟩ := List.pairwise_cons.mp apart
      have first := ready node List.mem_cons_self
      refine ih (sound.put first) (fun other member => ?_) apart
      exact (ready other (List.mem_cons_of_mem _ member)).put (separate other member) sound

/-- A row stays under its id, with its type, when any nodes are put. -/
theorem putAll_keeps {nodes : List Node} {id : EntityId} (present : id ∈ table.rows)
    : id ∈ (table.putAll nodes).2.rows := by
  induction nodes generalizing table with
  | nil => exact present
  | cons node rest ih =>
      refine ih ?_
      change id ∈ table.rows.insert _ _
      exact Std.ExtTreeMap.mem_insert.mpr (Or.inr present)

/-- A table stays sound when its types are extended: names and admitted nodes remain. -/
theorem Sound.mono {extended : EntityId → Option EntityType} (sound : table.Sound types kind)
    (versions
      : ∀ id type, types id = some type
        → ∃ version, extended id = some version ∧ version.name = type.name
            ∧ version.Covers type)
    : table.Sound extended kind := by
  refine ⟨sound.numbered, sound.bounded, fun id node found => ?_, sound.indexed⟩
  obtain ⟨⟨type, stored, titled, admits⟩, named⟩ := sound.conforming id node found
  obtain ⟨version, replaced, same, covers⟩ := versions node.typeId type stored
  exact ⟨⟨version, replaced, titled.trans same.symm, covers.admits admits⟩, named⟩

end NodeTable

-----------------------------------------------------------------------------------------
-- All contents
-----------------------------------------------------------------------------------------

namespace Database

variable {db next : Database} {kind : Kind}

/-- The types are sound: each stands under its own id and has a name, no two of one kind share a
name, and the kinds do not share ids.
-/
structure TypesSound (db : Database) : Prop where
  numbered : ∀ kind id type, db.typeById? kind id = some type → type.id = some id
  titled : ∀ kind id type, db.typeById? kind id = some type → type.name ≠ ""
  bounded : ∀ kind id type, db.typeById? kind id = some type → id ≤ db.lastTypeId
  names
    : ∀ kind id other type twin,
        db.typeById? kind id = some type → db.typeById? kind other = some twin
        → type.name = twin.name → id = other
  kinds
    : ∀ kind other id type twin,
        db.typeById? kind id = some type → db.typeById? other id = some twin → kind = other

/-- What holds of the contents after any calls: types and nodes are sound, and both ends of every
event and link are stored.
-/
structure Sound (db : Database) : Prop where
  types : db.TypesSound
  nodes : ∀ kind, (db.nodes.get kind).Sound (db.typeById? kind) kind
  events : ∀ event ∈ db.events, db.Joins event
  attributions : ∀ pair ∈ db.attributions, db.Links .artifact ⟨pair.2, pair.1⟩
  associations : ∀ pair ∈ db.associations, db.Links .execution ⟨pair.2, pair.1⟩

/-- Both ends of a link are stored, by cases on the kind of node that it joins. -/
theorem Sound.linksOf (sound : db.Sound) {kind : Kind}
    : ∀ pair ∈ db.linksOf kind, db.Links kind ⟨pair.2, pair.1⟩ := by
  cases kind with
  | artifact => exact sound.attributions
  | execution => exact sound.associations
  | context => exact fun _ member => absurd member Std.ExtTreeSet.not_mem_empty

theorem empty_sound
    : empty.Sound := by
  have noType (kind : Kind) (id : EntityId) : empty.typeById? kind id = none := by
    simp [typeById?, empty]
  have noRow (kind : Kind) (id : EntityId) : (empty.nodes.get kind).rows[id]? = none := by
    simp [empty]
  refine ⟨⟨?_, ?_, ?_, ?_, ?_⟩, fun kind => ⟨?_, ?_, ?_, ?_⟩, ?_, ?_, ?_⟩
  · intro kind id type found
    simp [noType] at found
  · intro kind id type found
    simp [noType] at found
  · intro kind id type found
    simp [noType] at found
  · intro kind id other type twin found
    simp [noType] at found
  · intro kind other id type twin found
    simp [noType] at found
  · intro id node found
    simp [noRow] at found
  · intro id node found
    simp [noRow] at found
  · intro id node found
    simp [noRow] at found
  · intro typeId name id
    simp [empty]
  · intro event member
    simp [empty] at member
  · intro pair member
    simp [empty] at member
  · intro pair member
    simp [empty] at member

theorem typeById?_setType {id : EntityId} {type : EntityType} (other : Kind) (key : EntityId)
    : (db.setType kind id type).typeById? other key
      = if other = kind ∧ key = id then some type else db.typeById? other key := by
  by_cases same : other = kind
  · subst other
    simp only [typeById?, setType, PerKind.get_set_self, Std.ExtTreeMap.getElem?_insert,
      Std.LawfulEqCmp.compare_eq_iff_eq, true_and]
    exact if_congr eq_comm rfl rfl
  · simp [typeById?, setType, PerKind.get_set_of_ne _ _ same, same]

/-- A type that is added stands under the next id of the sequence. -/
theorem typeById?_addType {type : EntityType} (other : Kind) (key : EntityId)
    : (db.addType kind type).2.typeById? other key
      = if other = kind ∧ key = db.lastTypeId + 1
        then some { type with id := some (db.lastTypeId + 1) } else db.typeById? other key :=
  typeById?_setType other key

theorem hasNode_congr (same : next.nodes = db.nodes) (kind : Kind) (id : EntityId)
    : next.hasNode kind id = db.hasNode kind id := by
  rw [hasNode, hasNode, nodeById?, nodeById?, same]

/-- Contents stay sound when types change to sound ones that extend the ones before and nothing
else does.
-/
theorem Sound.withTypes (sound : db.Sound) (types : next.TypesSound)
    (versions
      : ∀ kind id type, db.typeById? kind id = some type
        → ∃ version, next.typeById? kind id = some version ∧ version.name = type.name
            ∧ version.Covers type)
    (nodes : next.nodes = db.nodes) (events : next.events = db.events)
    (attributions : next.attributions = db.attributions)
    (associations : next.associations = db.associations)
    : next.Sound := by
  refine ⟨types, fun kind => ?_, ?_, ?_, ?_⟩
  · rw [nodes]
    exact (sound.nodes kind).mono (versions kind)
  · rw [events]
    simpa only [Joins, hasNode_congr nodes] using sound.events
  · rw [attributions]
    simpa only [Links, hasNode_congr nodes] using sound.attributions
  · rw [associations]
    simpa only [Links, hasNode_congr nodes] using sound.associations

/-- A new type keeps the types sound: its id is above all others, and its name is new. -/
theorem TypesSound.addType {type : EntityType} (sound : db.TypesSound) (named : type.name ≠ "")
    (absent : db.typeEntry? kind type.name = none)
    : (db.addType kind type).2.TypesSound := by
  -- The new id is above those of all types, of every kind.
  have above {kind id type} (found : db.typeById? kind id = some type)
      : id ≠ db.lastTypeId + 1 := by
    have bound := sound.bounded kind id type found
    simp only [EntityId] at *
    omega
  refine ⟨?_, ?_, ?_, ?_, ?_⟩
  · intro other id row found
    rw [typeById?_addType] at found
    split at found
    · cases found
      simp [*]
    · exact sound.numbered other id row found
  · intro other id row found
    rw [typeById?_addType] at found
    split at found
    · cases found
      exact named
    · exact sound.titled other id row found
  · intro other id row found
    change id ≤ db.lastTypeId + 1
    rw [typeById?_addType] at found
    split at found
    · simp [*]
    · exact Int.le_add_one (sound.bounded other id row found)
  · intro other id key row twin found foundTwin same
    rw [typeById?_addType] at found foundTwin
    split at found <;> split at foundTwin
    · simp [*]
    · cases found
      rename_i here _
      obtain ⟨rfl, _⟩ := here
      exact absurd same.symm (name_ne_of_typeEntry?_eq_none absent foundTwin)
    · cases foundTwin
      rename_i _ here
      obtain ⟨rfl, _⟩ := here
      exact absurd same (name_ne_of_typeEntry?_eq_none absent found)
    · exact sound.names other id key row twin found foundTwin same
  · intro first second id row twin found foundTwin
    rw [typeById?_addType] at found foundTwin
    split at found <;> split at foundTwin
    · simp [*]
    · rename_i here _
      exact absurd here.2 (above foundTwin)
    · rename_i _ here
      exact absurd here.2 (above found)
    · exact sound.kinds first second id row twin found foundTwin

/-- Replacing a type by a version with its id and name keeps the types sound. -/
theorem TypesSound.setType {id : EntityId} {stored version : EntityType}
    (sound : db.TypesSound) (found : db.typeById? kind id = some stored)
    (sameId : version.id = stored.id) (sameName : version.name = stored.name)
    : (db.setType kind id version).TypesSound := by
  -- Every type after the replacement has the id and the name of the one that was there.
  have origin {other key row} (after : (db.setType kind id version).typeById? other key = some row)
      : ∃ old, db.typeById? other key = some old ∧ row.id = old.id ∧ row.name = old.name := by
    rw [typeById?_setType] at after
    split at after
    · rename_i here
      obtain ⟨rfl, rfl⟩ := here
      cases after
      exact ⟨stored, found, sameId, sameName⟩
    · exact ⟨row, after, rfl, rfl⟩
  refine ⟨?_, ?_, ?_, ?_, ?_⟩
  · intro other key row after
    obtain ⟨old, before, numbered, _⟩ := origin after
    exact numbered.trans (sound.numbered other key old before)
  · intro other key row after
    obtain ⟨old, before, _, titled⟩ := origin after
    exact titled ▸ sound.titled other key old before
  · intro other key row after
    obtain ⟨old, before, _, _⟩ := origin after
    exact sound.bounded other key old before
  · intro other first second row twin after afterTwin same
    obtain ⟨old, before, _, titled⟩ := origin after
    obtain ⟨oldTwin, beforeTwin, _, titledTwin⟩ := origin afterTwin
    exact sound.names other first second old oldTwin before beforeTwin
      (titled.symm.trans (same.trans titledTwin))
  · intro first second key row twin after afterTwin
    obtain ⟨old, before, _, _⟩ := origin after
    obtain ⟨oldTwin, beforeTwin, _, _⟩ := origin afterTwin
    exact sound.kinds first second key old oldTwin before beforeTwin

/-- An accepted type keeps the contents sound, whether it is new or a version. -/
theorem Sound.typeStored {type : EntityType} {id : EntityId} (sound : db.Sound)
    (named : type.name ≠ "") (stored : db.TypeStored kind type id next)
    : next.Sound := by
  cases stored with
  | created absent unnumbered =>
      refine sound.withTypes (sound.types.addType named absent) ?_ rfl rfl rfl rfl
      intro other key old found
      refine ⟨old, ?_, rfl, fun _ _ same => same⟩
      refine (typeById?_setType other key).trans ((if_neg ?_).trans found)
      rintro ⟨rfl, rfl⟩
      have bound := sound.types.bounded _ _ old found
      simp only [EntityId] at *
      omega
  | @extended _ stored found _ covers =>
      obtain ⟨found, _⟩ := typeById?_of_entry found
      refine sound.withTypes (sound.types.setType found rfl rfl) ?_ rfl rfl rfl rfl
      intro other key old before
      rw [typeById?_setType]
      split
      · rename_i here
        obtain ⟨rfl, rfl⟩ := here
        cases found.symm.trans before
        exact ⟨_, rfl, rfl, covers.union⟩
      · exact ⟨old, before, rfl, fun _ _ same => same⟩

theorem Accepts.ready {type : EntityType} {node : Node} (accepted : db.Accepts kind type node)
    : (db.nodes.get kind).Ready (db.typeById? kind) kind (db.withTypeName kind node) := by
  refine ⟨⟨⟨type, accepted.typed, ?_, accepted.admitted⟩, accepted.named⟩, accepted.stored,
    accepted.free⟩
  simp [withTypeName, accepted.typed]

/-- The nodes of an accepted batch are ready for their table. -/
theorem ready_withTypeName {nodes : List Node}
    (accepts : ∀ node ∈ nodes, ∃ type, db.Accepts kind type node)
    : ∀ node ∈ nodes.map (db.withTypeName kind),
        (db.nodes.get kind).Ready (db.typeById? kind) kind node := by
  intro node member
  obtain ⟨given, listed, rfl⟩ := List.mem_map.mp member
  obtain ⟨type, accepted⟩ := accepts given listed
  exact accepted.ready

theorem apart_withTypeName {nodes : List Node} (apart : nodes.Pairwise Apart)
    : (nodes.map (db.withTypeName kind)).Pairwise Apart :=
  List.pairwise_map.mpr (apart.imp fun separate => ⟨separate.names, separate.ids⟩)

/-- Stored nodes remain when nodes are put into a table. -/
theorem hasNode_putAll (next : Database) {nodes : List Node}
    (same : next.nodes = db.nodes.set kind ((db.nodes.get kind).putAll nodes).2)
    {other : Kind} {id : EntityId} (stored : db.hasNode other id = true)
    : next.hasNode other id = true := by
  have row (db : Database) : db.hasNode other id = true ↔ id ∈ (db.nodes.get other).rows :=
    Std.ExtTreeMap.mem_iff_isSome_getElem?.symm
  rw [row] at stored ⊢
  rw [same]
  by_cases here : other = kind
  · subst other
    rw [PerKind.get_set_self]
    exact NodeTable.putAll_keeps stored
  · rwa [PerKind.get_set_of_ne _ _ here]

/-- Contents stay sound when a batch of nodes is stored. Witness: the batch is ready for its
table, the other tables stay, and so do the ends of events and links.
-/
theorem Sound.putNodes {nodes : List Node} {ids : List EntityId} (sound : db.Sound)
    (stored : db.putNodes kind nodes = .ok (ids, next))
    : next.Sound := by
  obtain ⟨accepts, apart, _, rfl⟩ := putNodes_eq_ok_iff.mp stored
  -- Nodes are replaced but never removed, so the ends of events and links remain.
  have remains {other : Kind} {id : EntityId} (before : db.hasNode other id = true) :=
    hasNode_putAll { db with
      nodes := db.nodes.set kind
        ((db.nodes.get kind).putAll (nodes.map (db.withTypeName kind))).2 } rfl before
  refine ⟨⟨sound.types.numbered, sound.types.titled, sound.types.bounded, sound.types.names,
    sound.types.kinds⟩, fun other => ?_, fun event member => ?_, fun pair member => ?_,
    fun pair member => ?_⟩
  · by_cases here : other = kind
    · subst other
      simp only [PerKind.get_set_self]
      exact (sound.nodes kind).putAll (ready_withTypeName accepts) (apart_withTypeName apart)
    · simp only [PerKind.get_set_of_ne _ _ here]
      exact sound.nodes other
  · exact (sound.events event member).imp remains remains
  · exact (sound.attributions pair member).imp remains remains
  · exact (sound.associations pair member).imp remains remains

theorem Sound.putEvents {events : List Event} (sound : db.Sound)
    (stored : db.putEvents events = .ok next)
    : next.Sound := by
  obtain ⟨joins, rfl⟩ := putEvents_eq_ok_iff.mp stored
  refine ⟨⟨sound.types.numbered, sound.types.titled, sound.types.bounded, sound.types.names,
    sound.types.kinds⟩, sound.nodes, fun event member => ?_, sound.attributions,
    sound.associations⟩
  rcases List.mem_append.mp member with old | new
  · exact sound.events event old
  · exact joins event new

theorem mem_insertMany_links {set : LinkSet} {links : List Link} {pair : EntityId × EntityId}
    : pair ∈ set.insertMany (links.map fun link => (link.context, link.node))
      ↔ pair ∈ set ∨ (⟨pair.2, pair.1⟩ : Link) ∈ links := by
  rw [Std.ExtTreeSet.mem_insertMany_list, List.contains_iff_mem, List.mem_map]
  refine or_congr_right ⟨?_, fun listed => ⟨_, listed, rfl⟩⟩
  rintro ⟨link, listed, rfl⟩
  exact listed

theorem Sound.putLinks {attributions associations : List Link} (sound : db.Sound)
    (stored : db.putLinks attributions associations = .ok next)
    : next.Sound := by
  obtain ⟨⟨attributed, associated⟩, rfl⟩ := putLinks_eq_ok_iff.mp stored
  refine ⟨⟨sound.types.numbered, sound.types.titled, sound.types.bounded, sound.types.names,
    sound.types.kinds⟩, sound.nodes, sound.events, fun pair member => ?_, fun pair member => ?_⟩
  · rcases mem_insertMany_links.mp member with old | new
    · exact sound.attributions pair old
    · exact attributed _ new
  · rcases mem_insertMany_links.mp member with old | new
    · exact sound.associations pair old
    · exact associated _ new

/-- A write keeps the contents sound if the ones that it answers are. -/
theorem Sound.commit {α : Type} {outcome : Except StoreError (α × Database)} (sound : db.Sound)
    (written : ∀ reply next, outcome = .ok (reply, next) → next.Sound)
    : (db.commit outcome).2.Sound := by
  cases outcome with
  | error _ => exact sound
  | ok pair => exact written pair.1 pair.2 rfl

/-- Every call keeps the contents sound, whether it is accepted or refused: reads leave the
contents, and each write has its lemma.
-/
theorem Sound.serve (sound : db.Sound) (call : Call)
    : (serve call db).2.Sound := by
  cases call with
  | putType kind type canAddFields =>
      refine sound.commit fun id next stored => ?_
      obtain ⟨named, stored⟩ := putType_eq_ok stored
      exact sound.typeStored named stored
  | putNodes kind nodes => exact sound.commit fun ids next stored => sound.putNodes stored
  | putEvents events =>
      refine sound.commit fun _ next stored => ?_
      obtain ⟨_, stored, same⟩ := map_eq_ok_iff.mp stored
      cases same
      exact sound.putEvents stored
  | putLinks attributions associations =>
      refine sound.commit fun _ next stored => ?_
      obtain ⟨_, stored, same⟩ := map_eq_ok_iff.mp stored
      cases same
      exact sound.putLinks stored
  | _ => exact sound

-----------------------------------------------------------------------------------------
-- Sequences of calls
-----------------------------------------------------------------------------------------

/-- The contents after calls, one after the other; what they answer is passed over. -/
def serveAll (db : Database) (calls : List Call) : Database :=
  calls.foldl (fun db call => (serve call db).2) db

/-- The contents are ones that calls lead to from an empty store. -/
def Reachable (db : Database) : Prop := ∃ calls, empty.serveAll calls = db

/-- Sequences of calls keep the contents sound, by induction on the calls. -/
theorem Sound.serveAll (sound : db.Sound) (calls : List Call)
    : (db.serveAll calls).Sound := by
  induction calls generalizing db with
  | nil => exact sound
  | cons call rest ih => exact ih (sound.serve call)

theorem Reachable.sound (reachable : db.Reachable)
    : db.Sound := by
  obtain ⟨calls, rfl⟩ := reachable
  exact empty_sound.serveAll calls

/-- The representation of a store after any calls, accepted or refused. Types stand under their
own ids and have names, unique within a kind, and ids that the kinds do not share. Nodes stand
under their own ids, have the name of a type that is stored and declares their properties with the
types of their values, and contexts are named. The index holds exactly the names of the nodes, so
that they are unique within a type. Both ends of each event and link are stored.
-/
theorem serveAll_empty_representation (calls : List Call)
    : let db := empty.serveAll calls
      ((∀ kind id type, db.typeById? kind id = some type → type.id = some id ∧ type.name ≠ "")
        ∧ (∀ kind id other type twin,
            db.typeById? kind id = some type → db.typeById? kind other = some twin
            → type.name = twin.name → id = other)
        ∧ ∀ kind other id,
            (db.typeById? kind id).isSome → (db.typeById? other id).isSome → kind = other)
      ∧ (∀ kind id node, db.nodeById? kind id = some node
          → node.id = some id
            ∧ (∃ type, db.typeById? kind node.typeId = some type ∧ node.typeName = type.name
                ∧ ∀ (name : String) value, node.properties[name]? = some value
                    → type.properties[name]? = some value.propertyType)
            ∧ (kind = .context → node.name.isSome))
      ∧ ((∀ kind (typeId : EntityId) (name : String) id,
            (db.nodes.get kind).names[(typeId, name)]? = some id
            ↔ ∃ node, db.nodeById? kind id = some node
                ∧ node.typeId = typeId ∧ node.name = some name)
        ∧ ∀ kind id other node twin name,
            db.nodeById? kind id = some node → db.nodeById? kind other = some twin
            → node.typeId = twin.typeId → node.name = some name → twin.name = some name
            → id = other)
      ∧ (∀ event ∈ db.events,
          db.hasNode .artifact event.artifact ∧ db.hasNode .execution event.execution)
      ∧ (∀ pair ∈ db.attributions, db.hasNode .artifact pair.2 ∧ db.hasNode .context pair.1)
      ∧ ∀ pair ∈ db.associations, db.hasNode .execution pair.2 ∧ db.hasNode .context pair.1 := by
  intro db
  have sound : db.Sound := empty_sound.serveAll calls
  refine ⟨⟨?_, sound.types.names, ?_⟩, ?_, ⟨fun kind => (sound.nodes kind).indexed, ?_⟩,
    sound.events, sound.attributions, sound.associations⟩
  · intro kind id type found
    exact ⟨sound.types.numbered kind id type found, sound.types.titled kind id type found⟩
  · intro kind other id found foundOther
    obtain ⟨type, found⟩ := Option.isSome_iff_exists.mp found
    obtain ⟨twin, foundOther⟩ := Option.isSome_iff_exists.mp foundOther
    exact sound.types.kinds kind other id type twin found foundOther
  · intro kind id node found
    have conforms := (sound.nodes kind).conforming id node found
    exact ⟨(sound.nodes kind).numbered id node found, conforms.typed,
      fun context => Option.isSome_iff_ne_none.mpr (conforms.named context)⟩
  · intro kind id other node twin name found foundTwin sameType named namedTwin
    have index := (sound.nodes kind).indexed twin.typeId name
    have first := (index id).mpr ⟨node, found, sameType, named⟩
    have second := (index other).mpr ⟨twin, foundTwin, rfl, namedTwin⟩
    exact Option.some.inj (first.symm.trans second)

end Database

end LineageLoad
