import LineageLoad.Proofs.Store.Invariant
import LineageLoad.Workload.FillLinks

/-!
How the contents of a store grow: rows are added or replaced by versions of themselves, and nothing
else changes. Growth composes, so that what single writes do adds up over a workload.
-/

namespace LineageLoad

-----------------------------------------------------------------------------------------
-- Versions
-----------------------------------------------------------------------------------------

/-- A type may be replaced by a version with its id and its name that declares at least its
properties.
-/
structure EntityType.Extends (version stored : EntityType) : Prop where
  id : version.id = stored.id
  name : version.name = stored.name
  covers : version.Covers stored

/-- A node may be replaced by a version with at least its custom properties that differs in nothing
else.
-/
structure Node.Extends (version stored : Node) : Prop where
  frame : version = { stored with customProperties := version.customProperties }
  covers : ∀ (name : String) value, stored.customProperties[name]? = some value →
    version.customProperties[name]? = some value

theorem EntityType.Extends.trans {last version stored : EntityType} (later : last.Extends version)
    (sooner : version.Extends stored)
    : last.Extends stored :=
  ⟨later.id.trans sooner.id, later.name.trans sooner.name,
    fun name declared found => later.covers name declared (sooner.covers name declared found)⟩

theorem Node.Extends.trans {last version stored : Node} (later : last.Extends version)
    (sooner : version.Extends stored)
    : last.Extends stored where
  frame := by
    rw [later.frame, sooner.frame]
  covers name value found := later.covers name value (sooner.covers name value found)

-----------------------------------------------------------------------------------------
-- Tables
-----------------------------------------------------------------------------------------

/-- Every row of a table stays under its id as what (keeps) allows, and (count) rows are added. -/
structure Table.Grows {α : Type} (keeps : α → α → Prop) (count : Nat) (before after : Table α)
    : Prop where
  kept
    : ∀ (id : EntityId) old, before[id]? = some old → ∃ new, after[id]? = some new ∧ keeps new old
  size : after.size = before.size + count

namespace Table.Grows

variable {α : Type} {keeps : α → α → Prop} {before middle after : Table α} {first second : Nat}

theorem refl (same : ∀ row, keeps row row) (table : Table α)
    : Grows keeps 0 table table :=
  ⟨fun _ old found => ⟨old, found, same old⟩, rfl⟩

theorem trans (compose : ∀ {a b c}, keeps c b → keeps b a → keeps c a)
    (sooner : Grows keeps first before middle) (later : Grows keeps second middle after)
    : Grows keeps (first + second) before after where
  kept id old found := by
    obtain ⟨version, there, kept⟩ := sooner.kept id old found
    obtain ⟨last, here, again⟩ := later.kept id version there
    exact ⟨last, here, compose again kept⟩
  size := by rw [later.size, sooner.size, Nat.add_assoc]

/-- A row that only has to stay may also become a version. -/
theorem weaken {allows : α → α → Prop} (weaker : ∀ {new old}, keeps new old → allows new old)
    (grows : Grows keeps first before after)
    : Grows allows first before after where
  kept id old found := by
    obtain ⟨new, there, kept⟩ := grows.kept id old found
    exact ⟨new, there, weaker kept⟩
  size := grows.size

/-- A row under a free id is one more. -/
theorem insert_new (same : ∀ row, keeps row row) {id : EntityId} (free : before[id]? = none)
    (row : α)
    : Grows keeps 1 before (before.insert id row) where
  kept key old found := by
    refine ⟨old, ?_, same old⟩
    rw [Std.ExtTreeMap.getElem?_insert, if_neg ?_, found]
    intro equal
    rw [Std.LawfulEqCmp.compare_eq_iff_eq.mp equal, found] at free
    cases free
  size := by
    rw [Std.ExtTreeMap.size_insert, Std.ExtTreeMap.contains_eq_isSome_getElem?, free]
    rfl

/-- A version of a row takes its place. -/
theorem insert_version (same : ∀ row, keeps row row) {id : EntityId} {old version : α}
    (found : before[id]? = some old) (kept : keeps version old)
    : Grows keeps 0 before (before.insert id version) where
  kept key row there := by
    rw [Std.ExtTreeMap.getElem?_insert]
    split
    · next equal =>
        rw [← Std.LawfulEqCmp.compare_eq_iff_eq.mp equal, found] at there
        cases there
        exact ⟨version, rfl, kept⟩
    · exact ⟨row, there, same row⟩
  size := by
    rw [Std.ExtTreeMap.size_insert, Std.ExtTreeMap.contains_eq_isSome_getElem?, found]
    rfl

end Table.Grows

theorem PerKind.set_set {α : Type} (values : PerKind α) (kind : Kind) (first second : α)
    : (values.set kind first).set kind second = values.set kind second := by
  cases kind <;> rfl

theorem PerKind.set_get_self {α : Type} (values : PerKind α) (kind : Kind)
    : values.set kind (values.get kind) = values := by
  cases kind <;> rfl

-----------------------------------------------------------------------------------------
-- Contents
-----------------------------------------------------------------------------------------

namespace Database

/-- Only the types of one kind change, and they grow by (count). -/
structure TypesGrow (keeps : EntityType → EntityType → Prop) (kind : Kind) (count : Nat)
    (before after : Database) : Prop where
  frame : after = { before with
    types := before.types.set kind (after.types.get kind), lastTypeId := after.lastTypeId }
  table : (before.types.get kind).Grows keeps count (after.types.get kind)

/-- Only the nodes of one kind change, and they grow by (count). -/
structure NodesGrow (keeps : Node → Node → Prop) (kind : Kind) (count : Nat)
    (before after : Database) : Prop where
  frame : after = { before with nodes := before.nodes.set kind (after.nodes.get kind) }
  table : (before.nodes.get kind).rows.Grows keeps count (after.nodes.get kind).rows

/-- Replaces the links of one kind of node. -/
def setLinks (db : Database) (links : LinkSet) : LinkKind → Database
  | .attribution => { db with attributions := links }
  | .association => { db with associations := links }

/-- Only the links of one kind of node change: (count) of them are added to those that stay. -/
structure LinksGrow (link : LinkKind) (count : Nat) (before after : Database) : Prop where
  frame : after = before.setLinks (after.linksOf link.nodeKind) link
  kept : ∀ pair ∈ before.linksOf link.nodeKind, pair ∈ after.linksOf link.nodeKind
  size : (after.linksOf link.nodeKind).size = (before.linksOf link.nodeKind).size + count

/-- Types, nodes, events and links stay as they are; there may be further types and nodes. -/
structure Remains (before after : Database) : Prop where
  types : ∀ kind id type, before.typeById? kind id = some type →
    after.typeById? kind id = some type
  nodes : ∀ kind id node, before.nodeById? kind id = some node →
    after.nodeById? kind id = some node
  events : after.events = before.events
  attributions : after.attributions = before.attributions
  associations : after.associations = before.associations

/-- Only events of one direction are added, (count) of them, after those that stay. -/
def EventsGrow (direction : Direction) (count : Nat) (before after : Database) : Prop :=
  ∃ events : List Event, events.length = count ∧ (∀ event ∈ events, event.direction = direction)
    ∧ after = { before with events := before.events ++ events }

section

variable {kind : Kind} {link : LinkKind} {direction : Direction} {first second : Nat}
  {before middle after : Database}

theorem TypesGrow.trans {keeps : EntityType → EntityType → Prop}
    (compose : ∀ {a b c}, keeps c b → keeps b a → keeps c a)
    (sooner : TypesGrow keeps kind first before middle)
    (later : TypesGrow keeps kind second middle after)
    : TypesGrow keeps kind (first + second) before after where
  frame := by
    rw [later.frame, sooner.frame]
    simp only [PerKind.set_set, PerKind.get_set_self]
  table := sooner.table.trans compose later.table

theorem NodesGrow.trans {keeps : Node → Node → Prop}
    (compose : ∀ {a b c}, keeps c b → keeps b a → keeps c a)
    (sooner : NodesGrow keeps kind first before middle)
    (later : NodesGrow keeps kind second middle after)
    : NodesGrow keeps kind (first + second) before after where
  frame := by
    rw [later.frame, sooner.frame]
    simp only [PerKind.set_set, PerKind.get_set_self]
  table := sooner.table.trans compose later.table

theorem Remains.refl (db : Database)
    : db.Remains db :=
  ⟨fun _ _ _ found => found, fun _ _ _ found => found, rfl, rfl, rfl⟩

theorem TypesGrow.remains (grows : before.TypesGrow Eq kind first after)
    : before.Remains after := by
  obtain ⟨frame, table⟩ := grows
  refine ⟨fun other id type found => ?_, fun other id node found => ?_, by rw [frame],
    by rw [frame], by rw [frame]⟩
  · by_cases same : other = kind
    · subst other
      obtain ⟨_, there, rfl⟩ := table.kept id type found
      exact there
    · rw [frame, typeById?, PerKind.get_set_of_ne _ _ same]
      exact found
  · rw [frame]
    exact found

theorem NodesGrow.remains (grows : before.NodesGrow Eq kind first after)
    : before.Remains after := by
  obtain ⟨frame, table⟩ := grows
  refine ⟨fun other id type found => ?_, fun other id node found => ?_, by rw [frame],
    by rw [frame], by rw [frame]⟩
  · rw [frame]
    exact found
  · by_cases same : other = kind
    · subst other
      obtain ⟨_, there, rfl⟩ := table.kept id node found
      exact there
    · rw [frame, nodeById?, PerKind.get_set_of_ne _ _ same]
      exact found

theorem LinksGrow.trans (sooner : LinksGrow link first before middle)
    (later : LinksGrow link second middle after)
    : LinksGrow link (first + second) before after where
  frame := by
    rw [later.frame, sooner.frame]
    cases link <;> rfl
  kept pair member := later.kept pair (sooner.kept pair member)
  size := by rw [later.size, sooner.size, Nat.add_assoc]

theorem EventsGrow.trans (sooner : EventsGrow direction first before middle)
    (later : EventsGrow direction second middle after)
    : EventsGrow direction (first + second) before after := by
  obtain ⟨events, rfl, same, rfl⟩ := sooner
  obtain ⟨more, rfl, again, rfl⟩ := later
  refine ⟨events ++ more, List.length_append, fun event member => ?_, by simp⟩
  rcases List.mem_append.mp member with early | late
  · exact same event early
  · exact again event late

end

end Database

-----------------------------------------------------------------------------------------
-- Single writes
-----------------------------------------------------------------------------------------

namespace Database

variable {db : Database} {kind : Kind}

/-- A type is found under its name, together with its id. -/
theorem Sound.typeEntry?_of_typeById? (sound : db.Sound) {id : EntityId} {type : EntityType}
    (found : db.typeById? kind id = some type)
    : db.typeEntry? kind type.name = some (id, type) := by
  cases entry : db.typeEntry? kind type.name with
  | none => exact absurd rfl (name_ne_of_typeEntry?_eq_none entry found)
  | some pair =>
      obtain ⟨other, twin⟩ := pair
      obtain ⟨there, named⟩ := typeById?_of_entry entry
      obtain rfl := sound.types.names kind other id twin type there found named
      cases found.symm.trans there
      rfl

theorem typeEntry?_eq_none {name : String}
    (absent : ∀ id type, db.typeById? kind id = some type → type.name ≠ name)
    : db.typeEntry? kind name = none := by
  cases entry : db.typeEntry? kind name with
  | none => rfl
  | some pair =>
      obtain ⟨there, named⟩ := typeById?_of_entry entry
      exact absurd named (absent _ _ there)

/-- A type of a new name is added, and other names stay free. -/
theorem Sound.serve_newType (sound : db.Sound) {type : EntityType} (unnumbered : type.id = none)
    (named : type.name ≠ "") (absent : db.typeEntry? kind type.name = none)
    : ∃ reply next, Database.serve (.putType kind type false) db = (.ok reply, next)
        ∧ db.TypesGrow Eq kind 1 next
        ∧ ∀ name, name ≠ type.name → db.typeEntry? kind name = none →
          next.typeEntry? kind name = none := by
  refine ⟨(db.addType kind type).1, (db.addType kind type).2, ?_, ⟨?_, ?_⟩,
    fun name different free => ?_⟩
  · exact congrArg db.commit (putType_new named absent unnumbered)
  · simp [addType, setType]
  · have table : (db.addType kind type).2.types.get kind
        = (db.types.get kind).insert (db.lastTypeId + 1)
            { type with id := some (db.lastTypeId + 1) } := PerKind.get_set_self _ _ _
    rw [table]
    refine .insert_new (fun _ => rfl) ?_ _
    cases taken : (db.types.get kind)[db.lastTypeId + 1]? with
    | none => rfl
    | some old =>
        have bound := sound.types.bounded kind _ old taken
        simp only [EntityId] at bound
        omega
  · refine typeEntry?_eq_none fun id row found => ?_
    rw [typeById?_addType] at found
    split at found
    · cases found
      exact different.symm
    · exact name_ne_of_typeEntry?_eq_none free found

/-- A version of a type is served by adding what it declares to the stored one. -/
theorem Sound.serve_typeVersion_eq (sound : db.Sound) {id : EntityId} {type stored : EntityType}
    (found : db.typeById? kind id = some stored) (version : type.Extends stored)
    : Database.serve (.putType kind type true) db
        = (.ok id, db.setType kind id
          { stored with properties := stored.properties ∪ type.properties }) := by
  have named : type.name ≠ "" := version.name ▸ sound.types.titled kind id stored found
  have entry : db.typeEntry? kind type.name = some (id, stored) :=
    version.name ▸ sound.typeEntry?_of_typeById? found
  have numbered (other : EntityId) (given : type.id = some other) : other = id := by
    rw [version.id, sound.types.numbered kind id stored found] at given
    exact (Option.some.inj given).symm
  exact congrArg db.commit (putType_version named entry numbered version.covers)

/-- A version of a type takes its place, and the types of other names stay. -/
theorem Sound.serve_typeVersion (sound : db.Sound) {id : EntityId} {type stored : EntityType}
    (found : db.typeById? kind id = some stored) (version : type.Extends stored)
    : ∃ reply next, Database.serve (.putType kind type true) db = (.ok reply, next)
        ∧ db.TypesGrow EntityType.Extends kind 0 next
        ∧ ∀ key other, other.name ≠ type.name → db.typeById? kind key = some other →
          next.typeById? kind key = some other := by
  refine ⟨id, _, sound.serve_typeVersion_eq found version, ⟨?_, ?_⟩,
    fun key other different there => ?_⟩
  · simp [setType]
  · have table : (db.setType kind id
          { stored with properties := stored.properties ∪ type.properties }).types.get kind
        = (db.types.get kind).insert id
            { stored with properties := stored.properties ∪ type.properties } :=
      PerKind.get_set_self _ _ _
    rw [table]
    exact .insert_version (fun _ => ⟨rfl, rfl, fun _ _ same => same⟩) found
      ⟨rfl, rfl, version.covers.union⟩
  · rw [typeById?_setType, if_neg, there]
    rintro ⟨_, rfl⟩
    cases found.symm.trans there
    exact different version.name.symm

/-- What one accepted node leaves: only its table changes, by this one put. -/
theorem serve_putNode {type : EntityType} {node : Node} (accepts : db.Accepts kind type node)
    : Database.serve (.putNodes kind [node]) db
        = (.ok [((db.nodes.get kind).put (db.withTypeName kind node)).1],
          { db with
            nodes := db.nodes.set kind ((db.nodes.get kind).put (db.withTypeName kind node)).2 }) :=
  congrArg db.commit (putNodes_eq_ok_iff.mpr ⟨by simpa using ⟨type, accepts⟩, by simp, rfl, rfl⟩)

/-- A node that was accepted stays so when a node apart from it is put. -/
theorem Accepts.put {type : EntityType} {node other : Node} (sound : db.Sound)
    (later : db.Accepts kind type other) (apart : Apart node other)
    : Accepts { db with
        nodes := db.nodes.set kind ((db.nodes.get kind).put (db.withTypeName kind node)).2 }
        kind type other := by
  have separate : Apart (db.withTypeName kind node) (db.withTypeName kind other) :=
    ⟨apart.names, apart.ids⟩
  have ready := later.ready.put separate (sound.nodes kind)
  refine ⟨later.typed, fun id numbered => ?_, later.admitted, later.named,
    fun name owner named held => ?_⟩
  · obtain ⟨old, found, same⟩ := ready.stored id numbered
    exact ⟨old, by simpa [nodeById?] using found, same⟩
  · rw [PerKind.get_set_self] at held
    exact ready.free name owner named held

theorem nodeById?_put {node : Node} {id : EntityId}
    (different : id ≠ ((db.nodes.get kind).put node).1)
    : nodeById? { db with nodes := db.nodes.set kind ((db.nodes.get kind).put node).2 } kind id
        = db.nodeById? kind id := by
  rw [nodeById?, PerKind.get_set_self, NodeTable.put_rows, if_neg different]
  rfl

/-- A node without an id is one more if it is accepted. -/
theorem Sound.nodesGrow_new (sound : db.Sound) {node : Node} (unnumbered : node.id = none)
    : db.NodesGrow Eq kind 1 { db with
        nodes := db.nodes.set kind ((db.nodes.get kind).put (db.withTypeName kind node)).2 } where
  frame := by rw [PerKind.get_set_self]
  table := by
    rw [PerKind.get_set_self]
    refine .insert_new (fun _ => rfl) ?_ _
    rcases (sound.nodes kind).id_or_free (db.withTypeName kind node) with own | ⟨_, free⟩
    · cases unnumbered.symm.trans own
    · exact free

/-- A version of a stored node is accepted. -/
theorem Sound.accepts_version (sound : db.Sound) {id : EntityId} {node stored : Node}
    (found : db.nodeById? kind id = some stored) (version : node.Extends stored)
    : ∃ type, db.Accepts kind type node := by
  have same := version.frame
  generalize node.customProperties = custom at same
  subst same
  have conforms := (sound.nodes kind).conforming id stored found
  obtain ⟨type, typed, _, admits⟩ := conforms.typed
  have numbered := (sound.nodes kind).numbered id stored found
  refine ⟨type, typed, fun other given => ?_, admits, conforms.named,
    fun name owner named held => ?_⟩
  · obtain rfl : id = other := Option.some.inj (numbered.symm.trans given)
    exact ⟨stored, found, rfl⟩
  · have index := ((sound.nodes kind).indexed stored.typeId name id).mpr
      ⟨stored, found, rfl, named⟩
    exact numbered.trans (index.symm.trans held)

/-- A version of a stored node takes its place. -/
theorem Sound.nodesGrow_version (sound : db.Sound) {id : EntityId} {node stored : Node}
    (found : db.nodeById? kind id = some stored) (version : node.Extends stored)
    : db.NodesGrow Node.Extends kind 0 { db with
        nodes := db.nodes.set kind ((db.nodes.get kind).put (db.withTypeName kind node)).2 } where
  frame := by rw [PerKind.get_set_self]
  table := by
    rw [PerKind.get_set_self]
    have covers := version.covers
    have same := version.frame
    generalize node.customProperties = custom at same covers
    subst same
    have numbered := (sound.nodes kind).numbered id stored found
    obtain ⟨type, typed, titled, _⟩ := ((sound.nodes kind).conforming id stored found).typed
    -- The version is put under the id of the stored node, and its type is titled as before.
    have own : (db.withTypeName kind { stored with customProperties := custom }).id.getD
        ((db.nodes.get kind).lastId + 1) = id := by
      simp [withTypeName, numbered]
    have there : (db.nodes.get kind).rows[(db.withTypeName kind
        { stored with customProperties := custom }).id.getD ((db.nodes.get kind).lastId + 1)]?
        = some stored := own.symm ▸ found
    refine .insert_version (fun _ => ⟨rfl, fun _ _ same => same⟩) there ⟨?_, covers⟩
    rw [own]
    simp [withTypeName, typed, ← titled, ← numbered]

theorem linksOf_setLinks (db : Database) (links : LinkSet) (link : LinkKind)
    : (db.setLinks links link).linksOf link.nodeKind = links := by
  cases link <;> rfl

theorem links_setLinks {links : LinkSet} {link : LinkKind} {joined : Link}
    : (db.setLinks links link).Links kind joined ↔ db.Links kind joined := by
  cases link <;> rfl

/-- A link that is not stored is one more. -/
theorem linksGrow_insert {link : LinkKind} {pair : EntityId × EntityId}
    (free : pair ∉ db.linksOf link.nodeKind)
    : db.LinksGrow link 1 (db.setLinks ((db.linksOf link.nodeKind).insert pair) link) where
  frame := by rw [linksOf_setLinks]
  kept other member := by
    rw [linksOf_setLinks]
    exact Std.ExtTreeSet.mem_insert.mpr (.inr member)
  size := by
    rw [linksOf_setLinks, Std.ExtTreeSet.size_insert, if_neg]
    exact fun stored => free (Std.ExtTreeSet.mem_iff_contains.mpr stored)

/-- A link that is not stored and not the one that is added is not stored afterwards. -/
theorem not_mem_insert {link : LinkKind} {joined added : Link} (different : joined ≠ added)
    (free : (joined.context, joined.node) ∉ db.linksOf link.nodeKind)
    : (joined.context, joined.node)
      ∉ (db.setLinks ((db.linksOf link.nodeKind).insert (added.context, added.node)) link).linksOf
        link.nodeKind := by
  intro stored
  rw [linksOf_setLinks, Std.ExtTreeSet.mem_insert, Std.LawfulEqCmp.compare_eq_iff_eq,
    Prod.mk.injEq] at stored
  rcases stored with ⟨context, node⟩ | old
  · cases joined
    cases added
    exact different ((Link.mk.injEq ..).mpr ⟨node.symm, context.symm⟩)
  · exact free old

/-- A link between stored ends is served by adding it. -/
theorem serve_newLink {link : LinkKind} {joined : Link} (links : db.Links link.nodeKind joined)
    : ∃ reply, Database.serve (FillLinks.item link joined.node joined.context).call db
        = (.ok reply, db.setLinks
          ((db.linksOf link.nodeKind).insert (joined.context, joined.node)) link) := by
  cases link with
  | attribution =>
      have ends : ∀ link ∈ [joined], db.Links .artifact link := List.forall_mem_singleton.mpr links
      have stored := putLinks_eq_ok_iff.mpr ⟨⟨ends, List.forall_mem_nil _⟩, rfl⟩
      refine ⟨(), ?_⟩
      change db.commit ((db.putLinks [joined] []).map ((), ·)) = _
      rw [stored]
      rfl
  | association =>
      have ends : ∀ link ∈ [joined], db.Links .execution link := List.forall_mem_singleton.mpr links
      have stored := putLinks_eq_ok_iff.mpr ⟨⟨List.forall_mem_nil _, ends⟩, rfl⟩
      refine ⟨(), ?_⟩
      change db.commit ((db.putLinks [] [joined]).map ((), ·)) = _
      rw [stored]
      rfl

theorem serve_newEvent {event : Event} (joins : db.Joins event)
    : Database.serve (.putEvents [event]) db
        = (.ok (), { db with events := db.events ++ [event] }) := by
  change db.commit ((db.putEvents [event]).map ((), ·)) = _
  rw [putEvents_eq_ok_iff.mpr ⟨by simpa using joins, rfl⟩]
  rfl

end Database

end LineageLoad
