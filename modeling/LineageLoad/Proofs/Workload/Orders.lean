import LineageLoad.Proofs.Store.Numbering
import LineageLoad.Proofs.Workload.Requests

/-!
The open requests of one load, served in two orders. Requests that extend rows or add links may
change places. Those that create rows number them in their order, and those that store events append
them, so what they leave is equal up to the ids of the new rows and the order of the new events.
-/

namespace LineageLoad

namespace Call

/-- The types that a call hands in. -/
def types : Call → List EntityType
  | .putType _ type _ => [type]
  | _ => []

/-- The nodes that a call hands in. -/
def nodes : Call → List Node
  | .putNodes _ nodes => nodes
  | _ => []

/-- The events that a call hands in. -/
def events : Call → List Event
  | .putEvents events => events
  | _ => []

end Call

-----------------------------------------------------------------------------------------
-- Open requests one after the other
-----------------------------------------------------------------------------------------

namespace Load.Pending

variable {load : Load Sampler} {db : Database} {call : Call} {calls others : List Call}

theorem perm (pending : load.Pending db calls) (perm : calls.Perm others)
    : load.Pending db others where
  acceptable call member := pending.acceptable call (perm.mem_iff.mpr member)
  apart := ((perm.filterMap _).nodup_iff).mp pending.apart

/-- The first request does what one request does, and the others stay open. -/
theorem serve_head (pending : load.Pending db (call :: calls)) (sound : db.Sound)
    : load.Changes 0 1 db (Database.serve call db).2
      ∧ load.Pending (Database.serve call db).2 calls := by
  have pending : load.Pending db ([] ++ call :: calls) := pending
  obtain ⟨reply, next, served, changes, rest⟩ := pending.serve sound
  rw [served]
  exact ⟨changes, rest⟩

/-- All open requests do what as many requests do, by induction on the requests. -/
theorem serveAll_changes (pending : load.Pending db calls) (sound : db.Sound)
    : load.Changes 0 calls.length db (db.serveAll calls) := by
  induction calls generalizing db with
  | nil => exact .refl load db
  | cons call rest ih =>
      obtain ⟨changes, others⟩ := pending.serve_head sound
      rw [List.length_cons, Nat.add_comm]
      exact changes.trans (ih others (sound.serve call))

/-- If any two open requests may change places, then they may come in any order. By induction on the
reordering.
-/
theorem serveAll_eq
    (commute
      : ∀ {db first second}, db.Sound → load.Pending db [first, second] →
        db.serveAll [first, second] = db.serveAll [second, first])
    (pending : load.Pending db calls) (sound : db.Sound) (perm : calls.Perm others)
    : db.serveAll calls = db.serveAll others := by
  induction perm generalizing db with
  | nil => rfl
  | cons call _ ih => exact ih (pending.serve_head sound).2 (sound.serve call)
  | swap second first rest =>
      have both : [first, second].Sublist (first :: second :: rest) :=
        ((List.nil_sublist rest).cons_cons second).cons_cons first
      exact congrArg (Database.serveAll · rest) (commute sound (pending.sublist both))
  | trans sooner _ ih ih' => exact (ih pending sound).trans (ih' (pending.perm sooner) sound)

end Load.Pending

-----------------------------------------------------------------------------------------
-- Requests that commute
-----------------------------------------------------------------------------------------

theorem Table.insert_comm {α : Type} (table : Table α) {first second : EntityId}
    (different : first ≠ second) (row other : α)
    : (table.insert first row).insert second other
        = (table.insert second other).insert first row := by
  refine Std.ExtTreeMap.ext_getElem? fun id => ?_
  simp only [Std.ExtTreeMap.getElem?_insert, Std.LawfulEqCmp.compare_eq_iff_eq]
  by_cases here : first = id
  · subst here
    rw [if_neg different.symm, if_pos rfl, if_pos rfl]
  · rw [if_neg here, if_neg here]

/-- A version of a node takes its place in a table. The name that the index loses is the one that it
gains.
-/
theorem NodeTable.Sound.put_version {types : EntityId → Option EntityType} {kind : Kind}
    {table : NodeTable} {id : EntityId} {node stored : Node} (sound : table.Sound types kind)
    (found : table.rows[id]? = some stored) (own : node.id = some id)
    (typeId : node.typeId = stored.typeId) (name : node.name = stored.name)
    : table.put node = (id, { table with rows := table.rows.insert id node }) := by
  have key : (table.put node).1 = id := by
    rw [put_fst, own, Option.getD_some]
  have rows : (table.put node).2.rows = table.rows.insert id node := by
    have under : { node with id := some id } = node := by rw [← own]
    change table.rows.insert (table.put node).1 { node with id := some (table.put node).1 } = _
    rw [key, under]
  have names : (table.put node).2.names = table.names := by
    refine Std.ExtTreeMap.ext_getElem? fun ⟨type, title⟩ => ?_
    rw [put_names, key, found, Option.bind_some, name]
    split
    · next held =>
        obtain ⟨rfl, named⟩ := held
        exact ((sound.indexed _ _ id).mpr ⟨stored, found, typeId.symm, named⟩).symm
    · rfl
  have lastId : (table.put node).2.lastId = table.lastId := by
    simp [NodeTable.put, own]
  exact Prod.ext key ((NodeTable.mk.injEq ..).mpr ⟨lastId, rows, names⟩)

namespace Database

variable {db : Database} {kind : Kind}

theorem setType_comm {first second : EntityId} (different : first ≠ second)
    (type other : EntityType)
    : (db.setType kind first type).setType kind second other
        = (db.setType kind second other).setType kind first type := by
  simp only [setType, PerKind.get_set_self, PerKind.set_set,
    Table.insert_comm _ different type other]

/-- Replaces a node by a version that has its name. -/
def setNode (db : Database) (kind : Kind) (id : EntityId) (node : Node) : Database :=
  let table := db.nodes.get kind
  { db with nodes := db.nodes.set kind { table with rows := table.rows.insert id node } }

theorem setNode_comm {first second : EntityId} (different : first ≠ second) (node other : Node)
    : (db.setNode kind first node).setNode kind second other
        = (db.setNode kind second other).setNode kind first node := by
  simp only [setNode, PerKind.get_set_self, PerKind.set_set,
    Table.insert_comm _ different node other]

theorem nodeById?_setNode {id key : EntityId} (different : key ≠ id) (node : Node)
    : (db.setNode kind id node).nodeById? kind key = db.nodeById? kind key := by
  simp only [nodeById?, setNode, PerKind.get_set_self]
  rw [Std.ExtTreeMap.getElem?_insert, if_neg]
  exact fun equal => different (Std.LawfulEqCmp.compare_eq_iff_eq.mp equal).symm

/-- A version of a node has the name of its type already. -/
theorem Sound.withTypeName_version (sound : db.Sound) {id : EntityId} {node stored : Node}
    (found : db.nodeById? kind id = some stored) (version : node.Extends stored)
    : db.withTypeName kind node = node := by
  have typeId : node.typeId = stored.typeId := by rw [version.frame]
  have title : node.typeName = stored.typeName := by rw [version.frame]
  obtain ⟨type, typed, titled, _⟩ := ((sound.nodes kind).conforming id stored found).typed
  exact withTypeName_eq_self (typeId ▸ typed) (title.trans titled)

/-- A version of a node is served by replacing the node. -/
theorem Sound.serve_nodeVersion_eq (sound : db.Sound) {id : EntityId} {node stored : Node}
    (found : db.nodeById? kind id = some stored) (version : node.Extends stored)
    : Database.serve (.putNodes kind [node]) db = (.ok [id], db.setNode kind id node) := by
  obtain ⟨type, accepts⟩ := sound.accepts_version found version
  have typeId : node.typeId = stored.typeId := by rw [version.frame]
  have name : node.name = stored.name := by rw [version.frame]
  rw [serve_putNode accepts, sound.withTypeName_version found version,
    (sound.nodes kind).put_version found (version.target? found sound).1 typeId name]
  rfl

theorem setLinks_comm {link : LinkKind} (first second : EntityId × EntityId)
    : (db.setLinks ((db.linksOf link.nodeKind).insert first) link).setLinks
          (((db.linksOf link.nodeKind).insert first).insert second) link
        = (db.setLinks ((db.linksOf link.nodeKind).insert second) link).setLinks
          (((db.linksOf link.nodeKind).insert second).insert first) link := by
  have both (links : LinkSet) : (links.insert first).insert second
      = (links.insert second).insert first := by
    refine Std.ExtTreeSet.ext_mem fun pair => ?_
    simp only [Std.ExtTreeSet.mem_insert]
    exact or_left_comm
  rw [both]
  cases link <;> rfl

theorem serveAll_pair (db : Database) (first second : Call)
    : db.serveAll [first, second]
        = (Database.serve second (Database.serve first db).2).2 :=
  rfl

/-- Versions of two types are served one after the other. -/
theorem Sound.serveAll_typeVersions (sound : db.Sound) {first second : EntityId}
    {type other stored twin : EntityType} (different : first ≠ second)
    (found : db.typeById? kind first = some stored) (version : type.Extends stored)
    (there : db.typeById? kind second = some twin) (again : other.Extends twin)
    : db.serveAll [.putType kind type true, .putType kind other true]
        = (db.setType kind first { stored with properties := stored.properties ∪ type.properties }
          ).setType kind second { twin with properties := twin.properties ∪ other.properties } := by
  have served := sound.serve_typeVersion_eq found version
  have kept := sound.serve (.putType kind type true)
  rw [served] at kept
  have still : (db.setType kind first
      { stored with properties := stored.properties ∪ type.properties }).typeById? kind second
      = some twin := by
    rw [typeById?_setType, if_neg fun both => different both.2.symm]
    exact there
  rw [serveAll_pair, served, kept.serve_typeVersion_eq still again]

/-- Versions of two nodes are served one after the other. -/
theorem Sound.serveAll_nodeVersions (sound : db.Sound) {first second : EntityId}
    {node other stored twin : Node} (different : first ≠ second)
    (found : db.nodeById? kind first = some stored) (version : node.Extends stored)
    (there : db.nodeById? kind second = some twin) (again : other.Extends twin)
    : db.serveAll [.putNodes kind [node], .putNodes kind [other]]
        = (db.setNode kind first node).setNode kind second other := by
  have served := sound.serve_nodeVersion_eq found version
  have kept := sound.serve (.putNodes kind [node])
  rw [served] at kept
  have still := (nodeById?_setNode different.symm node).trans there
  rw [serveAll_pair, served, kept.serve_nodeVersion_eq still again]

/-- Two links are served one after the other. -/
theorem serveAll_newLinks {link : LinkKind} {first second : Link}
    (links : db.Links link.nodeKind first) (again : db.Links link.nodeKind second)
    : db.serveAll [(FillLinks.item link first.node first.context).call,
          (FillLinks.item link second.node second.context).call]
        = (db.setLinks ((db.linksOf link.nodeKind).insert (first.context, first.node)) link
          ).setLinks (((db.linksOf link.nodeKind).insert (first.context, first.node)).insert
            (second.context, second.node)) link := by
  obtain ⟨reply, served⟩ := serve_newLink links
  obtain ⟨last, afterwards⟩ := serve_newLink (links_setLinks.mpr again)
  rw [serveAll_pair, served, afterwards, linksOf_setLinks]

end Database

namespace Load.Pending

variable {kind : Kind} {numProperties stringBytes : Sampler} {link : LinkKind} {db : Database}
  {first second : Call}

/-- Versions of different types may change places. -/
theorem commute_typeVersions (sound : db.Sound)
    (pending : (Load.fillTypes kind true numProperties).Pending db [first, second])
    : db.serveAll [first, second] = db.serveAll [second, first] := by
  have targets := pending.apart
  cases pending.acceptable first (by simp) with
  | read reading => cases reading
  | @typeVersion _ _ id _ _ found version =>
      cases pending.acceptable second (by simp) with
      | read reading => cases reading
      | @typeVersion _ _ key _ _ there again =>
          have different : id ≠ key := by
            rintro rfl
            cases found.symm.trans there
            simp [Call.target?, version.name, again.name] at targets
          rw [sound.serveAll_typeVersions different found version there again,
            sound.serveAll_typeVersions different.symm there again found version,
            Database.setType_comm different]

/-- Versions of different nodes may change places. -/
theorem commute_nodeVersions (sound : db.Sound)
    (pending : (Load.fillNodes kind true numProperties stringBytes).Pending db [first, second])
    : db.serveAll [first, second] = db.serveAll [second, first] := by
  have targets := pending.apart
  cases pending.acceptable first (by simp) with
  | read reading => cases reading
  | @nodeVersion _ _ _ id _ _ found version =>
      cases pending.acceptable second (by simp) with
      | read reading => cases reading
      | @nodeVersion _ _ _ key _ _ there again =>
          have different : id ≠ key := by
            rintro rfl
            simp [(version.target? found sound).2, (again.target? there sound).2] at targets
          rw [sound.serveAll_nodeVersions different found version there again,
            sound.serveAll_nodeVersions different.symm there again found version,
            Database.setNode_comm different]

/-- Links may change places. -/
theorem commute_newLinks (pending : (Load.fillLinks link).Pending db [first, second])
    : db.serveAll [first, second] = db.serveAll [second, first] := by
  cases pending.acceptable first (by simp) with
  | read reading => cases reading
  | newLink links =>
      cases pending.acceptable second (by simp) with
      | read reading => cases reading
      | newLink again =>
          rw [Database.serveAll_newLinks links again, Database.serveAll_newLinks again links,
            Database.setLinks_comm]

end Load.Pending

-----------------------------------------------------------------------------------------
-- Requests that create rows and events
-----------------------------------------------------------------------------------------

namespace Load.Pending

variable {kind : Kind} {numProperties stringBytes : Sampler} {direction : Direction}
  {db : Database} {calls : List Call}

/-- New types are numbered in the order of their requests, by induction on these. -/
theorem addsTypes (pending : (Load.fillTypes kind false numProperties).Pending db calls)
    (sound : db.Sound)
    : db.AddsTypes kind (calls.flatMap Call.types) (db.serveAll calls) := by
  induction calls generalizing db with
  | nil => exact .nil db kind
  | cons call rest ih =>
      have later := ih (pending.serve_head sound).2 (sound.serve call)
      cases pending.acceptable call List.mem_cons_self with
      | read reading => cases reading
      | @newType _ _ type unnumbered named absent =>
          have served : Database.serve (.putType kind type false) db
              = (.ok (db.addType kind type).1, (db.addType kind type).2) :=
            congrArg db.commit (Database.putType_new named absent unnumbered)
          rw [served] at later
          have adds := later.cons
          rwa [Database.serveAll, List.foldl_cons, served]

/-- New nodes are numbered in the order of their requests, by induction on these. -/
theorem addsNodes (pending : (Load.fillNodes kind false numProperties stringBytes).Pending db calls)
    (sound : db.Sound)
    : db.AddsNodes kind ((calls.flatMap Call.nodes).map (db.withTypeName kind))
        (db.serveAll calls) := by
  induction calls generalizing db with
  | nil => exact .nil db kind
  | cons call rest ih =>
      have later := ih (pending.serve_head sound).2 (sound.serve call)
      cases pending.acceptable call List.mem_cons_self with
      | read reading => cases reading
      | @newNode _ _ _ type node unnumbered accepts =>
          have served := Database.serve_putNode accepts
          rw [served] at later
          have unnumbered : (db.withTypeName kind node).id = none := unnumbered
          have adds := Database.AddsNodes.cons unnumbered later
          rwa [Database.serveAll, List.foldl_cons, served]

/-- New events are appended in the order of their requests, by induction on these. -/
theorem serveAll_events (pending : (Load.fillEvents direction).Pending db calls)
    (sound : db.Sound)
    : db.serveAll calls = { db with events := db.events ++ calls.flatMap Call.events } := by
  induction calls generalizing db with
  | nil =>
      rw [List.flatMap_nil, List.append_nil]
      rfl
  | cons call rest ih =>
      have later := ih (pending.serve_head sound).2 (sound.serve call)
      cases pending.acceptable call List.mem_cons_self with
      | read reading => cases reading
      | @newEvent _ event joins same =>
          have served := Database.serve_newEvent joins
          rw [served] at later
          rw [Database.serveAll, List.foldl_cons, served]
          refine later.trans ?_
          rw [List.flatMap_cons, ← List.append_assoc]
          rfl

end Load.Pending

-----------------------------------------------------------------------------------------
-- Any order
-----------------------------------------------------------------------------------------

/-- Open requests of one load that are served in two orders leave contents that are equal up to the
ids of the new rows and the order of the new events. By the kinds of load.
-/
theorem Load.Pending.serveAll_perm {load : Load Sampler} {db : Database} {calls others : List Call}
    (pending : load.Pending db calls) (sound : db.Sound) (perm : calls.Perm others)
    : db.SameUpTo (db.serveAll calls) (db.serveAll others) := by
  have again := pending.perm perm
  have equal (same : db.serveAll calls = db.serveAll others)
      (events : (db.serveAll others).events = db.events)
      : db.SameUpTo (db.serveAll calls) (db.serveAll others) := by
    rw [same]
    have result := Database.sameUpTo_of_events events (.refl [])
    rwa [List.append_nil] at result
  have changed := pending.serveAll_changes sound
  have changes := again.serveAll_changes sound
  have reads (before : db.serveAll calls = db) (after : db.serveAll others = db)
      : db.SameUpTo (db.serveAll calls) (db.serveAll others) :=
    equal (before.trans after.symm) (congrArg Database.events after)
  cases load with
  | fillTypes kind update =>
      cases update with
      | false =>
          exact (pending.addsTypes sound).sameUpTo sound (sound.serveAll calls)
            (sound.serveAll others) (again.addsTypes sound) (perm.flatMap_right _)
      | true =>
          refine equal (pending.serveAll_eq commute_typeVersions sound perm) ?_
          rw [Database.TypesGrow.frame changes]
  | fillNodes kind update =>
      cases update with
      | false =>
          exact (pending.addsNodes sound).sameUpTo sound (sound.serveAll calls)
            (sound.serveAll others) (again.addsNodes sound) ((perm.flatMap_right _).map _)
      | true =>
          refine equal (pending.serveAll_eq commute_nodeVersions sound perm) ?_
          rw [Database.NodesGrow.frame changes]
  | fillLinks link =>
      refine equal (pending.serveAll_eq (fun _ => commute_newLinks) sound perm) ?_
      rw [Database.LinksGrow.frame changes]
      cases link <;> rfl
  | fillEvents direction =>
      rw [pending.serveAll_events sound, again.serveAll_events sound]
      exact Database.sameUpTo_of_events rfl (perm.flatMap_right _)
  | readTypes => exact reads changed changes
  | readNodes => exact reads changed changes
  | readLinked => exact reads changed changes
  | readEvents => exact reads changed changes

end LineageLoad
