import LineageLoad.Proofs.Store.Growth

/-!
The requests of one workload. Each is acceptable to the contents for which it was made and stays so
while the others are served, since no two of them write the same; so they may come in any order.
-/

namespace LineageLoad

-----------------------------------------------------------------------------------------
-- What loads do
-----------------------------------------------------------------------------------------

/-- Whether a load only reads. -/
def Load.isReading : Load Sampler → Bool
  | fillTypes .. => false
  | fillNodes .. => false
  | fillLinks _ => false
  | fillEvents _ => false
  | readTypes .. => true
  | readNodes .. => true
  | readLinked _ => true
  | readEvents _ => true

/-- What a load does to the contents: loads that create add (done) rows, loads that update add the
(made) rows that are missing and otherwise only extend what is there, and loads that read do
nothing.
-/
def Load.Changes (load : Load Sampler) (made done : Nat) (before after : Database) : Prop :=
  match load with
  | fillTypes kind false _ => before.TypesGrow Eq kind done after
  | fillTypes kind true _ => before.TypesGrow EntityType.Extends kind made after
  | fillNodes kind false .. => before.NodesGrow Eq kind done after
  | fillNodes kind true .. => before.NodesGrow Node.Extends kind made after
  | fillLinks link => before.LinksGrow link done after
  | fillEvents direction => before.EventsGrow direction done after
  | readTypes .. => after = before
  | readNodes .. => after = before
  | readLinked _ => after = before
  | readEvents _ => after = before

namespace Load.Changes

variable {load : Load Sampler} {made done more further : Nat} {before middle after : Database}

theorem refl (load : Load Sampler) (db : Database)
    : load.Changes 0 0 db db := by
  cases load with
  | fillTypes kind update =>
      cases update with
      | false => exact ⟨by rw [PerKind.set_get_self], .refl (fun _ => rfl) _⟩
      | true =>
          exact ⟨by rw [PerKind.set_get_self], .refl (fun _ => ⟨rfl, rfl, fun _ _ same => same⟩) _⟩
  | fillNodes kind update =>
      cases update with
      | false => exact ⟨by rw [PerKind.set_get_self], .refl (fun _ => rfl) _⟩
      | true =>
          exact ⟨by rw [PerKind.set_get_self], .refl (fun _ => ⟨rfl, fun _ _ same => same⟩) _⟩
  | fillLinks link => exact ⟨by cases link <;> rfl, fun _ member => member, rfl⟩
  | fillEvents direction => exact ⟨[], rfl, by simp, by simp⟩
  | readTypes => rfl
  | readNodes => rfl
  | readLinked => rfl
  | readEvents => rfl

theorem trans (sooner : load.Changes made done before middle)
    (later : load.Changes more further middle after)
    : load.Changes (made + more) (done + further) before after := by
  cases load with
  | fillTypes kind update =>
      cases update with
      | false => exact Database.TypesGrow.trans (fun again first => again.trans first) sooner later
      | true => exact Database.TypesGrow.trans (fun again first => again.trans first) sooner later
  | fillNodes kind update =>
      cases update with
      | false => exact Database.NodesGrow.trans (fun again first => again.trans first) sooner later
      | true => exact Database.NodesGrow.trans (fun again first => again.trans first) sooner later
  | fillLinks => exact Database.LinksGrow.trans sooner later
  | fillEvents => exact Database.EventsGrow.trans sooner later
  | readTypes => exact Eq.trans later sooner
  | readNodes => exact Eq.trans later sooner
  | readLinked => exact Eq.trans later sooner
  | readEvents => exact Eq.trans later sooner

/-- A load that reads does nothing, however often. -/
theorem of_reading (reading : load.isReading = true) (db : Database)
    : load.Changes made done db db := by
  cases load with
  | fillTypes => cases reading
  | fillNodes => cases reading
  | fillLinks => cases reading
  | fillEvents => cases reading
  | readTypes => rfl
  | readNodes => rfl
  | readLinked => rfl
  | readEvents => rfl

/-- Types that a load creates are types that a load of updates missed. -/
theorem ofNewTypes {kind : Kind} {numProperties : Sampler}
    (created : (Load.fillTypes kind false numProperties).Changes made done before after)
    : (Load.fillTypes kind true numProperties).Changes done 0 before after := by
  obtain ⟨frame, table⟩ : before.TypesGrow Eq kind done after := created
  refine ⟨frame, table.weaken fun same => ?_⟩
  exact same ▸ ⟨rfl, rfl, fun _ _ held => held⟩

/-- Nodes that a load creates are nodes that a load of updates missed. -/
theorem ofNewNodes {kind : Kind} {numProperties stringBytes : Sampler}
    (created
      : (Load.fillNodes kind false numProperties stringBytes).Changes made done before after)
    : (Load.fillNodes kind true numProperties stringBytes).Changes done 0 before after := by
  obtain ⟨frame, table⟩ : before.NodesGrow Eq kind done after := created
  refine ⟨frame, table.weaken fun same => ?_⟩
  exact same ▸ ⟨rfl, fun _ _ held => held⟩

end Load.Changes

-----------------------------------------------------------------------------------------
-- Single requests
-----------------------------------------------------------------------------------------

/-- What a request writes: no two requests of a workload may write the same. -/
inductive Target where
  /-- The type of a name. -/
  | type (name : String)
  /-- The new node of a type and a name. -/
  | name (typeId : EntityId) (name : Option String)
  | node (id : EntityId)
  | link (joined : Link)
  deriving DecidableEq

/-- What a call writes first; other calls write nothing that could be written twice. -/
def Call.target? : Call → Option Target
  | .putType _ type _ => some (.type type.name)
  | .putNodes _ nodes =>
    nodes.head?.map fun node => node.id.elim (.name node.typeId node.name) .node
  | .putLinks attributions associations => (attributions ++ associations).head?.map .link
  | _ => none

/-- A call only reads: any contents serve it and stay as they are. -/
def Call.Reads (call : Call) : Prop :=
  ∀ db, ∃ reply, Database.serve call db = (.ok reply, db)

/-- The requests of a load that the contents accept. -/
inductive Load.Acceptable (db : Database) : Load Sampler → Call → Prop
  | newType {kind numProperties type} (unnumbered : type.id = none) (named : type.name ≠ "")
    (absent : db.typeEntry? kind type.name = none)
    : Acceptable db (.fillTypes kind false numProperties) (.putType kind type false)
  | typeVersion {kind numProperties id type stored} (found : db.typeById? kind id = some stored)
    (version : type.Extends stored)
    : Acceptable db (.fillTypes kind true numProperties) (.putType kind type true)
  | newNode {kind numProperties stringBytes type node} (unnumbered : node.id = none)
    (accepts : db.Accepts kind type node)
    : Acceptable db (.fillNodes kind false numProperties stringBytes) (.putNodes kind [node])
  | nodeVersion {kind numProperties stringBytes id node stored}
    (found : db.nodeById? kind id = some stored) (version : node.Extends stored)
    : Acceptable db (.fillNodes kind true numProperties stringBytes) (.putNodes kind [node])
  | newLink {link joined} (links : db.Links link.nodeKind joined)
    (free : (joined.context, joined.node) ∉ db.linksOf link.nodeKind)
    : Acceptable db (.fillLinks link) (FillLinks.item link joined.node joined.context).call
  | newEvent {direction event} (joins : db.Joins event) (same : event.direction = direction)
    : Acceptable db (.fillEvents direction) (.putEvents [event])
  | read {load call} (reading : load.isReading = true) (reads : call.Reads)
    : Acceptable db load call

/-- Two calls do not write the same. -/
def Call.Apart (call other : Call) : Prop :=
  ∀ target, call.target? = some target → other.target? ≠ some target

theorem target?_item (link : LinkKind) (joined : Link)
    : (FillLinks.item link joined.node joined.context).call.target? = some (.link joined) := by
  cases link <;> rfl

theorem Node.Extends.target? {db : Database} {kind : Kind} {id : EntityId} {node stored : Node}
    (version : node.Extends stored) (found : db.nodeById? kind id = some stored) (sound : db.Sound)
    : node.id = some id ∧ (Call.putNodes kind [node]).target? = some (.node id) := by
  have numbered : node.id = some id :=
    (congrArg Node.id version.frame).trans ((sound.nodes kind).numbered id stored found)
  exact ⟨numbered, by simp [Call.target?, numbered]⟩

/-- An acceptable request is served and does what one request of its load does. The requests that do
not write the same stay acceptable. By the cases of an acceptable request.
-/
theorem Load.Acceptable.serve {db : Database} {load : Load Sampler} {call : Call}
    (acceptable : load.Acceptable db call) (sound : db.Sound)
    : ∃ reply next, Database.serve call db = (.ok reply, next) ∧ load.Changes 0 1 db next
        ∧ ∀ other, load.Acceptable db other → call.Apart other → load.Acceptable next other := by
  cases acceptable with
  | newType unnumbered named absent =>
      obtain ⟨reply, next, served, grows, free⟩ := sound.serve_newType unnumbered named absent
      refine ⟨reply, next, served, grows, fun other acceptable apart => ?_⟩
      cases acceptable with
      | newType unnumbered named absent =>
          exact .newType unnumbered named
            (free _ (fun same => apart _ rfl (congrArg (some ∘ Target.type) same)) absent)
      | read reading => cases reading
  | typeVersion found version =>
      obtain ⟨reply, next, served, grows, stays⟩ := sound.serve_typeVersion found version
      refine ⟨reply, next, served, grows, fun other acceptable apart => ?_⟩
      cases acceptable with
      | typeVersion there twin =>
          refine .typeVersion (stays _ _ (fun same => ?_) there) twin
          exact apart _ rfl (congrArg (some ∘ Target.type) (twin.name.trans same))
      | read reading => cases reading
  | newNode unnumbered accepts =>
      refine ⟨_, _, Database.serve_putNode accepts, sound.nodesGrow_new unnumbered,
        fun other acceptable apart => ?_⟩
      cases acceptable with
      | newNode free later =>
          refine .newNode free (later.put sound ⟨fun name named again same => ?_, ?_⟩)
          · refine apart _ rfl ?_
            simp [Call.target?, unnumbered, free, named, again, same]
          · intro id given
            cases unnumbered.symm.trans given
      | read reading => cases reading
  | @nodeVersion kind _ _ id node stored found version =>
      obtain ⟨type, accepts⟩ := sound.accepts_version found version
      refine ⟨_, _, Database.serve_putNode accepts, sound.nodesGrow_version found version,
        fun other acceptable apart => ?_⟩
      cases acceptable with
      | @nodeVersion _ _ _ key _ _ there twin =>
          obtain ⟨numbered, target⟩ := version.target? found sound
          -- Versions of different nodes are put under different ids.
          have different : key ≠ id := fun same =>
            apart _ target (same ▸ (twin.target? there sound).2)
          refine .nodeVersion ((Database.nodeById?_put ?_).trans there) twin
          simpa [NodeTable.put_fst, Database.withTypeName, numbered] using different
      | read reading => cases reading
  | @newLink link first links free =>
      obtain ⟨reply, served⟩ := Database.serve_newLink links
      refine ⟨reply, _, served, Database.linksGrow_insert free, fun other acceptable apart => ?_⟩
      cases acceptable with
      | @newLink _ joined again fresh =>
          refine .newLink (Database.links_setLinks.mpr again) (Database.not_mem_insert ?_ fresh)
          exact fun same => apart _ (target?_item link first) (same ▸ target?_item link joined)
      | read reading => cases reading
  | newEvent joins same =>
      refine ⟨_, _, Database.serve_newEvent joins, ⟨_, rfl, by simpa using same, rfl⟩,
        fun other acceptable _ => ?_⟩
      cases acceptable with
      | newEvent joins same => exact .newEvent joins same
      | read reading => cases reading
  | read reading reads =>
      obtain ⟨reply, served⟩ := reads db
      exact ⟨reply, db, served, .of_reading reading db, fun other acceptable _ => acceptable⟩

/-- Requests that are open: the contents accept each of them, and no two of them write the same. -/
structure Load.Pending (load : Load Sampler) (db : Database) (calls : List Call) : Prop where
  acceptable : ∀ call ∈ calls, load.Acceptable db call
  apart : (calls.filterMap Call.target?).Nodup

section

variable {load : Load Sampler} {db : Database} {call : Call} {calls : List Call}

theorem Load.Pending.nil
    : load.Pending db [] :=
  ⟨List.forall_mem_nil _, List.nodup_nil⟩

/-- A further acceptable request is open if none of the others writes what it does. -/
theorem Load.Pending.cons (acceptable : load.Acceptable db call)
    (apart : ∀ target, call.target? = some target → ∀ other ∈ calls, other.target? ≠ some target)
    (pending : load.Pending db calls)
    : load.Pending db (call :: calls) where
  acceptable := List.forall_mem_cons.mpr ⟨acceptable, pending.acceptable⟩
  apart := by
    cases wrote : call.target? with
    | none =>
        rw [List.filterMap_cons_none wrote]
        exact pending.apart
    | some target =>
        rw [List.filterMap_cons_some wrote]
        refine List.nodup_cons.mpr ⟨fun again => ?_, pending.apart⟩
        obtain ⟨other, member, same⟩ := List.mem_filterMap.mp again
        exact apart target wrote other member same

/-- Acceptable requests that write nothing which could be written twice are open. -/
theorem Load.Pending.of_free
    (free : ∀ call ∈ calls, load.Acceptable db call ∧ call.target? = none)
    : load.Pending db calls where
  acceptable call member := (free call member).1
  apart := by
    rw [List.filterMap_eq_nil_iff.mpr fun call member => (free call member).2]
    exact List.nodup_nil

end

theorem Load.Pending.sublist {load : Load Sampler} {db : Database} {some all : List Call}
    (pending : load.Pending db all) (sublist : some.Sublist all)
    : load.Pending db some where
  acceptable call member := pending.acceptable call (sublist.mem member)
  apart := pending.apart.sublist (sublist.filterMap _)

/-- Any of the open requests is served, does what one request of its load does, and leaves the
others open.
-/
theorem Load.Pending.serve {load : Load Sampler} {db : Database} {before after : List Call}
    {call : Call} (pending : load.Pending db (before ++ call :: after)) (sound : db.Sound)
    : ∃ reply next, Database.serve call db = (.ok reply, next) ∧ load.Changes 0 1 db next
        ∧ load.Pending next (before ++ after) := by
  obtain ⟨reply, next, served, changes, stays⟩ :=
    (pending.acceptable call (by simp)).serve sound
  have sublist : (before ++ after).Sublist (before ++ call :: after) :=
    (List.sublist_cons_self call after).append_left before
  refine ⟨reply, next, served, changes, fun other member => ?_, ?_⟩
  · refine stays other (pending.acceptable other (sublist.mem member)) fun target wrote again => ?_
    have targets := pending.apart
    -- The request that is served is the first one in another order of the same requests.
    have perm : (before ++ call :: after).Perm (call :: (before ++ after)) := List.perm_middle
    rw [(perm.filterMap _).nodup_iff, List.filterMap_cons_some wrote] at targets
    exact (List.nodup_cons.mp targets).1 (List.mem_filterMap.mpr ⟨other, member, again⟩)
  · exact pending.apart.sublist (sublist.filterMap _)

-----------------------------------------------------------------------------------------
-- Synthesized items
-----------------------------------------------------------------------------------------

/-- Items for as many open requests, which write only what is allowed. -/
structure Load.Writes (load : Load Sampler) (db : Database) (allowed : Target → Prop) (count : Nat)
    (items : List WorkItem) : Prop where
  length : items.length = count
  pending : load.Pending db (items.map (·.call))
  within : ∀ call ∈ items.map (·.call), ∀ target, call.target? = some target → allowed target

section

variable {load : Load Sampler} {db : Database} {allowed : Target → Prop}

theorem Load.Writes.nil
    : load.Writes db allowed 0 [] :=
  ⟨rfl, .nil, List.forall_mem_nil _⟩

/-- One more item may come first if the others are not allowed to write what it does. -/
theorem Load.Writes.cons {later : Target → Prop} {count : Nat} {item : WorkItem}
    {rest : List WorkItem} {target : Target} (acceptable : load.Acceptable db item.call)
    (wrote : item.call.target? = some target) (inside : allowed target) (once : ¬later target)
    (weaker : ∀ other, later other → allowed other) (others : load.Writes db later count rest)
    : load.Writes db allowed (count + 1) (item :: rest) where
  length := congrArg Nat.succ others.length
  pending := by
    refine .cons acceptable (fun other same call member again => ?_) others.pending
    cases wrote.symm.trans same
    exact once (others.within call member target again)
  within := by
    refine List.forall_mem_cons.mpr ⟨fun other same => ?_, fun call member other same => ?_⟩
    · cases wrote.symm.trans same
      exact inside
    · exact weaker other (others.within call member other same)

end

end LineageLoad
