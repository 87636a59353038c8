import LineageLoad.Proofs.Store.History

/-!
Reads along links and events answer what the history wrote. Both directions of a link are read from
the same pairs, and the ends of these are stored for good, so no pair is dropped.
-/

namespace LineageLoad

/-- Lookups that all succeed drop nothing. -/
theorem map_some_filterMap {α β : Type} {f : α → Option β} {items : List α}
    (found : ∀ item ∈ items, (f item).isSome)
    : (items.filterMap f).map some = items.map f := by
  induction items with
  | nil => rfl
  | cons item rest ih =>
      obtain ⟨first, found⟩ := List.forall_mem_cons.mp found
      obtain ⟨value, here⟩ := Option.isSome_iff_exists.mp first
      rw [List.filterMap_cons_some here, List.map_cons, List.map_cons, ih found, here]

section

variable {first second : EntityId × EntityId}

/-- The order of pairs decides by the first components, then by the second ones. -/
theorem pairOrder_eq
    : pairOrder first second = (compare first.1 second.1).then (compare first.2 second.2) :=
  rfl

theorem pairOrder_lt_iff
    : pairOrder first second = .lt
      ↔ first.1 < second.1 ∨ first.1 = second.1 ∧ first.2 < second.2 := by
  rw [pairOrder_eq, Ordering.then_eq_lt, Std.compare_eq_lt, Std.compare_eq_lt,
    Std.LawfulEqCmp.compare_eq_iff_eq]

theorem pairOrder_isLE_iff
    : (pairOrder first second).isLE
      ↔ first.1 < second.1 ∨ first.1 = second.1 ∧ first.2 ≤ second.2 := by
  rw [pairOrder_eq, Ordering.isLE_then_iff_or, Std.compare_eq_lt, Std.isLE_compare,
    Std.LawfulEqCmp.compare_eq_iff_eq]

end

namespace Database

variable {db next : Database} {kind : Kind} {log : List Answer} {id : EntityId}
  {wanted : EntityId → Prop} {reply : Except StoreError (List Node)}

-----------------------------------------------------------------------------------------
-- Listed nodes
-----------------------------------------------------------------------------------------

/-- A reply lists the nodes that are stored now under the wanted ids, each of them once and in
ascending order of the ids.
-/
def Lists (db : Database) (kind : Kind) (wanted : EntityId → Prop)
    (reply : Except StoreError (List Node)) : Prop :=
  ∃ ids : List EntityId, ids.Pairwise (· < ·) ∧ (∀ id, id ∈ ids ↔ wanted id)
    ∧ ∃ nodes, reply = .ok nodes ∧ nodes.map some = ids.map (db.nodeById? kind)

/-- A node with the id is in the reply. -/
def Names (reply : Except StoreError (List Node)) (id : EntityId) : Prop :=
  ∃ nodes, reply = .ok nodes ∧ ∃ node ∈ nodes, node.id = some id

theorem Lists.names_iff (lists : db.Lists kind wanted reply) (sound : db.Sound)
    : Names reply id ↔ wanted id := by
  obtain ⟨ids, _, members, nodes, rfl, stored⟩ := lists
  have numbered := fun id node => (sound.nodes kind).numbered id node
  rw [← members]
  constructor
  · rintro ⟨_, answered, node, member, named⟩
    cases answered
    have listed : some node ∈ ids.map (db.nodeById? kind) :=
      stored ▸ List.mem_map_of_mem member
    obtain ⟨key, there, found⟩ := List.mem_map.mp listed
    rw [numbered key node found] at named
    cases named
    exact there
  · intro there
    have listed : db.nodeById? kind id ∈ nodes.map some := stored ▸ List.mem_map_of_mem there
    obtain ⟨node, member, found⟩ := List.mem_map.mp listed
    exact ⟨nodes, rfl, node, member, numbered id node found.symm⟩

/-- The nodes at one end of some pairs are listed if these are in ascending order of that end and
the ends are stored.
-/
theorem lists_of_pairs {pairs : List (EntityId × EntityId)} {side : EntityId × EntityId → EntityId}
    (ascending : pairs.Pairwise (side · < side ·))
    (members : ∀ id, id ∈ pairs.map side ↔ wanted id)
    (stored : ∀ pair ∈ pairs, db.hasNode kind (side pair) = true)
    : db.Lists kind wanted (.ok (pairs.filterMap (db.nodeById? kind <| side ·))) := by
  refine ⟨pairs.map side, List.pairwise_map.mpr ascending, members, _, rfl, ?_⟩
  rw [map_some_filterMap stored, List.map_map]
  rfl

theorem ascending_links (links : LinkSet)
    : links.toList.Pairwise fun first second => pairOrder first second = .lt :=
  Std.ExtTreeSet.ordered_toList

/-- The nodes of a kind in a context are those with a written link to it. Witness: of pairs with the
same first component, the order decides by the second one.
-/
theorem ToldBy.lists_nodesInContext (told : db.ToldBy log) (sound : db.Sound) (kind : Kind)
    (context : EntityId)
    : db.Lists kind (fun node => ⟨node, context⟩ ∈ writtenLinks kind log)
        (.ok (db.nodesInContext kind context)) := by
  refine lists_of_pairs ?ascending (fun node => ?members) fun pair member => ?stored
  case ascending =>
    refine ((ascending_links _).filter _).imp_of_mem fun {first second} here there before => ?_
    have here : first.1 = context := eq_of_beq (List.mem_filter.mp here).2
    have there : second.1 = context := eq_of_beq (List.mem_filter.mp there).2
    obtain smaller | ⟨_, before⟩ := pairOrder_lt_iff.mp before
    · exact absurd (here.trans there.symm) (Int.ne_of_lt smaller)
    · exact before
  case members =>
    rw [← told.links kind (context, node)]
    simp
  case stored =>
    exact (sound.linksOf pair (Std.ExtTreeSet.mem_toList.mp (List.mem_filter.mp member).1)).1

/-- The contexts of a node are those with a written link to it. Witness: two pairs with the same
second component are in the order of the first ones.
-/
theorem ToldBy.lists_contextsOf (told : db.ToldBy log) (sound : db.Sound) (kind : Kind)
    (node : EntityId)
    : db.Lists .context (fun context => ⟨node, context⟩ ∈ writtenLinks kind log)
        (.ok (db.contextsOf kind node)) := by
  refine lists_of_pairs ?ascending (fun context => ?members) fun pair member => ?stored
  case ascending =>
    refine ((ascending_links _).filter _).imp_of_mem fun {first second} here there before => ?_
    have here : first.2 = node := eq_of_beq (List.mem_filter.mp here).2
    have there : second.2 = node := eq_of_beq (List.mem_filter.mp there).2
    obtain before | ⟨_, smaller⟩ := pairOrder_lt_iff.mp before
    · exact before
    · exact absurd (here.trans there.symm) (Int.ne_of_lt smaller)
  case members =>
    rw [← told.links kind (context, node)]
    simp
  case stored =>
    exact (sound.linksOf pair (Std.ExtTreeSet.mem_toList.mp (List.mem_filter.mp member).1)).2

-----------------------------------------------------------------------------------------
-- Ranges of pairs
-----------------------------------------------------------------------------------------

/-- The nodes of a kind in a context, read as the range of the pairs from the context with the
least id of a machine word to the context with the greatest one.
-/
def scanContext (db : Database) (kind : Kind) (context : EntityId) : List Node :=
  let range := (db.linksOf kind).toList.filter fun pair =>
    (pairOrder (context, Int64.minValue.toInt) pair).isLE
      && (pairOrder pair (context, Int64.maxValue.toInt)).isLE
  range.filterMap (db.nodeById? kind ·.2)

/-- The range holds the nodes of the context as long as their ids are machine words. Witness: the
linked nodes are stored, and stored nodes have the ids from 1 to the number of created ones.
-/
theorem ToldBy.scanContext_eq (told : db.ToldBy log) (sound : db.Sound) (context : EntityId)
    (fits : (createdNodes kind log).length ≤ Int64.maxValue.toInt)
    : db.scanContext kind context = db.nodesInContext kind context := by
  have positive : Int64.minValue.toInt < 1 := by decide
  refine congrArg (List.filterMap _) (List.filter_congr fun pair member => ?_)
  have stored := (sound.linksOf pair (Std.ExtTreeSet.mem_toList.mp member)).1
  have bounds := (told.nodes kind).isSome_iff.mp stored
  rw [Bool.eq_iff_iff, Bool.and_eq_true, pairOrder_isLE_iff, pairOrder_isLE_iff, beq_iff_eq]
  simp only [EntityId] at *
  omega

-----------------------------------------------------------------------------------------
-- Links written again
-----------------------------------------------------------------------------------------

/-- Links of artifacts and of executions that one call stores. -/
abbrev LinkWrite := List Link × List Link

namespace LinkWrite

def call (write : LinkWrite) : Call := .putLinks write.1 write.2

/-- The links of the nodes of a kind. -/
def ofKind (write : LinkWrite) : Kind → List Link
  | .artifact => write.1
  | .execution => write.2
  | .context => []

/-- The writes have the same links, in any order and with any repetitions. -/
def Same (write other : LinkWrite) : Prop :=
  ∀ kind link, link ∈ write.ofKind kind ↔ link ∈ other.ofKind kind

end LinkWrite

/-- All ends of the links are stored. -/
def AcceptsLinks (db : Database) (write : LinkWrite) : Prop :=
  ∀ kind, ∀ link ∈ write.ofKind kind, db.Links kind link

/-- Whether links are accepted is decided by the nodes alone. -/
theorem acceptsLinks_congr (nodes : next.nodes = db.nodes) (write : LinkWrite)
    : next.AcceptsLinks write ↔ db.AcceptsLinks write := by
  simp only [AcceptsLinks, Links, hasNode_congr nodes]

theorem acceptsLinks_same {write other : LinkWrite} (same : write.Same other)
    : db.AcceptsLinks write ↔ db.AcceptsLinks other := by
  simp only [AcceptsLinks, same _ _]

theorem acceptsLinks_iff {write : LinkWrite}
    : db.AcceptsLinks write
      ↔ (∀ link ∈ write.1, db.Links .artifact link)
        ∧ ∀ link ∈ write.2, db.Links .execution link := by
  refine ⟨fun accepts => ⟨accepts .artifact, accepts .execution⟩, fun accepts kind => ?_⟩
  cases kind with
  | artifact => exact accepts.1
  | execution => exact accepts.2
  | context => exact fun _ member => absurd member List.not_mem_nil

/-- The next contents are the old ones with the links of those of the writes that are accepted. -/
structure GainsLinks (db : Database) (writes : List LinkWrite) (next : Database) : Prop where
  others : next = { db with attributions := next.attributions, associations := next.associations }
  links
    : ∀ kind pair, pair ∈ next.linksOf kind
      ↔ pair ∈ db.linksOf kind
        ∨ ∃ write ∈ writes, db.AcceptsLinks write ∧ (⟨pair.2, pair.1⟩ : Link) ∈ write.ofKind kind

theorem GainsLinks.refl (db : Database)
    : db.GainsLinks [] db where
  others := rfl
  links kind pair := by simp

theorem GainsLinks.trans {first rest : List LinkWrite} {middle : Database}
    (sooner : db.GainsLinks first middle) (later : middle.GainsLinks rest next)
    : db.GainsLinks (first ++ rest) next where
  others := by rw [later.others, sooner.others]
  links kind pair := by
    have nodes : middle.nodes = db.nodes := by rw [sooner.others]
    rw [later.links, sooner.links, or_assoc]
    simp only [acceptsLinks_congr nodes, List.mem_append, or_and_right, exists_or]

/-- An accepted write adds its links, and a refused one changes nothing. -/
theorem gainsLinks_serve (db : Database) (write : LinkWrite)
    : db.GainsLinks [write] (serve write.call db).2 := by
  rw [LinkWrite.call, serve]
  cases outcome : db.putLinks write.1 write.2 with
  | ok next =>
      obtain ⟨accepts, rfl⟩ := putLinks_eq_ok_iff.mp outcome
      have accepts := acceptsLinks_iff.mpr accepts
      refine ⟨rfl, fun kind pair => ?_⟩
      simp only [List.mem_singleton, exists_eq_left, accepts, true_and]
      cases kind with
      | artifact => exact mem_insertMany_links
      | execution => exact mem_insertMany_links
      | context => simp [linksOf, LinkWrite.ofKind]
  | error error =>
      have refuses : ¬db.AcceptsLinks write := by
        intro accepts
        rw [putLinks_eq_ok_iff.mpr ⟨acceptsLinks_iff.mp accepts, rfl⟩] at outcome
        cases outcome
      exact ⟨rfl, fun kind pair => by simp [refuses, commit, Except.map]⟩

/-- By induction on the writes. -/
theorem gainsLinks_serveAll (db : Database) (writes : List LinkWrite)
    : db.GainsLinks writes (db.serveAll (writes.map LinkWrite.call)) := by
  induction writes generalizing db with
  | nil => exact .refl db
  | cons write rest ih => exact (gainsLinks_serve db write).trans (ih (serve write.call db).2)

/-- Contents are determined by the members of the sets of their links. -/
theorem eq_of_links (others
      : next = { db with attributions := next.attributions, associations := next.associations })
    (links : ∀ kind pair, pair ∈ next.linksOf kind ↔ pair ∈ db.linksOf kind)
    : next = db := by
  have attributions : next.attributions = db.attributions :=
    Std.ExtTreeSet.ext_mem (links .artifact)
  have associations : next.associations = db.associations :=
    Std.ExtTreeSet.ext_mem (links .execution)
  rw [others, attributions, associations]

/-- The links of writes are the same if each write of one list has the links of one of the other
list.
-/
theorem GainsLinks.unique {writes others : List LinkWrite} {last : Database}
    (first : db.GainsLinks writes next) (second : db.GainsLinks others last)
    (covered : ∀ write ∈ writes, ∃ other ∈ others, write.Same other)
    (covering : ∀ other ∈ others, ∃ write ∈ writes, write.Same other)
    : next = last := by
  refine eq_of_links ?_ fun kind pair => ?_
  · rw [first.others, second.others]
  rw [first.links, second.links]
  refine or_congr_right ⟨?_, ?_⟩
  · rintro ⟨write, member, accepts, linked⟩
    obtain ⟨other, there, same⟩ := covered write member
    exact ⟨other, there, (acceptsLinks_same same).mp accepts, (same kind _).mp linked⟩
  · rintro ⟨other, member, accepts, linked⟩
    obtain ⟨write, there, same⟩ := covering other member
    exact ⟨write, there, (acceptsLinks_same same).mpr accepts, (same kind _).mpr linked⟩

/-- Links that were stored before are accepted and change nothing. -/
theorem ToldBy.serve_again (told : db.ToldBy log) (sound : db.Sound) {write : LinkWrite}
    (old : ∀ kind, ∀ link ∈ write.ofKind kind, link ∈ writtenLinks kind log)
    : Database.serve write.call db = (.ok (), db) := by
  have stored (kind : Kind) (link : Link) (member : link ∈ write.ofKind kind)
      : (link.context, link.node) ∈ db.linksOf kind :=
    (told.links kind (link.context, link.node)).mpr (old kind link member)
  have accepts : db.AcceptsLinks write := fun kind link member =>
    sound.linksOf (link.context, link.node) (stored kind link member)
  have accepted : db.putLinks write.1 write.2 = .ok _ :=
    putLinks_eq_ok_iff.mpr ⟨acceptsLinks_iff.mp accepts, rfl⟩
  have gains := gainsLinks_serve db write
  have kept : (Database.serve write.call db).2 = db := by
    refine eq_of_links gains.others fun kind pair => ?_
    rw [gains.links]
    refine or_iff_left_of_imp ?_
    rintro ⟨_, member, _, linked⟩
    cases List.mem_singleton.mp member
    exact stored kind _ linked
  refine Prod.ext ?_ kept
  change (db.commit ((db.putLinks write.1 write.2).map ((), ·))).1 = .ok ()
  rw [accepted]
  rfl

-----------------------------------------------------------------------------------------
-- Links and events of a history
-----------------------------------------------------------------------------------------

/-- Links and events reflect the history exactly, after any calls, accepted or refused. The nodes of
a context and the contexts of a node are those with a stored link, as they are stored now, each once
and in ascending order of the ids, so that the two directions are converse to each other; a range of
pairs holds the nodes of a context. Writing links again, or the same writes in another order, leads
to the same contents. The events of artifacts or of executions are those of all stored ones, in this
order, whatever the order and the repetitions of the ids.
-/
theorem serveAll_empty_links (calls : List Call)
    : let db := empty.serveAll calls
      let log := store.answers calls .empty
      let linked (kind : Kind) (node context : EntityId) : Prop :=
        ⟨node, context⟩ ∈ writtenLinks kind log
      let reply (call : Call) : Except StoreError call.Reply := (serve call db).1
      ((∀ context,
            db.Lists .artifact (linked .artifact · context) (reply (.getArtifactsByContext context))
            ∧ db.Lists .execution (linked .execution · context)
                (reply (.getExecutionsByContext context)))
          ∧ ∀ node,
            db.Lists .context (linked .artifact node) (reply (.getContextsByArtifact node))
            ∧ db.Lists .context (linked .execution node) (reply (.getContextsByExecution node)))
        ∧ (∀ node context,
            (Names (reply (.getArtifactsByContext context)) node
              ↔ Names (reply (.getContextsByArtifact node)) context)
            ∧ (Names (reply (.getExecutionsByContext context)) node
              ↔ Names (reply (.getContextsByExecution node)) context))
        ∧ (∀ kind context, (createdNodes kind log).length ≤ Int64.maxValue.toInt →
            db.nodesInContext kind context = db.scanContext kind context)
        ∧ ((∀ write : LinkWrite,
              (∀ kind, ∀ link ∈ write.ofKind kind, link ∈ writtenLinks kind log) →
                serve write.call db = (.ok (), db))
          ∧ ∀ writes others : List LinkWrite,
              (∀ write ∈ writes, ∃ other ∈ others, write.Same other) →
              (∀ other ∈ others, ∃ write ∈ writes, write.Same other) →
                db.serveAll (writes.map LinkWrite.call) = db.serveAll (others.map LinkWrite.call))
        ∧ ∀ ids,
            reply (.getEventsByArtifactIds ids)
              = .ok ((writtenEvents log).filter fun event => event.artifact ∈ ids)
            ∧ reply (.getEventsByExecutionIds ids)
              = .ok ((writtenEvents log).filter fun event => event.execution ∈ ids) := by
  intro db log linked reply
  have sound : db.Sound := empty_sound.serveAll calls
  have told : db.ToldBy log := by simpa using empty_toldBy.serveAll empty_sound calls
  have nodes (kind : Kind) := told.lists_nodesInContext sound kind
  have contexts (kind : Kind) := told.lists_contextsOf sound kind
  refine ⟨⟨fun context => ⟨nodes .artifact context, nodes .execution context⟩,
      fun node => ⟨contexts .artifact node, contexts .execution node⟩⟩,
    fun node context => ⟨?artifacts, ?executions⟩,
    fun kind context fits => (told.scanContext_eq sound context fits).symm,
    ⟨fun write old => told.serve_again sound old, fun writes others covered covering => ?order⟩,
    fun ids => ⟨?ofArtifacts, ?ofExecutions⟩⟩
  case artifacts =>
    exact ((nodes .artifact context).names_iff sound).trans
      ((contexts .artifact node).names_iff sound).symm
  case executions =>
    exact ((nodes .execution context).names_iff sound).trans
      ((contexts .execution node).names_iff sound).symm
  case order =>
    exact (gainsLinks_serveAll db writes).unique (gainsLinks_serveAll db others) covered covering
  case ofArtifacts =>
    refine congrArg Except.ok ?_
    rw [eventsOfArtifacts, told.events]
    simp
  case ofExecutions =>
    refine congrArg Except.ok ?_
    rw [eventsOfExecutions, told.events]
    simp

end Database

end LineageLoad
