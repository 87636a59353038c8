import LineageLoad.Proofs.Store.Instances
import Mathlib.Data.List.Induction

/-!
What programs see of the databases of a server: each open connection reaches the one of its
instance, and what is answered through it depends on nothing but the calls of that instance.
-/

namespace LineageLoad

-----------------------------------------------------------------------------------------
-- The databases of a server
-----------------------------------------------------------------------------------------

open Happening

theorem getElem?_concat_eq_some {α : Type} {list : List α} {last item : α} {position : Nat}
    : (list ++ [last])[position]? = some item
      ↔ list[position]? = some item ∨ position = list.length ∧ last = item := by
  rcases Nat.lt_trichotomy position list.length with inside | rfl | beyond
  · simp [List.getElem?_append_left inside, Nat.ne_of_lt inside]
  · simp
  · rw [List.getElem?_eq_none (List.length_append ▸ beyond),
      List.getElem?_eq_none (Nat.le_of_lt beyond)]
    simp [Nat.ne_of_gt beyond]

/-- The databases of a server belong to different instances: they have the contents of these, and a
name leads to the one since its last drop.
-/
structure Server.BelongsTo (server : Server) (owners : List Instance) (history : List Happening)
    : Prop where
  different : owners.Nodup
  databases
    : ∀ position : Nat,
      server.databases[position]? = owners[position]?.map (contentsOf · history)
  names
    : ∀ (name : String) (connection : Connection), server.names[name]? = some connection
      ↔ owners[connection]? = some (.ofName name (drops name history))

namespace Server.BelongsTo

variable {server : Server} {owners : List Instance} {history : List Happening} {name : String}
  {connection : Connection} {owner : Instance}

theorem size (belongs : server.BelongsTo owners history)
    : server.databases.size = owners.length := by
  have same (position : Nat) : server.databases.size ≤ position ↔ owners.length ≤ position := by
    rw [← Array.getElem?_eq_none_iff, belongs.databases, Option.map_eq_none_iff,
      List.getElem?_eq_none_iff]
  exact Nat.le_antisymm ((same _).mpr (Nat.le_refl _)) ((same _).mp (Nat.le_refl _))

/-- Different databases belong to different instances. -/
theorem position_eq (belongs : server.BelongsTo owners history) {first second : Nat}
    (one : owners[first]? = some owner) (other : owners[second]? = some owner)
    : first = second := by
  have inside := (List.getElem?_eq_some_iff.mp one).1
  exact (List.getElem?_inj inside belongs.different).mp (one.trans other.symm)

theorem names_contains (belongs : server.BelongsTo owners history)
    : server.names.contains name = true ↔ .ofName name (drops name history) ∈ owners := by
  rw [Std.ExtTreeMap.contains_eq_isSome_getElem?, Option.isSome_iff_exists,
    List.mem_iff_getElem?]
  exact exists_congr fun connection => belongs.names name connection

/-- A new database has the contents of an instance without calls. -/
theorem databases_create (belongs : server.BelongsTo owners history)
    (unused : callsOf owner history = []) (position : Nat)
    : server.create.2.databases[position]?
      = (owners ++ [owner])[position]?.map (contentsOf · history) := by
  change (server.databases.push .empty)[position]? = _
  rw [Array.getElem?_push, belongs.size, belongs.databases, List.getElem?_append]
  split
  next new =>
    subst new
    rw [if_neg (Nat.lt_irrefl _), Nat.sub_self]
    exact congrArg some (congrArg Database.empty.serveAll unused).symm
  next other =>
    split
    · rfl
    · next beyond =>
      rw [List.getElem?_eq_none (Nat.le_of_not_lt beyond), List.getElem?_eq_none]
      exact Nat.sub_pos_of_lt (Nat.lt_of_le_of_ne (Nat.le_of_not_lt beyond) (Ne.symm other))

theorem different_concat (belongs : server.BelongsTo owners history) (fresh : owner ∉ owners)
    : (owners ++ [owner]).Nodup :=
  List.nodup_append.mpr ⟨belongs.different, List.pairwise_singleton _ _,
    fun _ known _ new same => fresh (List.mem_singleton.mp new ▸ same ▸ known)⟩

/-- What a new connection reaches belongs to its instance: the database that the name has, or a new
one.
-/
theorem connect (belongs : server.BelongsTo owners history) (config : ConnectionConfig)
    (unused : ∀ owner, owner ∉ owners → callsOf owner history = [])
    (fresh : .ofConnection (openings history) ∉ owners)
    : ∃ more, (∀ owner, owner ∈ owners ++ more
        ↔ owner ∈ owners ++ [nextInstance history config])
      ∧ (owners ++ more)[(server.connect config).1]? = some (nextInstance history config)
      ∧ (server.connect config).2.BelongsTo (owners ++ more) history := by
  have size := belongs.size
  cases config with
  | fakeDatabase =>
      refine ⟨[.ofConnection (openings history)], fun _ => Iff.rfl,
        getElem?_concat_eq_some.mpr (.inr ⟨size, rfl⟩),
        belongs.different_concat fresh, belongs.databases_create (unused _ fresh), ?_⟩
      intro name connection
      rw [getElem?_concat_eq_some]
      refine (belongs.names name connection).trans ⟨.inl, ?_⟩
      exact (·.resolve_right fun ⟨_, same⟩ => nomatch same)
  | inMemory name =>
      cases named : server.names[name]? with
      | some connection =>
          have reached := (belongs.names name connection).mp named
          refine ⟨[], fun owner => ?_, ?_, ?_⟩
          · rw [List.append_nil, List.mem_append, List.mem_singleton]
            refine ⟨.inl, (·.elim id fun same => ?_)⟩
            exact same ▸ List.mem_of_getElem? reached
          · simp only [Server.connect, named, List.append_nil]
            exact reached
          · simpa only [Server.connect, named, List.append_nil] using belongs
      | none =>
          have unknown : .ofName name (drops name history) ∉ owners := by
            rw [← belongs.names_contains, Std.ExtTreeMap.contains_eq_isSome_getElem?, named]
            exact Bool.false_ne_true
          refine ⟨[.ofName name (drops name history)], fun _ => Iff.rfl, ?_, ?_⟩
          · simp only [Server.connect, named]
            exact getElem?_concat_eq_some.mpr (.inr ⟨size, rfl⟩)
          · simp only [Server.connect, named]
            refine ⟨belongs.different_concat unknown,
              belongs.databases_create (unused _ unknown), fun other connection => ?_⟩
            rw [getElem?_concat_eq_some, Std.ExtTreeMap.getElem?_insert]
            by_cases same : name = other
            · subst same
              have absent : owners[connection]? ≠ some (.ofName name (drops name history)) :=
                fun found => unknown (List.mem_of_getElem? found)
              rw [if_pos Std.ReflCmp.compare_self, Option.some.injEq, or_iff_right absent]
              exact ⟨fun found => ⟨found ▸ size, rfl⟩, fun last => size.trans last.1.symm⟩
            · rw [if_neg (mt Std.LawfulEqCmp.eq_of_compare same)]
              refine (belongs.names other connection).trans ⟨.inl, ?_⟩
              exact (·.resolve_right fun last => same (Instance.ofName.inj last.2).1)

/-- A drop takes the name from its database, so that the next one belongs to a new instance. -/
theorem dropDatabase (belongs : server.BelongsTo owners history) (name : String)
    (bounded : ∀ name count, .ofName name count ∈ owners → count ≤ drops name history)
    : (server.dropDatabase name).2.BelongsTo owners
        (.dropped name (server.dropDatabase name).1 :: history) where
  different := belongs.different
  databases := belongs.databases
  names other connection := by
    change (server.names.erase name)[other]? = some connection ↔ _
    rw [Std.ExtTreeMap.getElem?_erase]
    by_cases same : name = other
    · subst same
      rw [if_pos Std.ReflCmp.compare_self]
      refine ⟨nofun, fun found => ?_⟩
      have known := List.mem_of_getElem? found
      by_cases existed : server.names.contains name = true
      · have most := bounded name _ known
        simp only [drops, Server.dropDatabase, existed, and_self, if_true] at most
        exact absurd most (Nat.not_succ_le_self _)
      · refine absurd (belongs.names_contains.mpr ?_) existed
        simpa [drops, Server.dropDatabase, existed] using known
    · rw [if_neg (mt Std.LawfulEqCmp.eq_of_compare same), belongs.names]
      simp only [drops, same, and_false, if_false, Nat.add_zero]

/-- A call changes the database of its instance and no other. -/
theorem serve (belongs : server.BelongsTo owners history) {handle : Nat}
    (reached : owners[connection]? = some owner)
    (through : instance? history handle = some owner) (call : Call)
    : let (reply, later) := (store connection).serve call server
      reply = (Database.serve call (contentsOf owner history)).1
        ∧ later.BelongsTo owners (.served handle call reply :: history) := by
  have stored : server.databases[connection]? = some (contentsOf owner history) := by
    rw [belongs.databases, reached]
    rfl
  have inside := (Array.getElem?_eq_some_iff.mp stored).1
  have found : server.database connection = contentsOf owner history := by
    simp [Server.database, Array.getD_eq_getD_getElem?, stored]
  refine ⟨by simp only [store, found], belongs.different, fun position => ?_, belongs.names⟩
  simp only [store, found]
  by_cases same : connection = position
  · subst same
    rw [Array.getElem?_setIfInBounds_self_of_lt inside, reached]
    exact congrArg some (contentsOf_served_same through).symm
  · rw [Array.getElem?_setIfInBounds_ne same, belongs.databases]
    refine Option.map_congr fun other found => (contentsOf_served_other fun own => same ?_).symm
    cases through.symm.trans own
    exact belongs.position_eq reached found

end Server.BelongsTo

-----------------------------------------------------------------------------------------
-- Programs
-----------------------------------------------------------------------------------------

namespace Session

theorem connection?_eq_some {session : Session} {handle : Nat} {connection : Connection}
    : session.connection? handle = some connection
      ↔ session.handles[handle]? = some (some connection) :=
  Option.join_eq_some_iff

theorem connection?_connect {session : Session} {config : ConnectionConfig} {handle : Nat}
    {connection : Connection}
    : (session.act (.connect config)).connection? handle = some connection
      ↔ session.connection? handle = some connection
        ∨ handle = session.handles.length ∧ (session.server.connect config).1 = connection := by
  rw [connection?_eq_some, connection?_eq_some]
  refine getElem?_concat_eq_some.trans (or_congr_right (and_congr_right fun _ => ?_))
  exact Option.some_inj

/-- Each open connection reaches the database of its instance. -/
structure Isolates (session : Session) (owners : List Instance) : Prop where
  belongs : session.server.BelongsTo owners session.history
  known : ∀ owner, owner ∈ owners ↔ owner ∈ instances session.history
  counted : session.handles.length = openings session.history
  closed : ∀ handle, .closed handle ∈ session.history → handle < openings session.history
  isOpen
    : ∀ handle, (∃ connection, session.connection? handle = some connection)
      ↔ IsLive session.history handle
  reached
    : ∀ handle connection, session.connection? handle = some connection →
      ∃ owner, owners[connection]? = some owner ∧ instance? session.history handle = some owner

variable {session : Session} {owners : List Instance}

theorem isolates_init
    : Isolates {} [] where
  belongs := {
    different := List.nodup_nil
    databases position := by simp [Server.empty]
    names name connection := by simp [Server.empty]
  }
  known _ := Iff.rfl
  counted := rfl
  closed _ member := nomatch member
  isOpen handle := by simp [connection?, IsLive, openings]
  reached _ _ found := by simp [connection?] at found

namespace Isolates

theorem unused (isolates : session.Isolates owners) (owner : Instance) (unknown : owner ∉ owners)
    : callsOf owner session.history = [] :=
  callsOf_eq_nil (mt (isolates.known owner).mpr unknown)

theorem bounded (isolates : session.Isolates owners) (name : String) (count : Nat)
    (known : .ofName name count ∈ owners)
    : count ≤ drops name session.history :=
  ofName_mem_instances ((isolates.known _).mp known)

theorem connect (isolates : session.Isolates owners) (config : ConnectionConfig)
    : ∃ more, (session.act (.connect config)).Isolates (owners ++ more) := by
  obtain ⟨more, known, reached, belongs⟩ := isolates.belongs.connect config isolates.unused
    fun old => Nat.lt_irrefl _ (ofConnection_mem_instances ((isolates.known _).mp old))
  have counted := isolates.counted
  refine ⟨more, {
    belongs := ⟨belongs.different, belongs.databases, belongs.names⟩
    known owner := ?known
    counted := List.length_append.trans (congrArg (· + 1) counted)
    closed handle member := ?closed
    isOpen handle := ?isOpen
    reached handle connection found := ?reached
  }⟩
  case known =>
    rw [known, List.mem_append, isolates.known, ← List.mem_append]
    rfl
  case closed =>
    exact Nat.lt_succ_of_lt (isolates.closed handle ((List.mem_cons.mp member).resolve_left nofun))
  case isOpen =>
    have before := isolates.isOpen handle
    have never := mt (isolates.closed handle)
    simp only [connection?_connect, exists_or, before, exists_and_left, exists_eq', and_true,
      counted]
    constructor
    · rintro (⟨old, absent⟩ | rfl)
      · exact ⟨Nat.lt_succ_of_lt old, List.not_mem_cons_of_ne_of_not_mem nofun absent⟩
      · exact ⟨Nat.lt_succ_self _,
          List.not_mem_cons_of_ne_of_not_mem nofun (never (Nat.lt_irrefl _))⟩
    · rintro ⟨opened, absent⟩
      exact (Nat.lt_succ_iff_lt_or_eq.mp opened).imp
        (⟨·, fun member => absent (List.mem_cons_of_mem _ member)⟩) id
  case reached =>
    rcases connection?_connect.mp found with old | ⟨rfl, rfl⟩
    · obtain ⟨owner, belongs, has⟩ := isolates.reached handle connection old
      have opened := ((isolates.isOpen handle).mp ⟨connection, old⟩).1
      have inside := (List.getElem?_eq_some_iff.mp belongs).1
      exact ⟨owner, (List.getElem?_append_left inside).trans belongs,
        (instance?_append [.opened config] opened).trans has⟩
    · exact ⟨_, reached, counted ▸ instance?_opened session.history config⟩

theorem close (isolates : session.Isolates owners) (handle : Nat)
    (opened : IsLive session.history handle)
    : ({ session with handles := session.handles.set handle none }.record
        (.closed handle)).Isolates owners := by
  have connection?_close (other : Nat) (connection : Connection)
      : ({ session with handles := session.handles.set handle none }.record
          (.closed handle)).connection? other = some connection
        ↔ handle ≠ other ∧ session.connection? other = some connection := by
    rw [connection?_eq_some, connection?_eq_some]
    change (session.handles.set handle none)[other]? = _ ↔ _
    rw [List.getElem?_set]
    split <;> simp [*]
  refine {
    belongs := ⟨isolates.belongs.different, isolates.belongs.databases, isolates.belongs.names⟩
    known := isolates.known
    counted := List.length_set.trans isolates.counted
    closed other member := ?closed
    isOpen other := ?isOpen
    reached other connection found := ?reached
  }
  case closed =>
    rcases List.mem_cons.mp member with now | before
    · exact Happening.closed.inj now ▸ opened.1
    · exact isolates.closed other before
  case isOpen =>
    have elsewhere : handle ≠ other
        ↔ .closed handle ≠ Happening.closed other := not_congr (by rw [Happening.closed.injEq])
    simp only [connection?_close, exists_and_left, isolates.isOpen, elsewhere]
    rw [IsLive, IsLive, Session.record, List.mem_cons, not_or, ne_comm, and_left_comm]
    rfl
  case reached => exact isolates.reached other connection ((connection?_close other _).mp found).2

/-- A step that opens nothing and closes nothing leaves the connections as they are. -/
theorem record (isolates : session.Isolates owners) {server : Server} {happening : Happening}
    (belongs : server.BelongsTo owners (happening :: session.history))
    (opensNone : ∀ config, happening ≠ .opened config)
    (closesNone : ∀ handle, happening ≠ .closed handle)
    : ({ session with server }.record happening).Isolates owners := by
  have sameInstances : instances (happening :: session.history) = instances session.history := by
    cases happening with
    | opened config => exact absurd rfl (opensNone config)
    | _ => rfl
  have sameOpenings : openings (happening :: session.history) = openings session.history := by
    cases happening with
    | opened config => exact absurd rfl (opensNone config)
    | _ => rfl
  have sameClosed (handle : Nat) : .closed handle ∈ happening :: session.history
      ↔ .closed handle ∈ session.history := by
    rw [List.mem_cons, or_iff_right (closesNone handle).symm]
  exact {
    belongs
    known owner := (isolates.known owner).trans (sameInstances ▸ Iff.rfl)
    counted := isolates.counted.trans sameOpenings.symm
    closed handle member :=
      Nat.lt_of_lt_of_eq (isolates.closed handle ((sameClosed handle).mp member)) sameOpenings.symm
    isOpen handle := (isolates.isOpen handle).trans
      (by rw [IsLive, IsLive, Session.record, sameClosed, sameOpenings])
    reached handle connection found := by
      unfold instance? Session.record
      rw [sameInstances]
      exact isolates.reached handle connection found
  }

theorem passOver (isolates : session.Isolates owners) (action : Action)
    : (session.record (.passedOver action)).Isolates owners :=
  isolates.record
    ⟨isolates.belongs.different, isolates.belongs.databases, isolates.belongs.names⟩ nofun nofun

/-- By the kind of the step. -/
theorem act (isolates : session.Isolates owners) (action : Action)
    : ∃ more, (session.act action).Isolates (owners ++ more) := by
  cases action with
  | connect config => exact isolates.connect config
  | close handle =>
      refine ⟨[], ?_⟩
      rw [List.append_nil, Session.act]
      split
      · exact isolates.passOver _
      next found => exact isolates.close handle ((isolates.isOpen handle).mp ⟨_, found⟩)
  | dropDatabase name =>
      refine ⟨[], ?_⟩
      rw [List.append_nil]
      exact isolates.record (isolates.belongs.dropDatabase name isolates.bounded) nofun nofun
  | call handle call =>
      refine ⟨[], ?_⟩
      rw [List.append_nil, Session.act]
      split
      · exact isolates.passOver _
      next connection found =>
        obtain ⟨owner, reached, through⟩ := isolates.reached handle connection found
        exact isolates.record (isolates.belongs.serve reached through call).2 nofun nofun

/-- A call through an open connection is answered from the contents of its instance. -/
theorem history_call (isolates : session.Isolates owners) {handle : Nat}
    (opened : IsLive session.history handle) (call : Call)
    : ∃ owner, instance? session.history handle = some owner
      ∧ (session.act (.call handle call)).history
        = .served handle call (Database.serve call (contentsOf owner session.history)).1
          :: session.history := by
  obtain ⟨connection, found⟩ := (isolates.isOpen handle).mpr opened
  obtain ⟨owner, reached, through⟩ := isolates.reached handle connection found
  refine ⟨owner, through, ?_⟩
  simp only [Session.act, found, Session.record]
  rw [(isolates.belongs.serve reached through call).1]

theorem isOpen_of_served (isolates : session.Isolates owners) {handle : Nat} {call : Call}
    {reply : Except StoreError call.Reply}
    (served : (session.act (.call handle call)).history
      = .served handle call reply :: session.history)
    : IsLive session.history handle := by
  cases found : session.connection? handle with
  | none => simp [Session.act, found, Session.record] at served
  | some connection => exact (isolates.isOpen handle).mp ⟨connection, found⟩

theorem not_isOpen_of_passedOver (isolates : session.Isolates owners) {action : Action}
    (passed : (session.act action).history = .passedOver action :: session.history)
    : ∃ handle, ¬IsLive session.history handle
      ∧ (action = .close handle ∨ ∃ call, action = .call handle call) := by
  cases action with
  | connect => cases passed
  | dropDatabase => cases passed
  | close handle =>
      refine ⟨handle, fun opened => ?_, .inl rfl⟩
      obtain ⟨connection, found⟩ := (isolates.isOpen handle).mpr opened
      simp [Session.act, found, Session.record] at passed
  | call handle call =>
      refine ⟨handle, fun opened => ?_, .inr ⟨call, rfl⟩⟩
      obtain ⟨connection, found⟩ := (isolates.isOpen handle).mpr opened
      simp [Session.act, found, Session.record] at passed

end Isolates

theorem run_concat (script : List Action) (action : Action)
    : run (script ++ [action]) = (run script).act action :=
  List.foldl_append

/-- By induction on the steps, from the last one. -/
theorem isolates_run (script : List Action)
    : ∃ owners, (run script).Isolates owners := by
  induction script using List.reverseRec with
  | nil => exact ⟨[], isolates_init⟩
  | append_singleton script action ih =>
      obtain ⟨owners, isolates⟩ := ih
      obtain ⟨more, next⟩ := isolates.act action
      exact ⟨owners ++ more, run_concat script action ▸ next⟩

theorem history_act (session : Session) (action : Action)
    : ∃ happening, (session.act action).history = happening :: session.history
      ∧ happening.action = action := by
  cases action with
  | connect config => exact ⟨_, rfl, rfl⟩
  | dropDatabase name => exact ⟨_, rfl, rfl⟩
  | close handle =>
      rw [Session.act]
      split <;> exact ⟨_, rfl, rfl⟩
  | call handle call =>
      rw [Session.act]
      split <;> exact ⟨_, rfl, rfl⟩

/-- Something becomes of each step, by induction on the steps, from the last one. -/
theorem history_run (script middle : List Action)
    : ∃ later, (run (script ++ middle)).history = later ++ (run script).history
      ∧ later.map Happening.action = middle.reverse := by
  induction middle using List.reverseRec with
  | nil => exact ⟨[], by rw [List.append_nil]; rfl, rfl⟩
  | append_singleton middle action ih =>
      obtain ⟨later, extended, actions⟩ := ih
      obtain ⟨happening, last, of⟩ := history_act (run (script ++ middle)) action
      refine ⟨happening :: later, ?_, ?_⟩
      · rw [← List.append_assoc, run_concat, last, extended, List.cons_append]
      · rw [List.map_cons, actions, of, List.reverse_concat]

/-- What happened became of one step of the script, after those before it. -/
theorem exists_of_history {script : List Action} {later past : List Happening}
    {happening : Happening} (split : (run script).history = later ++ happening :: past)
    : ∃ before, (run before).history = past
      ∧ ((run before).act happening.action).history = happening :: past := by
  induction script using List.reverseRec generalizing later with
  | nil => cases later <;> cases split
  | append_singleton script action ih =>
      obtain ⟨last, next, rfl⟩ := history_act (run script) action
      rw [run_concat, next] at split
      cases later with
      | nil =>
          obtain ⟨rfl, rfl⟩ := List.cons.inj split
          exact ⟨script, rfl, next⟩
      | cons _ later => exact ih (List.cons.inj split).2

/-- A connection shares its database with those that were opened with its name while the name was
not dropped, and with no other. Every call through an open connection is answered as if the calls
through those that share its database had been made alone, one after the other, on empty contents;
so other steps in between never change what it is answered. A drop finds a database just if the
name was connected to since its last one.
-/
theorem run_isolated (script : List Action)
    : let history := (run script).history
      history.map Happening.action = script.reverse
      ∧ (∀ later handle call reply past, history = later ++ .served handle call reply :: past →
          IsLive past handle
          ∧ ∃ owner, instance? past handle = some owner
            ∧ reply = (Database.serve call (Database.empty.serveAll (callsOf owner past))).1)
      ∧ (∀ later action past, history = later ++ .passedOver action :: past →
          ∃ handle, ¬IsLive past handle
          ∧ (action = .close handle ∨ ∃ call, action = .call handle call))
      ∧ (∀ later name existed past, history = later ++ .dropped name existed :: past →
          (existed = true ↔ ∃ between before,
            past = between ++ .opened (.inMemory name) :: before
            ∧ .dropped name true ∉ between))
      ∧ (∀ later second between first before,
          history = later ++ .opened second :: (between ++ .opened first :: before) →
          (instance? history (openings before)
              = instance? history (openings (between ++ .opened first :: before))
            ↔ ∃ name, first = .inMemory name ∧ second = .inMemory name
              ∧ .dropped name true ∉ between))
      ∧ ∀ middle handle call, IsLive history handle → .close handle ∉ middle →
          (∀ other call, .call other call ∈ middle →
            instance? (run (script ++ middle)).history other
              ≠ instance? (run (script ++ middle)).history handle) →
          ∃ reply, (run (script ++ [.call handle call])).history
              = .served handle call reply :: history
            ∧ (run (script ++ middle ++ [.call handle call])).history
              = .served handle call reply :: (run (script ++ middle)).history := by
  intro history
  refine ⟨?happens, ?serves, ?passes, ?drops, ?shares, ?isolates⟩
  case happens =>
    obtain ⟨later, extended, actions⟩ := history_run [] script
    rw [← actions]
    exact congrArg _ (extended.trans (List.append_nil later))
  case serves =>
    intro later handle call reply past split
    obtain ⟨before, rfl, next⟩ := exists_of_history split
    obtain ⟨owners, isolates⟩ := isolates_run before
    have opened := isolates.isOpen_of_served next
    obtain ⟨owner, through, answered⟩ := isolates.history_call opened call
    refine ⟨opened, owner, through, ?_⟩
    cases (List.cons.inj (next.symm.trans answered)).1
    rfl
  case passes =>
    intro later action past split
    obtain ⟨before, rfl, next⟩ := exists_of_history split
    obtain ⟨owners, isolates⟩ := isolates_run before
    exact isolates.not_isOpen_of_passedOver next
  case drops =>
    intro later name existed past split
    obtain ⟨before, rfl, next⟩ := exists_of_history split
    obtain ⟨owners, isolates⟩ := isolates_run before
    obtain ⟨⟨⟩, -⟩ := List.cons.inj next
    exact isolates.belongs.names_contains.trans
      ((isolates.known _).trans ofName_drops_mem_instances)
  case shares =>
    intro later second between first before split
    rw [split]
    exact instance?_eq_iff later between before first second
  case isolates =>
    intro middle handle call opened kept others
    obtain ⟨later, extended, actions⟩ := history_run script middle
    obtain ⟨owners, isolates⟩ := isolates_run script
    obtain ⟨owner, through, answered⟩ := isolates.history_call opened call
    have ofMiddle {happening : Happening} (member : happening ∈ later)
        : happening.action ∈ middle := by
      rw [← List.mem_reverse, ← actions]
      exact List.mem_map_of_mem member
    have opened' : IsLive (run (script ++ middle)).history handle := by
      rw [extended]
      refine ⟨Nat.lt_of_lt_of_le opened.1 (openings_le_append later _), fun member => ?_⟩
      exact (List.mem_append.mp member).elim (fun new => kept (ofMiddle new)) opened.2
    obtain ⟨owners', isolates'⟩ := isolates_run (script ++ middle)
    obtain ⟨owner', through', answered'⟩ := isolates'.history_call opened' call
    have same : instance? (run (script ++ middle)).history handle = some owner := by
      rw [extended]
      exact (instance?_append later opened.1).trans through
    cases same.symm.trans through'
    have contents : contentsOf owner (run (script ++ middle)).history
        = contentsOf owner history := by
      rw [extended]
      refine congrArg Database.empty.serveAll
        (callsOf_append fun other call reply member found => ?_)
      exact others other call (ofMiddle member) ((extended ▸ found).trans same.symm)
    rw [run_concat, run_concat]
    exact ⟨_, answered, contents ▸ answered'⟩

/-- A connection keeps its data when its name is dropped, a later one to the name finds none of
them, and the drop finds a database.
-/
theorem run_dropped
    : let script := [.connect (.inMemory "bench"),
        .call 0 (.putType .context ⟨none, "Run", ∅⟩ false), .dropDatabase "bench",
        .connect (.inMemory "bench"), .call 1 (.getTypes .context)]
      let history := (run script).history
      instance? history 0 ≠ instance? history 1
      ∧ (∃ later past, history = later ++ .dropped "bench" true :: past)
      ∧ (∃ past, history = .served 1 (.getTypes .context) (.ok []) :: past)
      ∧ (run (script ++ [.call 0 (.getType .context "Run")])).history
        = .served 0 (.getType .context "Run") (.ok (some ⟨some 1, "Run", ∅⟩)) :: history := by
  intro script history
  have happened : history = [.served 1 (.getTypes .context) (.ok []), .opened (.inMemory "bench"),
      .dropped "bench" true, .served 0 (.putType .context ⟨none, "Run", ∅⟩ false) (.ok 1),
      .opened (.inMemory "bench")] := by
    rfl
  obtain ⟨-, -, -, -, shares, -⟩ := run_isolated script
  have same := shares [.served 1 (.getTypes .context) (.ok [])] (.inMemory "bench")
    [.dropped "bench" true, .served 0 (.putType .context ⟨none, "Run", ∅⟩ false) (.ok 1)]
    (.inMemory "bench") [] happened
  have split : history = [.served 1 (.getTypes .context) (.ok []), .opened (.inMemory "bench")]
      ++ .dropped "bench" true :: _ :=
    happened
  refine ⟨fun equal => ?_, ⟨_, _, split⟩, ⟨_, happened⟩, ?_⟩
  · obtain ⟨name, named, -, since⟩ := same.mp equal
    cases named
    exact since List.mem_cons_self
  · rfl

end Session
end LineageLoad
