import LineageLoad.Proofs.Store.Invariant
import LineageLoad.Store.Session

/-!
Which connections share a database, told from what happened before: those to one name share one
until it is dropped, and all others have their own.
-/

namespace LineageLoad

-----------------------------------------------------------------------------------------
-- Instances of databases
-----------------------------------------------------------------------------------------

/-- What tells databases from each other. -/
inductive Instance where
  /-- The database of one connection alone. -/
  | ofConnection (handle : Nat)
  /-- The database of a name after so many drops of earlier ones. -/
  | ofName (name : String) (drops : Nat)
  deriving DecidableEq

namespace Happening

/-- How many connections were opened. -/
def openings : List Happening → Nat
  | [] => 0
  | .opened _ :: past => openings past + 1
  | _ :: past => openings past

/-- How often a database of a name was dropped. -/
def drops (name : String) : List Happening → Nat
  | [] => 0
  | .dropped other existed :: past =>
    drops name past + if existed ∧ other = name then 1 else 0
  | _ :: past => drops name past

/-- The instance that a connection gets that is opened now. -/
def nextInstance (past : List Happening) : ConnectionConfig → Instance
  | .inMemory name => .ofName name (drops name past)
  | .fakeDatabase => .ofConnection (openings past)

/-- The instances of all connections, in the order in which they were opened. -/
def instances : List Happening → List Instance
  | [] => []
  | .opened config :: past => instances past ++ [nextInstance past config]
  | _ :: past => instances past

/-- The instance of a connection that was opened. -/
def instance? (history : List Happening) (handle : Nat) : Option Instance :=
  (instances history)[handle]?

/-- The calls that were served through the connections of an instance, in their order. -/
def callsOf (target : Instance) : List Happening → List Call
  | [] => []
  | .served handle call _ :: past =>
    callsOf target past ++ if instance? past handle = some target then [call] else []
  | _ :: past => callsOf target past

/-- A connection was opened and not closed since. -/
def IsLive (history : List Happening) (handle : Nat) : Prop :=
  handle < openings history ∧ .closed handle ∉ history

variable {past later : List Happening} {name : String} {handle count : Nat} {target : Instance}

theorem length_instances (history : List Happening)
    : (instances history).length = openings history := by
  induction history with
  | nil => rfl
  | cons happening past ih =>
      cases happening with
      | opened config => exact List.length_append.trans (congrArg (· + 1) ih)
      | _ => exact ih

theorem instances_initial (later past : List Happening)
    : instances past <+: instances (later ++ past) := by
  induction later with
  | nil => exact List.prefix_rfl
  | cons happening later ih =>
      cases happening with
      | opened config => exact ih.trans (List.prefix_append _ _)
      | _ => exact ih

/-- A connection keeps its instance. -/
theorem instance?_append (later : List Happening) (opened : handle < openings past)
    : instance? (later ++ past) handle = instance? past handle := by
  obtain ⟨rest, extended⟩ := instances_initial later past
  unfold instance?
  rw [← extended, List.getElem?_append_left (length_instances past ▸ opened)]

theorem openings_le_append (later past : List Happening)
    : openings past ≤ openings (later ++ past) := by
  simpa only [length_instances] using (instances_initial later past).length_le

/-- The connection that was opened last. -/
theorem instance?_opened (past : List Happening) (config : ConnectionConfig)
    : instance? (.opened config :: past) (openings past) = some (nextInstance past config) := by
  unfold instance? instances
  rw [← length_instances, List.getElem?_concat_length]

theorem mem_instances_of_instance? (found : instance? past handle = some target)
    : target ∈ instances past :=
  List.mem_of_getElem? found

/-- Only a name brings connections together. -/
theorem ofConnection_mem_instances (known : .ofConnection handle ∈ instances past)
    : handle < openings past := by
  induction past with
  | nil => cases known
  | cons happening past ih =>
      cases happening with
      | opened config =>
          rcases List.mem_append.mp known with before | now
          · exact Nat.lt_succ_of_lt (ih before)
          · cases config <;> cases List.mem_singleton.mp now
            exact Nat.lt_succ_self _
      | _ => exact ih known

theorem drops_le_append (name : String) (later past : List Happening)
    : drops name past ≤ drops name (later ++ past) := by
  induction later with
  | nil => exact Nat.le_refl _
  | cons happening later ih =>
      cases happening with
      | dropped => exact Nat.le_trans ih (Nat.le_add_right _ _)
      | _ => exact ih

theorem ofName_mem_instances (known : .ofName name count ∈ instances past)
    : count ≤ drops name past := by
  induction past with
  | nil => cases known
  | cons happening past ih =>
      cases happening with
      | opened config =>
          rcases List.mem_append.mp known with before | now
          · exact ih before
          · cases config <;> cases List.mem_singleton.mp now
            exact Nat.le_refl _
      | dropped => exact Nat.le_trans (ih known) (Nat.le_add_right _ _)
      | _ => exact ih known

/-- The count of drops stays the same just as long as the name is not dropped. -/
theorem drops_append (name : String) (between past : List Happening)
    : drops name (between ++ past) = drops name past ↔ .dropped name true ∉ between := by
  induction between with
  | nil => exact ⟨fun _ => List.not_mem_nil, fun _ => rfl⟩
  | cons happening between ih =>
      rw [List.mem_cons, not_or, ← ih]
      have more := drops_le_append name between past
      cases happening with
      | dropped other existed =>
          rw [List.cons_append, drops]
          split
          next dropped =>
            obtain ⟨rfl, rfl⟩ := dropped
            refine ⟨fun same => absurd same (by omega), fun different => absurd rfl different.1⟩
          next kept =>
            refine ⟨fun same => ⟨?_, same⟩, (·.2)⟩
            rintro ⟨⟩
            exact kept ⟨rfl, rfl⟩
      | _ => exact ⟨fun same => ⟨nofun, same⟩, (·.2)⟩

/-- A name has a database while a connection to it was opened after its last drop. -/
theorem ofName_drops_mem_instances
    : .ofName name (drops name past) ∈ instances past
      ↔ ∃ between before, past = between ++ .opened (.inMemory name) :: before
        ∧ .dropped name true ∉ between := by
  constructor
  · intro known
    induction past with
    | nil => cases known
    | cons happening past ih =>
        have earlier (known : .ofName name (drops name (happening :: past)) ∈ instances past)
            : ∃ between before, happening :: past = between ++ .opened (.inMemory name) :: before
              ∧ .dropped name true ∉ between := by
          have same := Nat.le_antisymm (ofName_mem_instances known)
            (drops_le_append name [happening] past)
          have kept := (drops_append name [happening] past).mp same
          obtain ⟨between, before, rfl, since⟩ := ih (same ▸ known)
          refine ⟨happening :: between, before, rfl, ?_⟩
          exact List.not_mem_cons_of_ne_of_not_mem
            (fun first => kept (first ▸ List.mem_singleton_self _)) since
        cases happening with
        | opened config =>
            rcases List.mem_append.mp known with before | now
            · exact earlier before
            · cases config with
              | fakeDatabase => cases List.mem_singleton.mp now
              | inMemory other =>
                  cases List.mem_singleton.mp now
                  exact ⟨[], past, rfl, List.not_mem_nil⟩
        | _ => exact earlier known
  · rintro ⟨between, before, rfl, since⟩
    have same : drops name (between ++ .opened (.inMemory name) :: before) = drops name before :=
      (drops_append name between _).mpr since
    rw [same]
    exact (instances_initial between _).subset
      (List.mem_append_right _ (List.mem_singleton_self _))

/-- Two connections have one instance just if they were opened with one name that was not dropped
between them.
-/
theorem instance?_eq_iff (later between before : List Happening) (first second : ConnectionConfig)
    : let history := later ++ .opened second :: (between ++ .opened first :: before)
      instance? history (openings before)
          = instance? history (openings (between ++ .opened first :: before))
        ↔ ∃ name, first = .inMemory name ∧ second = .inMemory name
          ∧ .dropped name true ∉ between := by
  intro history
  have middle : openings before < openings (between ++ .opened first :: before) :=
    openings_le_append between (.opened first :: before)
  have one : instance? history (openings before) = some (nextInstance before first) := by
    have parts : history = (later ++ .opened second :: between) ++ .opened first :: before := by
      simp only [history, List.append_assoc, List.cons_append]
    rw [← instance?_opened before first, parts]
    exact instance?_append _ (Nat.lt_succ_self _)
  have other : instance? history (openings (between ++ .opened first :: before))
      = some (nextInstance (between ++ .opened first :: before) second) := by
    rw [← instance?_opened _ second]
    exact instance?_append later (Nat.lt_succ_self _)
  rw [one, other, Option.some.injEq]
  cases first with
  | fakeDatabase =>
      refine ⟨fun same => ?_, fun ⟨_, named, _⟩ => nomatch named⟩
      cases second with
      | inMemory => cases same
      | fakeDatabase => exact absurd (Instance.ofConnection.inj same) (Nat.ne_of_lt middle)
  | inMemory name =>
      cases second with
      | fakeDatabase => exact ⟨nofun, fun ⟨_, _, named, _⟩ => nomatch named⟩
      | inMemory other =>
          have kept := drops_append name between (.opened (.inMemory name) :: before)
          constructor
          · intro same
            obtain ⟨rfl, same⟩ := Instance.ofName.inj same
            exact ⟨name, rfl, rfl, kept.mp same.symm⟩
          · rintro ⟨_, ⟨⟩, ⟨⟩, since⟩
            exact congrArg (Instance.ofName name) (kept.mpr since).symm

/-- No call goes to an instance that no connection has. -/
theorem callsOf_eq_nil (unknown : target ∉ instances past)
    : callsOf target past = [] := by
  induction past with
  | nil => rfl
  | cons happening past ih =>
      cases happening with
      | opened config => exact ih fun known => unknown (List.mem_append_left _ known)
      | served handle call reply =>
          have other : instance? past handle ≠ some target :=
            fun found => unknown (mem_instances_of_instance? found)
          rw [callsOf, if_neg other, List.append_nil]
          exact ih unknown
      | _ => exact ih unknown

/-- Calls through the connections of other instances do not count, by induction on what happened
later.
-/
theorem callsOf_append
    (others : ∀ other call reply, .served other call reply ∈ later →
      instance? (later ++ past) other ≠ some target)
    : callsOf target (later ++ past) = callsOf target past := by
  induction later with
  | nil => rfl
  | cons happening later ih =>
      have rest := ih fun other call reply member found => others other call reply
        (List.mem_cons_of_mem _ member) <| by
          have opened := List.getElem?_eq_some_iff.mp found |>.1
          exact (instance?_append [happening] (length_instances _ ▸ opened)).trans found
      cases happening with
      | served other call reply =>
          have elsewhere : instance? (later ++ past) other ≠ some target :=
            others other call reply List.mem_cons_self
          rw [List.cons_append, callsOf, if_neg elsewhere, List.append_nil]
          exact rest
      | _ => exact rest

/-- The contents that the calls of an instance make of empty ones. -/
def contentsOf (target : Instance) (history : List Happening) : Database :=
  Database.empty.serveAll (callsOf target history)

theorem contentsOf_served_same {call : Call} {reply : Except StoreError call.Reply}
    (through : instance? past handle = some target)
    : contentsOf target (.served handle call reply :: past)
      = (Database.serve call (contentsOf target past)).2 := by
  rw [contentsOf, callsOf, if_pos through]
  exact List.foldl_append

theorem contentsOf_served_other {call : Call} {reply : Except StoreError call.Reply}
    (through : instance? past handle ≠ some target)
    : contentsOf target (.served handle call reply :: past) = contentsOf target past := by
  rw [contentsOf, callsOf, if_neg through, List.append_nil]
  rfl

end Happening

end LineageLoad
