import LineageLoad.Proofs.Workload.Successes

/-!
What the actions of a preparation guarantee: each answers what is claimed of it or finds that a
precondition of its load is missing, whatever words are drawn. Draws that are given up count as such
a precondition.
-/

namespace LineageLoad

/-- How an action ends: it answers a value as (after) says, or a precondition is missing. -/
inductive Ends {s α : Type} (after : α → s → Prop) : Except BenchError α × s → Prop
  | answered {value state} (holds : after value state) : Ends after (.ok value, state)
  | lacking {error state} (category : error.category = .failedPrecondition)
    : Ends after (.error error, state)

/-- An action that starts in a state with (before) ends as (after) says. -/
def Ensures {s α : Type} (before : s → Prop) (action : ExceptT BenchError (StateM s) α)
    (after : α → s → Prop) : Prop :=
  ∀ state, before state → Ends after (action.run state)

section

variable {s α β : Type} {before : s → Prop} {action : ExceptT BenchError (StateM s) α}
  {next : α → ExceptT BenchError (StateM s) β} {value : α}

theorem Ensures.pure {after : α → s → Prop} (holds : ∀ state, before state → after value state)
    : Ensures before (pure value) after :=
  fun state start => .answered (holds state start)

theorem Ensures.branch {condition : Prop} [Decidable condition]
    {other : ExceptT BenchError (StateM s) α} {after : α → s → Prop}
    (yes : condition → Ensures before action after) (no : ¬condition → Ensures before other after)
    : Ensures before (if condition then action else other) after := by
  split
  · next holds => exact yes holds
  · next fails => exact no fails

/-- A precondition that is checked holds for what follows on the check. -/
theorem Ensures.check {missing : Prop} [Decidable missing] {error : BenchError}
    {rest : Unit → ExceptT BenchError (StateM s) α} {after : α → s → Prop}
    (category : error.category = .failedPrecondition)
    (present : ¬missing → Ensures before (rest ()) after)
    : Ensures before (if missing then MonadExcept.throw error >>= rest else rest ()) after :=
  .branch (fun _ _ _ => .lacking category) present

/-- Two actions one after the other: the second one starts where the first one ends. -/
theorem Ensures.bind {middle : α → s → Prop} {after : β → s → Prop}
    (first : Ensures before action middle)
    (rest : ∀ value, Ensures (middle value) (next value) after)
    : Ensures before (action >>= next) after := by
  intro state start
  have ends := first state start
  change Ends after (ExceptT.bindCont next (action.run state).1 (action.run state).2)
  generalize action.run state = ended at ends ⊢
  cases ends with
  | answered holds => exact rest _ _ holds
  | lacking category => exact .lacking category

theorem Ensures.weaken {after allowed : α → s → Prop} (ensures : Ensures before action after)
    (weaker : ∀ value state, after value state → allowed value state)
    : Ensures before action allowed := by
  intro state start
  have ends := ensures state start
  generalize action.run state = ended at ends ⊢
  cases ends with
  | answered holds => exact .answered (weaker _ _ holds)
  | lacking category => exact .lacking category

/-- An action may start with one whose answer is known. -/
theorem Answers.ensures {after : β → s → Prop} (first : Answers before action value)
    (rest : Ensures before (next value) after)
    : Ensures before (action >>= next) after := by
  intro state start
  obtain ⟨kept, run, holds⟩ := first.run_bind next start
  rw [run]
  exact rest kept holds

end

/-- What is yielded is guaranteed. -/
theorem Yields.ensures {s α : Type} {before : s → Prop} {after : α → s → Prop}
    {action : ExceptT BenchError (StateM s) α} (yields : Yields before action after)
    : Ensures before action after := by
  intro state start
  obtain ⟨value, next, run, holds⟩ := yields state start
  rw [run]
  exact .answered holds

/-- What succeeds under a condition lacks a precondition without it. -/
theorem SucceedsIff.ensures {s α : Type} {possible : Prop} {before : s → Prop}
    {after : α → s → Prop} {action : ExceptT BenchError (StateM s) α}
    (succeeds : SucceedsIff possible before action after)
    : Ensures before action after := by
  intro state start
  have resolves := succeeds state start
  generalize action.run state = ended at resolves ⊢
  cases resolves with
  | succeeded _ holds => exact .answered holds
  | refused _ category => exact .lacking category

section

variable {name : String} {connection : Connection} {db : Database}

/-- A read through a connection answers what the contents say. -/
theorem Answers.request {call : Call} {reply : call.Reply}
    (served : Database.serve call db = (.ok reply, db))
    : Answers (Server.Reaches · name connection db) ((Server.store connection).request call)
        reply :=
  (Server.mirrors name connection db).request served

theorem Answers.existingTypes (kind : Kind)
    : Answers (Server.Reaches · name connection db)
        ((Server.store connection).existingTypes kind) (db.typesOf kind) :=
  .request rfl

theorem Answers.existingNodes (kind : Kind)
    : Answers (Server.Reaches · name connection db)
        ((Server.store connection).existingNodes kind) (db.nodesOf kind) :=
  .request rfl

/-- A preparation that works on these contents. -/
def Preparation.Reaches {γ : Type} (p : Preparation Server γ) (name : String)
    (connection : Connection) (db : Database) : Prop :=
  p.On (Server.Reaches · name connection db)

end

/-- Whatever words a source gives, what is drawn is as claimed, or a precondition is missing. -/
def Draws {γ α : Type} (action : DrawM γ α) (after : α → Prop) : Prop :=
  Ensures (fun _ => True) action fun value _ => after value

section

variable {γ α β : Type} {after : α → Prop} {action : DrawM γ α}

theorem Draws.pure {value : α} (holds : after value)
    : Draws (pure value : DrawM γ α) after :=
  Ensures.pure fun _ _ => holds

theorem Gives.draws (gives : Gives action after)
    : Draws action after :=
  Yields.ensures gives

theorem Draws.bind {next : α → DrawM γ β} {claim : β → Prop} (first : Draws action after)
    (rest : ∀ value, after value → Draws (next value) claim)
    : Draws (action >>= next) claim :=
  Ensures.bind first fun value state holds => rest value holds state trivial

theorem Draws.weaken {claim : α → Prop} (draws : Draws action after)
    (weaker : ∀ value, after value → claim value)
    : Draws action claim :=
  Ensures.weaken draws fun value _ => weaker value

theorem Draws.drawn (f : γ → α × γ)
    : Draws (DrawM.draw f) fun value => ∃ g, (f g).1 = value :=
  (Gives.drawn f).draws

/-- What is drawn for a preparation is as claimed, and its store stays as it is. -/
theorem Draws.onSource {name : String} {connection : Connection} {db : Database}
    (draws : Draws action after)
    : Ensures (Preparation.Reaches · name connection db)
        (PrepareM.onSource action : PrepareM Server γ α)
        fun value p => after value ∧ p.Reaches name connection db := by
  intro p reaches
  have ends := draws p.source trivial
  change Ends _ (((action.run p.source).1, { p with source := (action.run p.source).2 })
    : Except BenchError α × Preparation Server γ)
  generalize action.run p.source = ended at ends ⊢
  cases ends with
  | answered holds => exact .answered ⟨holds, reaches⟩
  | lacking category => exact .lacking category

variable [WordSource γ] {items : List α}

theorem Draws.choose (held : items ≠ [])
    : Draws (DrawM.choose items : DrawM γ α) (· ∈ items) :=
  (Gives.choose held).draws

end

end LineageLoad
