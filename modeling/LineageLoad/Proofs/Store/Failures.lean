import LineageLoad.Proofs.Store.Refusals
import LineageLoad.Store.Fault

/-!
Stores that fail at any call. Which calls are refused may depend on all that was answered before,
and a call that is refused does not reach the store behind.
-/

namespace LineageLoad

/-- Whether a call asks for a change; the other calls only read. -/
def Call.isWrite : Call → Bool
  | putType .. => true
  | putNodes .. => true
  | putEvents _ => true
  | putLinks .. => true
  | _ => false

/-- Every call that only reads was answered. -/
def ReadsAnswered (answers : List Answer) : Prop :=
  ∀ answer ∈ answers, answer.1.isWrite = false → ∃ reply, answer.2 = .ok reply

/-- A store that refuses a call if (fails) gives an error for what was answered before; it keeps
all its answers.
-/
def Store.withFailures {σ : Type} (store : Store σ)
    (fails : List Answer → Call → Option StoreError) : Store (σ × List Answer) where
  serve call state :=
    let (inner, answers) := state
    match fails answers call with
    | some error => (.error error, inner, answers ++ [⟨call, .error error⟩])
    | none =>
      let (reply, inner) := store.serve call inner
      (reply, inner, answers ++ [⟨call, reply⟩])

-----------------------------------------------------------------------------------------
-- Contents that fail
-----------------------------------------------------------------------------------------

namespace Database

/-- What a call may be answered by contents that fail, and what they are afterwards: it is refused
and nothing has changed, or it is served.
-/
inductive Attempts (db : Database) (call : Call) : Except StoreError call.Reply → Database → Prop
  | refused {error} : Attempts db call (.error error) db
  | served {reply next} (served : serve call db = (.ok reply, next))
    : Attempts db call (.ok reply) next

variable {db next : Database} {call : Call} {reply : Except StoreError call.Reply}

/-- A refusal leaves the contents, whether they made it themselves or were not asked. -/
theorem serve_withFailures (fails : List Answer → Call → Option StoreError) (call : Call)
    (db : Database) (answers : List Answer)
    : ∃ reply next,
        (store.withFailures fails).serve call (db, answers)
          = (reply, next, answers ++ [⟨call, reply⟩])
        ∧ db.Attempts call reply next := by
  cases failed : fails answers call with
  | some error =>
      refine ⟨.error error, db, ?_, .refused⟩
      simp only [Store.withFailures, failed]
  | none =>
      refine ⟨(serve call db).1, (serve call db).2, ?_, ?_⟩
      · simp only [Store.withFailures, failed]
        rfl
      · cases answered : (serve call db).1 with
        | error error =>
            rw [serve_of_error answered]
            exact .refused
        | ok reply => exact .served (Prod.ext answered rfl)

/-- What is answered is what the contents answer. -/
theorem serve_of_withFailures {fails : List Answer → Call → Option StoreError}
    {trial : Database × List Answer} {reply : call.Reply}
    (answered : ((store.withFailures fails).serve call trial).1 = .ok reply)
    : (serve call trial.1).1 = .ok reply := by
  obtain ⟨contents, answers⟩ := trial
  obtain ⟨answer, next, same, attempts⟩ := serve_withFailures fails call contents answers
  rw [same] at answered
  subst answered
  cases attempts with
  | served served => rw [served]

/-- A call that only reads leaves the contents, whether it is refused or served. -/
theorem Attempts.of_read (attempts : db.Attempts call reply next) (reading : call.isWrite = false)
    : next = db := by
  cases attempts with
  | refused => rfl
  | served served =>
      cases call with
      | putType => cases reading
      | putNodes => cases reading
      | putEvents => cases reading
      | putLinks => cases reading
      | _ => exact (congrArg Prod.snd served).symm

theorem Sound.attempts (sound : db.Sound) (attempts : db.Attempts call reply next)
    : next.Sound := by
  cases attempts with
  | refused => exact sound
  | served served =>
      have kept := sound.serve call
      rwa [served] at kept

end Database

-----------------------------------------------------------------------------------------
-- Plans of faults
-----------------------------------------------------------------------------------------

/-- How often each method was called, told from the answers. -/
def countCalls (answers : List Answer) : CallCounts :=
  answers.foldl (fun counts answer =>
    counts.insert answer.1.method (counts.getD answer.1.method 0 + 1)) ∅

theorem countCalls_concat (answers : List Answer) (answer : Answer)
    : countCalls (answers ++ [answer])
        = (countCalls answers).insert answer.1.method
            ((countCalls answers).getD answer.1.method 0 + 1) := by
  rw [countCalls, List.foldl_append]
  rfl

/-- The error that a plan of faults has for a call, told from the answers before. -/
def FaultPlan.error? (plan : FaultPlan) (answers : List Answer) (call : Call) : Option StoreError :=
  (plan.fault? call.method ((countCalls answers).getD call.method 0)).map (.injected ·.category)

/-- Faults that are planned are failures that depend on the number of the call, unless the plan
also hides ids.
-/
theorem Store.withFailures_shows {σ : Type} (store : Store σ) {plan : FaultPlan}
    (shown : plan.hidesIds = false)
    : (store.withFailures plan.error?).Shows (fun state => (countCalls state.2, state.1))
        (store.withFaults plan) := by
  rintro call ⟨inner, answers⟩
  cases planned : plan.fault? call.method ((countCalls answers).getD call.method 0) with
  | some fault =>
      simp only [withFailures, withFaults, FaultPlan.error?, planned, Option.map_some, Prod.map,
        countCalls_concat, id]
  | none =>
      simp only [withFailures, withFaults, FaultPlan.error?, planned, Option.map_none, Prod.map,
        countCalls_concat, id, shown]
      cases (store.serve call inner).1 <;> rfl

end LineageLoad
