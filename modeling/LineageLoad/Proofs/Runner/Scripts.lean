import Mathlib.Data.Nat.Find
import LineageLoad.Proofs.Runner.Courses

/-!
Workloads whose attempts end as a script says, by the operation and the number of the attempt alone.
The script decides how often each operation is attempted and which operations are bad.
-/

namespace LineageLoad

-----------------------------------------------------------------------------------------
-- Scripts
-----------------------------------------------------------------------------------------

/-- The states that a workload gets into by executing operations, in any order and on any database
of any server, with the operations that were attempted, the last one first.
-/
inductive Workload.Reaches {ω : Type} [Workload ω] (start : ω) : ω → List Nat → Prop
  | start : Reaches start start []
  | execute {workload tried} (reached : Reaches start workload tried) (index elapsed : Nat)
    (connection : Connection) (server : Server)
    : Reaches start
        (Workload.execute workload index elapsed (Server.store connection) server).2.1
        (index :: tried)

/-- Every attempt of a workload ends as the script says for its operation and its number, whatever
else was attempted before and whatever the database holds; and the name stays.
-/
structure Workload.Follows {ω : Type} [Workload ω] (start : ω) (name : String)
    (script : (index attempt : Nat) → Ending) : Prop where
  named : ∀ {workload tried}, Workload.Reaches start workload tried → Workload.name workload = name
  ends : ∀ {workload tried}, Workload.Reaches start workload tried →
    ∀ index elapsed connection server,
      (Workload.execute workload index elapsed (Server.store connection) server).1.ending
        = script index (tried.count index + 1)

section

variable (script : (index attempt : Nat) → Ending) (limit : Option Nat) (index : Nat)

/-- The first attempt of an operation within the limit that is no error is a panic. -/
def Panics : Prop :=
  ∃ attempt, 0 < attempt ∧ (∀ most, limit = some most → attempt ≤ most)
    ∧ script index attempt = .panicked
    ∧ ∀ earlier, 0 < earlier → earlier < attempt → script index earlier = .failed

/-- All attempts of an operation within the limit are errors. -/
def Exhausts : Prop :=
  ∃ most, limit = some most
    ∧ ∀ attempt, 0 < attempt → attempt ≤ most → script index attempt = .failed

/-- An operation that a worker has to give up. -/
def Bad : Prop := Panics script limit index ∨ Exhausts script limit index

/-- An operation is attempted (count) times: up to its first success or panic, or up to the limit.
-/
structure Settles (count : Nat) : Prop where
  pos : 0 < count
  allowed : ∀ most, limit = some most → count ≤ most
  failed : ∀ earlier, 0 < earlier → earlier < count → script index earlier = .failed
  last : script index count ≠ .failed ∨ limit = some count

end

section

variable {script : (index attempt : Nat) → Ending} {limit : Option Nat} {index count other : Nat}

theorem Settles.le (settles : Settles script limit index count)
    (failed : ∀ earlier, 0 < earlier → earlier < other → script index earlier = .failed)
    (allowed : ∀ most, limit = some most → other ≤ most)
    : other ≤ count := by
  refine Nat.le_of_not_lt fun more => ?_
  rcases settles.last with success | reached
  · exact success (failed count settles.pos more)
  · exact absurd (allowed count reached) (Nat.not_le_of_lt more)

theorem Settles.unique (settles : Settles script limit index count)
    (others : Settles script limit index other)
    : count = other :=
  Nat.le_antisymm (others.le settles.failed settles.allowed)
    (settles.le others.failed others.allowed)

/-- Every operation takes some number of attempts if there is a limit or an attempt that is no
error. It is the least number at which the operation may stop.
-/
theorem exists_settles (positive : limit ≠ some 0)
    (unbounded : limit = none → ∃ attempt, 0 < attempt ∧ script index attempt ≠ .failed)
    : ∃ count, Settles script limit index count := by
  have stopping : ∃ count, 0 < count ∧ (script index count ≠ .failed ∨ limit = some count) := by
    cases limited : limit with
    | none =>
        obtain ⟨attempt, pos, ends⟩ := unbounded limited
        exact ⟨attempt, pos, .inl ends⟩
    | some most =>
        exact ⟨most, Nat.pos_of_ne_zero fun zero => positive (zero ▸ limited), .inr rfl⟩
  obtain ⟨pos, last⟩ := Nat.find_spec stopping
  refine ⟨Nat.find stopping, pos, fun most limited => ?_, fun earlier first below => ?_, last⟩
  · refine Nat.find_min' stopping ⟨?_, .inr limited⟩
    exact Nat.pos_of_ne_zero fun zero => positive (zero ▸ limited)
  · by_contra success
    exact Nat.find_min stopping below ⟨first, .inl success⟩

end

-----------------------------------------------------------------------------------------
-- Logs that follow a script
-----------------------------------------------------------------------------------------

/-- At each operation, the attempts of a log end as the script says, one after the other. -/
def Scripted (script : (index attempt : Nat) → Ending) (log : List Attempt) : Prop :=
  ∀ index, (attemptsAt index log).map (·.outcome.ending)
    = (List.range' 1 (attemptsAt index log).length).map (script index)

/-- The error for a bad operation: its panic, or the error of the last attempt that it has. -/
def Reports (script : (index attempt : Nat) → Ending) (limit : Option Nat) (name : String)
    (log : List Attempt) (index : Nat) (error : BenchError) : Prop :=
  (Panics script limit index ∧ error = .workerPanicked name)
  ∨ (Exhausts script limit index ∧ ∃ most source, limit = some most
      ∧ (attemptsAt index log)[most - 1]?.map (·.outcome) = some (.failed source)
      ∧ error = .retriesExhausted name index most source)

theorem Reports.bad {script : (index attempt : Nat) → Ending} {limit : Option Nat} {name : String}
    {log : List Attempt} {index : Nat} {error : BenchError}
    (reports : Reports script limit name log index error)
    : Bad script limit index := by
  rcases reports with ⟨panics, _⟩ | ⟨exhausts, _⟩
  · exact .inl panics
  · exact .inr exhausts

section

variable {script : (index attempt : Nat) → Ending} {log : List Attempt} {attempt : Attempt}

/-- A further attempt that ends as the script says keeps a log to the script. -/
theorem Scripted.append (scripted : Scripted script log)
    (ends : attempt.outcome.ending
      = script attempt.index ((attemptsAt attempt.index log).length + 1))
    : Scripted script (log ++ [attempt]) := by
  intro index
  by_cases same : attempt.index = index
  · subst same
    rw [attemptsAt_append_same rfl, List.map_append, scripted attempt.index, List.length_append,
      List.length_singleton, List.range'_1_concat, List.map_append]
    simp [ends, Nat.add_comm]
  · rw [attemptsAt_append_other same]
    exact scripted index

/-- The number of attempts at an operation is how often it occurs among the operations tried. -/
theorem length_attemptsAt (index : Nat) (log : List Attempt)
    : (attemptsAt index log).length = (log.map (·.index)).count index := by
  rw [attemptsAt, ← List.countP_eq_length_filter, List.count, List.countP_map]
  exact List.countP_congr fun attempt _ => by simp

variable {index : Nat} {failures rest : List Attempt} {latest : Attempt}

/-- The script tells the ending of each attempt at an operation. -/
theorem Scripted.ending_eq (scripted : Scripted script log) {earlier : Nat}
    (found : (attemptsAt index log)[earlier]? = some attempt)
    : script index (earlier + 1) = attempt.outcome.ending := by
  have endings := congrArg (·[earlier]?) (scripted index)
  have below := (List.getElem?_eq_some_iff.mp found).1
  simp only [List.getElem?_map, found, List.getElem?_range' below, Option.map_some] at endings
  rw [Option.some.inj endings, Nat.one_mul, Nat.add_comm]

theorem Scripted.failed (scripted : Scripted script log)
    (split : attemptsAt index log = failures ++ rest)
    (failed : ∀ attempt ∈ failures, attempt.hasFailed = true) (attempt : Nat)
    (first : 0 < attempt) (within : attempt ≤ failures.length)
    : script index attempt = .failed := by
  obtain ⟨earlier, rfl⟩ := Nat.exists_eq_succ_of_ne_zero (Nat.ne_of_gt first)
  have found : (attemptsAt index log)[earlier]? = some failures[earlier] := by
    rw [split, List.getElem?_append_left within, List.getElem?_eq_getElem within]
  rw [scripted.ending_eq found]
  exact of_decide_eq_true (failed _ (List.getElem_mem within))

theorem Scripted.last (scripted : Scripted script log)
    (split : attemptsAt index log = failures ++ [latest])
    : script index (failures.length + 1) = latest.outcome.ending :=
  scripted.ending_eq (by rw [split]; exact List.getElem?_concat_length)

variable {limit : Option Nat}

/-- An operation that came to succeed took its number of attempts, and is not bad. -/
theorem Scripted.succeeded (scripted : Scripted script log)
    (split : attemptsAt index log = failures ++ [latest])
    (failed : ∀ attempt ∈ failures, attempt.hasFailed = true)
    (succeeded : latest.hasSucceeded = true)
    (allowed : ∀ most, limit = some most → failures.length < most)
    : Settles script limit index (attemptsAt index log).length ∧ ¬ Bad script limit index := by
  have failures_failed := scripted.failed split failed
  have success : script index (failures.length + 1) = .succeeded :=
    (scripted.last split).trans (of_decide_eq_true succeeded)
  rw [split, List.length_append, List.length_singleton]
  refine ⟨⟨Nat.succ_pos _, allowed, fun earlier first below => ?_, .inl (by simp [success])⟩, ?_⟩
  · exact failures_failed earlier first (Nat.le_of_lt_succ below)
  -- A panic would be at another attempt than the success, and before or after it no attempt is one.
  · rintro (⟨attempt, first, _, panicked, before⟩ | ⟨most, limited, all⟩)
    · rcases Nat.lt_trichotomy attempt (failures.length + 1) with below | same | above
      · have := failures_failed attempt first (Nat.le_of_lt_succ below)
        simp [this] at panicked
      · simp [same, success] at panicked
      · have := before _ (Nat.succ_pos _) above
        simp [this] at success
    · have := all _ (Nat.succ_pos _) (allowed most limited)
      simp [this] at success

/-- An operation that a worker gave up took its number of attempts, and is reported as it is. -/
theorem Scripted.gaveUp (scripted : Scripted script log)
    (split : attemptsAt index log = failures ++ [latest])
    (failed : ∀ attempt ∈ failures, attempt.hasFailed = true) {name : String} {error : BenchError}
    (gaveUp : GivesUp (· = name) limit index failures.length latest.outcome error)
    (allowed : ∀ most, limit = some most → failures.length < most)
    : Settles script limit index (attemptsAt index log).length
      ∧ Reports script limit name log index error := by
  have before (attempt : Nat) (first : 0 < attempt) (below : attempt < failures.length + 1) :=
    scripted.failed split failed attempt first (Nat.le_of_lt_succ below)
  have ending := scripted.last split
  have settles (stop : script index (failures.length + 1) ≠ .failed
      ∨ limit = some (failures.length + 1))
      : Settles script limit index (attemptsAt index log).length := by
    rw [split, List.length_append, List.length_singleton]
    exact ⟨Nat.succ_pos _, allowed, before, stop⟩
  generalize outcome : latest.outcome = given at gaveUp ending
  cases gaveUp with
  | exhausted same limited =>
      cases same
      refine ⟨settles (.inr limited), .inr ⟨⟨_, limited, fun attempt first within => ?_⟩, ?_⟩⟩
      · rcases Nat.lt_or_eq_of_le within with below | same
        · exact before attempt first below
        · exact same ▸ ending
      · refine ⟨_, _, limited, ?_, rfl⟩
        rw [split, Nat.add_sub_cancel, List.getElem?_concat_length, Option.map_some, outcome]
  | panicked same =>
      cases same
      have panicked : script index (failures.length + 1) = .panicked := ending
      exact ⟨settles (.inl (by simp [panicked])),
        .inl ⟨⟨_, Nat.succ_pos _, allowed, panicked, before⟩, rfl⟩⟩

end

end LineageLoad
