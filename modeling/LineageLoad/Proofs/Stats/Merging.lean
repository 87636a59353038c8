import LineageLoad.Stats.ThreadStats
import Mathlib.Algebra.GroupWithZero.Nat
import Mathlib.Order.Bounds.Basic

/-!
Merging the statistics of workers. In whatever order and grouping they are merged, the counts are
those of one worker that did everything, and the time span covers the spans of all.
-/

namespace LineageLoad

-----------------------------------------------------------------------------------------
-- What is recorded and merged
-----------------------------------------------------------------------------------------

namespace ThreadStats

/-- What a worker tells its statistics. -/
inductive Entry where
  | started (instant : Instant)
  | stopped (instant : Instant)
  /-- An operation succeeded, after which all workers have completed (totalDone). -/
  | completed (op : OpStats) (totalDone : Nat)
  | failed
  deriving DecidableEq, Repr, Inhabited

/-- What is counted: successful operations and failed attempts. -/
inductive Count where
  | completed (op : OpStats)
  | failed
  deriving DecidableEq, Repr, Inhabited

/-- What an entry counts, if it is not about the time. -/
def Entry.count? : Entry → Option Count
  | started _ => none
  | stopped _ => none
  | completed op _ => some (.completed op)
  | failed => some .failed

/-- All that entries count, in their order. -/
def counts (entries : List Entry) : List Count := entries.filterMap Entry.count?

theorem counts_append (entries more : List Entry)
    : counts (entries ++ more) = counts entries ++ counts more :=
  List.filterMap_append

def record (stats : ThreadStats) : Entry → ThreadStats
  | .started instant => stats.startAt instant
  | .stopped instant => stats.stopAt instant
  | .completed op totalDone => stats.update op totalDone
  | .failed => stats.recordFailure

/-- The statistics of a worker from its start. -/
def ofEntries (entries : List Entry) : ThreadStats := entries.foldl record .new

/-- A way to merge statistics into one: in any order, and grouped in any way. -/
inductive Merging where
  | part (stats : ThreadStats)
  | join (left right : Merging)

namespace Merging

/-- The statistics that are merged, from left to right. -/
def parts : Merging → List ThreadStats
  | part stats => [stats]
  | join left right => left.parts ++ right.parts

def result : Merging → ThreadStats
  | part stats => stats
  | join left right => left.result.merge right.result

end Merging

-----------------------------------------------------------------------------------------
-- Counts
-----------------------------------------------------------------------------------------

/-- A field of the statistics is the total of an amount of all that is counted. -/
structure IsTotal (field : ThreadStats → Nat) (amount : Count → Nat) : Prop where
  new : field .new = 0
  record
    : ∀ stats entry, field (stats.record entry) = field stats + (entry.count?.elim 0 amount)
  merge : ∀ stats other, field (stats.merge other) = field stats + field other

namespace IsTotal

variable {field : ThreadStats → Nat} {amount : Count → Nat} {members : List (List Entry)}
  {entries all : List Entry} {merging : Merging} {fresh : Nat}

/-- By induction on the entries, from any statistics. -/
theorem foldl_record (total : IsTotal field amount) (stats : ThreadStats) (entries : List Entry)
    : field (entries.foldl ThreadStats.record stats)
      = field stats + ((counts entries).map amount).sum := by
  induction entries generalizing stats with
  | nil => rfl
  | cons entry rest ih =>
      rw [List.foldl_cons, ih, total.record]
      unfold counts
      rw [List.filterMap_cons]
      cases entry.count? with
      | none => rfl
      | some count =>
          rw [List.map_cons, List.sum_cons, ← Nat.add_assoc]
          rfl

theorem ofEntries (total : IsTotal field amount) (entries : List Entry)
    : field (.ofEntries entries) = ((counts entries).map amount).sum := by
  rw [ThreadStats.ofEntries, total.foldl_record, total.new, Nat.zero_add]

/-- By induction on the grouping. -/
theorem result (total : IsTotal field amount) (merging : Merging)
    : field merging.result = (merging.parts.map field).sum := by
  induction merging with
  | part stats => exact (Nat.add_zero _).symm
  | join left right first second =>
      rw [Merging.result, total.merge, first, second, Merging.parts, List.map_append,
        List.sum_append]

/-- Fresh statistics contribute nothing, and the others what their entries count. -/
theorem sum_parts (total : IsTotal field amount) (members : List (List Entry)) (fresh : Nat)
    : ((members.map ThreadStats.ofEntries ++ List.replicate fresh ThreadStats.new).map field).sum
      = ((counts members.flatten).map amount).sum := by
  have silent : ((List.replicate fresh ThreadStats.new).map field).sum = 0 := by
    simp [total.new]
  rw [List.map_append, List.sum_append, silent, Nat.add_zero]
  induction members with
  | nil => rfl
  | cons entries rest ih =>
      rw [List.map_cons, List.map_cons, List.sum_cons, ih, total.ofEntries, List.flatten_cons,
        counts_append, List.map_append, List.sum_append]

/-- A total does not depend on who counted what, nor in which order. -/
theorem result_eq (total : IsTotal field amount)
    (parts
      : merging.parts.Perm
          (members.map ThreadStats.ofEntries ++ List.replicate fresh ThreadStats.new))
    (same : (counts all).Perm (counts members.flatten))
    : field merging.result = field (.ofEntries all) := by
  rw [total.result, (parts.map field).sum_nat, total.sum_parts, total.ofEntries,
    (same.map amount).sum_nat]

end IsTotal

-- What each of the four counts totals, by the cases of an entry.

theorem isTotal_done
    : IsTotal (·.done) fun
        | .completed _ => 1
        | .failed => 0 :=
  ⟨rfl, fun _ entry => by cases entry <;> rfl, fun _ _ => rfl⟩

theorem isTotal_failures
    : IsTotal (·.failures) fun
        | .completed _ => 0
        | .failed => 1 :=
  ⟨rfl, fun _ entry => by cases entry <;> rfl, fun _ _ => rfl⟩

theorem isTotal_bytes
    : IsTotal (·.bytes) fun
        | .completed op => op.bytes
        | .failed => 0 :=
  ⟨rfl, fun _ entry => by cases entry <;> rfl, fun _ _ => rfl⟩

theorem isTotal_latency
    : IsTotal (·.latency) fun
        | .completed op => op.elapsed
        | .failed => 0 :=
  ⟨rfl, fun _ entry => by cases entry <;> rfl, fun _ _ => rfl⟩

-----------------------------------------------------------------------------------------
-- Time spans
-----------------------------------------------------------------------------------------

/-- The instants that are recorded in some of the statistics. -/
def recorded (time : ThreadStats → Option Instant) (parts : List ThreadStats) : Set Instant :=
  {instant | ∃ stats ∈ parts, time stats = some instant}

/-- The extreme one of some instants, and none if there are no instants. -/
def IsExtreme (extreme : Set Instant → Instant → Prop) (instants : Set Instant)
    : Option Instant → Prop
  | none => instants = ∅
  | some instant => extreme instants instant

section

variable {extreme : Set Instant → Instant → Prop} {time : ThreadStats → Option Instant}
  {first second : Set Instant} {one other : Option Instant}

/-- Where there are instants, there is an extreme one. -/
theorem IsExtreme.exists_of_mem (isExtreme : IsExtreme extreme first one) {instant : Instant}
    (member : instant ∈ first)
    : ∃ found, one = some found ∧ extreme first found := by
  cases one with
  | none =>
      obtain rfl : first = ∅ := isExtreme
      cases member
  | some found => exact ⟨found, rfl, isExtreme⟩

theorem recorded_append (time : ThreadStats → Option Instant) (parts more : List ThreadStats)
    : recorded time (parts ++ more) = recorded time parts ∪ recorded time more := by
  ext instant
  simp only [recorded, Set.mem_ofPred_eq, Set.mem_union, List.mem_append, or_and_right, exists_or]

/-- A time that merging takes from the extreme part is the extreme one of all parts. By induction on
the grouping.
-/
theorem Merging.result_isExtreme (single : ∀ instant, extreme {instant} instant)
    (merge
      : ∀ (stats other : ThreadStats) first second,
        IsExtreme extreme first (time stats) → IsExtreme extreme second (time other) →
        IsExtreme extreme (first ∪ second) (time (stats.merge other)))
    (merging : Merging)
    : IsExtreme extreme (recorded time merging.parts) (time merging.result) := by
  induction merging with
  | part stats =>
      have alone : recorded time [stats] = {instant | time stats = some instant} := by
        simp [recorded]
      rw [parts, result, alone]
      cases time stats with
      | none => simp [IsExtreme]
      | some instant => simpa [IsExtreme, eq_comm] using single instant
  | join left right leftmost rightmost =>
      rw [parts, result, recorded_append]
      exact merge _ _ _ _ leftmost rightmost

/-- By cases on the instants that are missing. -/
theorem earliest_isExtreme (left : IsExtreme IsLeast first one)
    (right : IsExtreme IsLeast second other)
    : IsExtreme IsLeast (first ∪ second) (earliest one other) := by
  cases one with
  | none =>
      obtain rfl : first = ∅ := left
      rw [Set.empty_union]
      cases other <;> exact right
  | some a =>
      cases other with
      | none =>
          obtain rfl : second = ∅ := right
          rw [Set.union_empty]
          exact left
      | some b => exact IsLeast.union left right

theorem latest_isExtreme (left : IsExtreme IsGreatest first one)
    (right : IsExtreme IsGreatest second other)
    : IsExtreme IsGreatest (first ∪ second) (latest one other) := by
  cases one with
  | none =>
      obtain rfl : first = ∅ := left
      rw [Set.empty_union]
      cases other <;> exact right
  | some a =>
      cases other with
      | none =>
          obtain rfl : second = ∅ := right
          rw [Set.union_empty]
          exact left
      | some b => exact IsGreatest.union left right

end

namespace Merging

variable {merging : Merging} {stats : ThreadStats}

theorem started_isExtreme (merging : Merging)
    : IsExtreme IsLeast (recorded (·.started) merging.parts) merging.result.started :=
  merging.result_isExtreme (fun _ => isLeast_singleton) fun _ _ _ _ => earliest_isExtreme

theorem finished_isExtreme (merging : Merging)
    : IsExtreme IsGreatest (recorded (·.finished) merging.parts) merging.result.finished :=
  merging.result_isExtreme (fun _ => isGreatest_singleton) fun _ _ _ _ => latest_isExtreme

/-- A part that has both instants lies within the merged time span. -/
theorem elapsed_le (member : stats ∈ merging.parts)
    : stats.elapsed ≤ merging.result.elapsed := by
  unfold elapsed
  cases started : stats.started with
  | none => exact Nat.zero_le _
  | some start =>
      cases finished : stats.finished with
      | none => exact Nat.zero_le _
      | some finish =>
          obtain ⟨first, begun, least⟩ :=
            merging.started_isExtreme.exists_of_mem ⟨stats, member, started⟩
          obtain ⟨last, ended, greatest⟩ :=
            merging.finished_isExtreme.exists_of_mem ⟨stats, member, finished⟩
          have before : first ≤ start := least.2 ⟨stats, member, started⟩
          have after : finish ≤ last := greatest.2 ⟨stats, member, finished⟩
          rw [begun, ended]
          exact Int.toNat_le_toNat (Int.sub_le_sub after before)

/-- Statistics that are merged, in any order and grouping and with any number of fresh ones among
them, count what one worker counts that is told all the same, in any order. Their start is the
earliest one that any of them has, their finish the latest one, and none is there only if no part
has one. No part took longer than all together.
-/
theorem result_ofEntries (members : List (List Entry)) (fresh : Nat) (merging : Merging)
    (parts
      : merging.parts.Perm
          (members.map ThreadStats.ofEntries ++ List.replicate fresh ThreadStats.new))
    (all : List Entry) (same : (counts all).Perm (counts members.flatten))
    : let result := merging.result
      let single := ofEntries all
      (result.done = single.done ∧ result.failures = single.failures
        ∧ result.bytes = single.bytes ∧ result.latency = single.latency)
      ∧ IsExtreme IsLeast
          {instant | ∃ entries ∈ members, (ofEntries entries).started = some instant}
          result.started
      ∧ IsExtreme IsGreatest
          {instant | ∃ entries ∈ members, (ofEntries entries).finished = some instant}
          result.finished
      ∧ ∀ entries ∈ members, (ofEntries entries).elapsed ≤ result.elapsed := by
  intro result single
  have recorded_eq (time : ThreadStats → Option Instant) (silent : time .new = none)
      : recorded time merging.parts
        = {instant | ∃ entries ∈ members, time (ofEntries entries) = some instant} := by
    ext instant
    have fresh : ¬∃ stats ∈ List.replicate fresh ThreadStats.new, time stats = some instant := by
      rintro ⟨stats, member, there⟩
      rw [List.eq_of_mem_replicate member, silent] at there
      cases there
    simp only [recorded, Set.mem_ofPred_eq, parts.mem_iff, List.mem_append, or_and_right,
      exists_or, fresh, or_false, List.mem_map, exists_exists_and_eq_and]
  refine ⟨⟨isTotal_done.result_eq parts same, isTotal_failures.result_eq parts same,
    isTotal_bytes.result_eq parts same, isTotal_latency.result_eq parts same⟩, ?_, ?_,
    fun entries member => ?_⟩
  · exact recorded_eq (·.started) rfl ▸ merging.started_isExtreme
  · exact recorded_eq (·.finished) rfl ▸ merging.finished_isExtreme
  · refine merging.elapsed_le (parts.mem_iff.mpr (List.mem_append_left _ ?_))
    exact List.mem_map_of_mem member

/-- Two workers, of which one fails once. -/
theorem result_ofEntries_twoWorkers
    : let first : List Entry := [.started 5, .failed, .completed ⟨3, 10⟩ 2, .stopped 20]
      let second : List Entry := [.started 2, .completed ⟨4, 7⟩ 1, .stopped 9]
      let all : List Entry := [.completed ⟨4, 7⟩ 1, .failed, .completed ⟨3, 10⟩ 2]
      let merging : Merging :=
        .join (.join (.part .new) (.part (ofEntries second))) (.part (ofEntries first))
      let result := merging.result
      merging.parts.Perm
          ([first, second].map ThreadStats.ofEntries ++ List.replicate 1 ThreadStats.new)
        ∧ (counts all).Perm (counts [first, second].flatten)
        ∧ (result.done = 2 ∧ result.failures = 1 ∧ result.bytes = 17 ∧ result.latency = 7)
        ∧ result.started = some 2 ∧ result.finished = some 20 ∧ result.elapsed = 18 := by
  intro first second all merging result
  have parts : merging.parts.Perm
      ([first, second].map ThreadStats.ofEntries ++ List.replicate 1 ThreadStats.new) :=
    List.reverse_perm [ofEntries first, ofEntries second, .new]
  have same : (counts all).Perm (counts [first, second].flatten) := by decide
  obtain ⟨⟨done, failures, bytes, latency⟩, _⟩ :=
    result_ofEntries [first, second] 1 merging parts all same
  exact ⟨parts, same, ⟨done, failures, bytes, latency⟩, rfl, rfl, rfl⟩

end Merging

end ThreadStats

end LineageLoad
