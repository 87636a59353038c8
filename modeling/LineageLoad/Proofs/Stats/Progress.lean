import LineageLoad.Stats.ThreadStats
import Mathlib.Data.List.Induction
import Mathlib.Order.Bounds.Basic

/-!
When progress is reported. Each worker knows the next milestone above all counts that it has seen,
so that every update which passes a milestone is reported once, however many it passes.
-/

namespace LineageLoad

-----------------------------------------------------------------------------------------
-- Milestones
-----------------------------------------------------------------------------------------

/-- The counts at which progress is due: the distance between them grows from band to band, and each
distance applies from the end of the band before on.
-/
def IsMilestone (count : Nat) : Prop :=
  0 < count
    ∧ (count ≤ 1000 ∧ 100 ∣ count
      ∨ 1000 ≤ count ∧ count ≤ 5000 ∧ 500 ∣ count
      ∨ 5000 ≤ count ∧ count ≤ 10000 ∧ 1000 ∣ count
      ∨ 10000 ≤ count ∧ count ≤ 50000 ∧ 5000 ∣ count
      ∨ 50000 ≤ count ∧ count ≤ 100000 ∧ 10000 ∣ count
      ∨ 100000 ≤ count ∧ count ≤ 500000 ∧ 50000 ∣ count
      ∨ 500000 ≤ count ∧ 100000 ∣ count)

instance (count : Nat) : Decidable (IsMilestone count) := by
  unfold IsMilestone
  infer_instance

namespace Milestone

/-- The milestone is the least one above a count. -/
def IsNext (count milestone : Nat) : Prop :=
  IsLeast {candidate | IsMilestone candidate ∧ count < candidate} milestone

variable {milestone count : Nat}

theorem isNext_first
    : IsNext 0 first := by
  refine ⟨⟨by decide, by decide⟩, ?_⟩
  intro candidate due
  obtain ⟨⟨positive, band⟩, _⟩ := due
  unfold first
  omega

/-- The milestones from a band on are multiples of the distance in this band, since each distance
divides the next one.
-/
theorem interval_dvd {candidate : Nat} (due : IsMilestone candidate) (reached : count ≤ candidate)
    : interval count ∣ candidate := by
  obtain ⟨_, band⟩ := due
  unfold interval
  repeat' split
  all_goals omega

/-- Each band ends on a multiple of the distance of the band that follows. -/
theorem isMilestone_interval (due : IsMilestone milestone)
    : IsMilestone (milestone + interval milestone) := by
  obtain ⟨positive, band⟩ := due
  refine ⟨Nat.add_pos_left positive _, ?_⟩
  unfold interval
  repeat' split
  · exact .inl (by omega)
  · exact .inr (.inl (by omega))
  · exact .inr (.inr (.inl (by omega)))
  · exact .inr (.inr (.inr (.inl (by omega))))
  · exact .inr (.inr (.inr (.inr (.inl (by omega)))))
  · exact .inr (.inr (.inr (.inr (.inr (.inl (by omega))))))
  · exact .inr (.inr (.inr (.inr (.inr (.inr (by omega))))))

/-- An interval leads from a milestone to the next one: a later one differs by a multiple of it. -/
theorem isNext_interval (due : IsMilestone milestone)
    : IsNext milestone (milestone + interval milestone) := by
  have positive := interval_pos milestone
  refine ⟨⟨isMilestone_interval due, Nat.lt_add_of_pos_right positive⟩, ?_⟩
  intro candidate ⟨later, above⟩
  have apart : interval milestone ∣ candidate - milestone :=
    Nat.dvd_sub (interval_dvd later (Nat.le_of_lt above)) (interval_dvd due (Nat.le_refl _))
  have far := Nat.le_of_dvd (Nat.sub_pos_of_lt above) apart
  omega

/-- A milestone above a count that is passed has the same milestones above it as the count. -/
theorem IsNext.mono {more : Nat} (next : IsNext count milestone) (within : count ≤ more)
    (ahead : more < milestone)
    : IsNext more milestone := by
  refine ⟨⟨next.1.1, ahead⟩, ?_⟩
  intro candidate due
  exact next.2 ⟨due.1, Nat.lt_of_le_of_lt within due.2⟩

/-- The search ends at the least milestone above both counts, by induction on its rounds. -/
theorem IsNext.after {total : Nat} (next : IsNext count milestone)
    : IsNext (max count total) (after milestone total) := by
  induction milestone using Milestone.after.induct total generalizing count with
  | case1 milestone below ih =>
      have further := ih (isNext_interval next.1.1)
      have passed : max milestone total = max count total := by
        have above := next.1.2
        omega
      rw [Milestone.after, if_pos below]
      rwa [passed] at further
  | case2 milestone ahead =>
      rw [Milestone.after, if_neg ahead]
      have above := next.1.2
      exact next.mono (Nat.le_max_left _ _) (by omega)

/-- The loop that moves a milestone past a count ends at (last), and all its values are below
(size): it adds one interval after the other as long as the milestone is not above the count.
-/
inductive Advances (size count : Nat) : Nat → Nat → Prop
  | done {milestone : Nat} (ahead : count < milestone) : Advances size count milestone milestone
  | round {milestone last : Nat} (below : milestone ≤ count)
    (fits : milestone + interval milestone < size)
    (rest : Advances size count (milestone + interval milestone) last)
    : Advances size count milestone last

/-- The search only moves on, by induction on its rounds. -/
theorem le_after (milestone count : Nat)
    : milestone ≤ after milestone count := by
  induction milestone using Milestone.after.induct count with
  | case1 milestone below ih =>
      rw [after, if_pos below]
      exact Nat.le_trans (Nat.le_add_right _ _) ih
  | case2 milestone ahead =>
      rw [after, if_neg ahead]

/-- The loop ends, and it fits where its last milestone does. By induction on its rounds. -/
theorem advances_after {size : Nat} (fits : after milestone count < size)
    : Advances size count milestone (after milestone count) := by
  induction milestone using Milestone.after.induct count with
  | case1 milestone below ih =>
      rw [after, if_pos below] at fits ⊢
      exact .round below (Nat.lt_of_le_of_lt (le_after _ _) fits) (ih fits)
  | case2 milestone ahead =>
      rw [after, if_neg ahead]
      exact .done (Nat.lt_of_not_le ahead)

end Milestone

-----------------------------------------------------------------------------------------
-- Updates
-----------------------------------------------------------------------------------------

namespace ThreadStats

/-- The counts after some updates, each with the number of operations that all workers together have
completed.
-/
def updates (stats : ThreadStats) (entries : List (OpStats × Nat)) : ThreadStats :=
  entries.foldl (fun stats (op, totalDone) => stats.update op totalDone) stats

/-- The progress that some updates report, in turn. -/
def progress : ThreadStats → List (OpStats × Nat) → List Nat
  | _, [] => []
  | stats, (op, totalDone) :: rest =>
    let (reported, next) := stats.updateReporting op totalDone
    reported.toList ++ progress next rest

/-- The greatest number of completed operations that some updates were told, 0 without any. -/
def greatest (entries : List (OpStats × Nat)) : Nat := (entries.map (·.2)).foldl max 0

variable {stats : ThreadStats} {entries : List (OpStats × Nat)} {op : OpStats} {totalDone : Nat}

theorem updates_concat
    : stats.updates (entries ++ [(op, totalDone)]) = (stats.updates entries).update op totalDone :=
  List.foldl_append

theorem greatest_concat
    : greatest (entries ++ [(op, totalDone)]) = max (greatest entries) totalDone := by
  simp [greatest]

/-- By induction on the updates. -/
theorem progress_concat
    : stats.progress (entries ++ [(op, totalDone)])
        = stats.progress entries
          ++ ((stats.updates entries).updateReporting op totalDone).1.toList := by
  induction entries generalizing stats with
  | nil => exact List.append_nil _
  | cons entry rest ih =>
      obtain ⟨first, count⟩ := entry
      simp only [List.cons_append, progress, ih, List.append_assoc]
      rfl

/-- Updates keep the next milestone above all counts, by induction from the last one. -/
theorem isNext_updates (entries : List (OpStats × Nat))
    : Milestone.IsNext (greatest entries) (new.updates entries).nextReport := by
  induction entries using List.reverseRecOn with
  | nil => exact Milestone.isNext_first
  | append_singleton earlier last ih =>
      obtain ⟨op, totalDone⟩ := last
      rw [updates_concat, greatest_concat]
      exact ih.after

/-- A milestone is reached exactly if one was passed since the greatest count before. -/
theorem reachesMilestone_iff {count : Nat} (next : Milestone.IsNext count stats.nextReport)
    : stats.reachesMilestone totalDone = true
      ↔ ∃ milestone, IsMilestone milestone ∧ count < milestone ∧ milestone ≤ totalDone := by
  rw [reachesMilestone, decide_eq_true_iff]
  constructor
  · intro reached
    exact ⟨_, next.1.1, next.1.2, reached⟩
  · intro passed
    obtain ⟨milestone, due, above, reached⟩ := passed
    exact Nat.le_trans (next.2 ⟨due, above⟩) reached

/-- A new worker is told any numbers of completed operations. An update that takes the greatest of
them past a milestone, or past several, is reported once, and any other one is not reported. After
it the next milestone is the least one above all numbers so far, which the loop comes to; in 64 bits
it does so as well, as long as they hold a milestone above these numbers.
-/
theorem progress_updates (entries : List (OpStats × Nat)) (op : OpStats) (totalDone : Nat)
    : let before := new.updates entries
      let after := new.updates (entries ++ [(op, totalDone)])
      let passed := ∃ milestone,
        IsMilestone milestone ∧ greatest entries < milestone ∧ milestone ≤ totalDone
      let due := {milestone | IsMilestone milestone ∧ max (greatest entries) totalDone < milestone}
      (passed → new.progress (entries ++ [(op, totalDone)]) = new.progress entries ++ [totalDone])
        ∧ (¬passed → new.progress (entries ++ [(op, totalDone)]) = new.progress entries)
        ∧ IsLeast due after.nextReport
        ∧ ∀ size, (∃ milestone ∈ due, milestone < size) →
            Milestone.Advances size totalDone before.nextReport after.nextReport := by
  intro before after passed due
  have reaches : before.reachesMilestone totalDone = true ↔ passed :=
    reachesMilestone_iff (isNext_updates entries)
  have next : IsLeast due after.nextReport := by
    have next := isNext_updates (entries ++ [(op, totalDone)])
    rwa [greatest_concat] at next
  refine ⟨fun holds => ?_, fun fails => ?_, next, fun size held => ?_⟩
  · rw [progress_concat, updateReporting, if_pos (reaches.mpr holds)]
    rfl
  · rw [progress_concat, updateReporting, if_neg (mt reaches.mp fails)]
    exact List.append_nil _
  · obtain ⟨milestone, above, fits⟩ := held
    have last := Nat.lt_of_le_of_lt (next.2 above) fits
    have moved : after.nextReport = Milestone.after before.nextReport totalDone :=
      congrArg nextReport updates_concat
    rw [moved] at last ⊢
    exact Milestone.advances_after last

/-- One update that passes many milestones is reported once, and the next one is not. -/
example
    : new.progress [(⟨1, 1⟩, 7), (⟨1, 1⟩, 12345), (⟨1, 1⟩, 12346)] = [12345] := by
  decide +kernel

end ThreadStats
end LineageLoad
