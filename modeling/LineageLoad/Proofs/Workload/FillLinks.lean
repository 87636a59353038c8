import LineageLoad.Proofs.Workload.FreshPairs
import LineageLoad.Proofs.Workload.Guarantees
import Mathlib.Logic.Relation

/-!
The loop that draws pairs to link. It has no bound of its own: as long as it has too few pairs, an
unknown one is left, and it goes on. What is drawn under a budget is what the loop generates, unless
the budget is used up, and then nothing is answered.
-/

namespace LineageLoad
namespace FillLinks

variable {γ : Type} {db : Database} {link : LinkKind} {name : String} {connection : Connection}
  {nodes contexts : List EntityId} {known : PairSet}

-----------------------------------------------------------------------------------------
-- The loop that draws pairs
-----------------------------------------------------------------------------------------

variable {count : Nat}

/-- Where the loop stands: which pairs are known, which of them it generated, how many known ones it
drew in a row, and the source.
-/
structure Loop (γ : Type) where
  known : PairSet
  generated : List (EntityId × EntityId)
  misses : Nat
  source : γ

/-- The loop before its first turn. -/
def Loop.start (known : PairSet) (source : γ) : Loop γ := ⟨known, [], 0, source⟩

/-- What holds in every state of the loop: it generated fresh pairs, and knows those and the pairs
that were known before.
-/
structure Loop.Keeps (nodes contexts : List EntityId) (known : PairSet) (count : Nat)
    (loop : Loop γ) : Prop where
  fresh : Fresh nodes contexts known loop.generated
  mem_known_iff : ∀ pair, pair ∈ loop.known ↔ pair ∈ known ∨ pair ∈ loop.generated
  size : loop.known.size = known.size + loop.generated.length
  length : loop.generated.length ≤ count

theorem Loop.Keeps.start (known : PairSet) (source : γ)
    : (Loop.start known source).Keeps nodes contexts known count where
  fresh := .nil
  mem_known_iff _ := (or_iff_left List.not_mem_nil).symm
  size := rfl
  length := Nat.zero_le count

variable [WordSource γ]

/-- A turn of the loop, as long as there are not enough pairs: a node and a context are chosen, and
they are generated if they are not known.
-/
inductive Turn (nodes contexts : List EntityId) (count : Nat) : Loop γ → Loop γ → Prop
  | miss {loop node context middle last} (unfinished : loop.generated.length < count)
    (first : (DrawM.choose nodes).run loop.source = (.ok node, middle))
    (second : (DrawM.choose contexts).run middle = (.ok context, last))
    (held : (node, context) ∈ loop.known)
    : Turn nodes contexts count loop
        { loop with misses := loop.misses + 1, source := last }
  | hit {loop node context middle last} (unfinished : loop.generated.length < count)
    (first : (DrawM.choose nodes).run loop.source = (.ok node, middle))
    (second : (DrawM.choose contexts).run middle = (.ok context, last))
    (free : (node, context) ∉ loop.known)
    : Turn nodes contexts count loop
        ⟨loop.known.insert (node, context), loop.generated ++ [(node, context)], 0, last⟩

/-- The loop comes to a state, in any number of turns. -/
def Comes (nodes contexts : List EntityId) (count : Nat) : Loop γ → Loop γ → Prop :=
  Relation.ReflTransGen (Turn nodes contexts count)

theorem choose_mem {α : Type} {items : List α} {item : α} {g last : γ}
    (drawn : (DrawM.choose items : DrawM γ α).run g = (.ok item, last))
    : item ∈ items := by
  have held : items ≠ [] := by
    rintro rfl
    cases congrArg Prod.fst drawn
  obtain ⟨other, _, run, member⟩ := Gives.choose held g trivial
  cases run.symm.trans drawn
  exact member

namespace Loop.Keeps

variable {loop next : Loop γ}

/-- A pair that is not known is another one than those that were generated. -/
theorem turn (keeps : loop.Keeps nodes contexts known count)
    (turn : Turn nodes contexts count loop next)
    : next.Keeps nodes contexts known count := by
  cases turn with
  | miss => exact ⟨keeps.fresh, keeps.mem_known_iff, keeps.size, keeps.length⟩
  | @hit node context _ _ unfinished first second free =>
      obtain ⟨old, fresh⟩ := not_or.mp (mt (keeps.mem_known_iff _).mpr free)
      have member : (node, context) ∈ nodes.product contexts :=
        List.mem_product.mpr ⟨choose_mem first, choose_mem second⟩
      refine ⟨keeps.fresh.concat member old fresh, fun pair => ?_, ?_, ?_⟩
      · rw [Std.ExtTreeSet.mem_insert, Std.LawfulEqCmp.compare_eq_iff_eq, keeps.mem_known_iff,
          List.mem_append, List.mem_singleton, or_left_comm, or_comm (a := pair ∈ loop.generated),
          eq_comm]
      · rw [size_insert free, keeps.size, List.length_append, List.length_singleton, Nat.add_assoc]
      · rw [List.length_append, List.length_singleton]
        exact unfinished

/-- By induction on the turns. -/
theorem comes (keeps : loop.Keeps nodes contexts known count)
    (comes : Comes nodes contexts count loop next)
    : next.Keeps nodes contexts known count := by
  induction comes with
  | refl => exact keeps
  | tail _ last ih => exact ih.turn last

/-- If there are enough pairs, then an unfinished loop has a pair left that is not known, and it
goes on: neither of its choices is from an empty list.
-/
theorem goesOn (keeps : loop.Keeps nodes contexts known count) (differ : nodes.Nodup)
    (apart : contexts.Nodup) (enough : count ≤ nodes.length * contexts.length - known.size)
    (unfinished : loop.generated.length < count)
    : nodes ≠ [] ∧ contexts ≠ []
        ∧ (∃ pair ∈ nodes.product contexts, pair ∉ known ∧ pair ∉ loop.generated)
        ∧ ∃ next, Turn nodes contexts count loop next := by
  have size := keeps.size
  obtain ⟨pair, member, free⟩ : ∃ pair ∈ nodes.product contexts, pair ∉ loop.known :=
    exists_unknown differ apart (by omega)
  obtain ⟨left, right⟩ := List.mem_product.mp member
  have someNode := List.ne_nil_of_mem left
  have someContext := List.ne_nil_of_mem right
  have unused := not_or.mp (mt (keeps.mem_known_iff _).mpr free)
  refine ⟨someNode, someContext, ⟨pair, member, unused⟩, ?_⟩
  obtain ⟨node, middle, first, _⟩ := Gives.choose someNode loop.source trivial
  obtain ⟨context, last, second, _⟩ := Gives.choose someContext middle trivial
  by_cases held : (node, context) ∈ loop.known
  · exact ⟨_, .miss unfinished first second held⟩
  · exact ⟨_, .hit unfinished first second held⟩

end Loop.Keeps

namespace Turn

variable {loop next other : Loop γ} {node context : EntityId} {middle last : γ}

theorem unfinished (turn : Turn nodes contexts count loop next)
    : loop.generated.length < count := by
  cases turn with
  | miss unfinished => exact unfinished
  | hit unfinished => exact unfinished

/-- What is chosen decides where a turn leads. -/
theorem eq_of_chosen (turn : Turn nodes contexts count loop next)
    (first : (DrawM.choose nodes).run loop.source = (.ok node, middle))
    (second : (DrawM.choose contexts).run middle = (.ok context, last))
    : next = if loop.known.contains (node, context) then
          { loop with misses := loop.misses + 1, source := last }
        else ⟨loop.known.insert (node, context), loop.generated ++ [(node, context)], 0, last⟩ := by
  cases turn with
  | miss _ node context held =>
      cases first.symm.trans node
      cases second.symm.trans context
      rw [if_pos (Std.ExtTreeSet.contains_iff_mem.mpr held)]
  | hit _ node context free =>
      cases first.symm.trans node
      cases second.symm.trans context
      rw [if_neg (mt Std.ExtTreeSet.contains_iff_mem.mp free)]

/-- The choices are decided by the source, so that there is one turn at most. -/
theorem unique (turn : Turn nodes contexts count loop next)
    (again : Turn nodes contexts count loop other)
    : next = other := by
  cases turn with
  | miss unfinished first second held =>
      have same := (Turn.miss unfinished first second held).eq_of_chosen first second
      exact same.trans (again.eq_of_chosen first second).symm
  | hit unfinished first second free =>
      have same := (Turn.hit unfinished first second free).eq_of_chosen first second
      exact same.trans (again.eq_of_chosen first second).symm

end Turn

namespace Comes

variable {loop next final other : Loop γ}

end Comes

-----------------------------------------------------------------------------------------
-- Pairs that are drawn
-----------------------------------------------------------------------------------------

/-- How a search for an unknown pair ends: the loop comes to such a pair, or to as many known ones
in a row as the budget allows.
-/
inductive Loop.Searched (nodes contexts : List EntityId) (count budget : Nat) (loop : Loop γ)
    : Except BenchError (Option (EntityId × EntityId)) × γ → Prop
  | found {pair last}
    (comes
      : Comes nodes contexts count loop
          ⟨loop.known.insert pair, loop.generated ++ [pair], 0, last⟩)
    : Searched nodes contexts count budget loop (.ok (some pair), last)
  | missed {last}
    (comes
      : Comes nodes contexts count loop
          { loop with misses := loop.misses + budget, source := last })
    : Searched nodes contexts count budget loop (.ok none, last)

/-- A search takes turns of the loop, by induction on the budget. -/
theorem drawUnknown_searched {loop : Loop γ} (unfinished : loop.generated.length < count)
    (someNode : nodes ≠ []) (someContext : contexts ≠ []) (budget : Nat)
    : loop.Searched nodes contexts count budget
        ((drawUnknown nodes contexts loop.known budget).run loop.source) := by
  induction budget generalizing loop with
  | zero => exact .missed .refl
  | succ budget ih =>
      obtain ⟨node, middle, first, _⟩ := Gives.choose someNode loop.source trivial
      obtain ⟨context, last, second, _⟩ := Gives.choose someContext middle trivial
      rw [drawUnknown, run_bind_of_ok first, run_bind_of_ok second]
      split
      · next held =>
          have miss := Turn.miss unfinished first second (Std.ExtTreeSet.contains_iff_mem.mp held)
          have searched := @ih { loop with misses := loop.misses + 1, source := last } unfinished
          generalize (drawUnknown nodes contexts loop.known budget).run last = ended
            at searched ⊢
          cases searched with
          | found comes => exact .found (.head miss comes)
          | missed comes =>
              rw [Nat.add_assoc, Nat.add_comm 1] at comes
              exact .missed (.head miss comes)
      · next free =>
          exact .found (.single (.hit unfinished first second
            (mt Std.ExtTreeSet.contains_iff_mem.mpr free)))

/-- How the draws for a load end in a state of the loop, if the pairs of (done) were generated
before: with the items for all others once there are enough, or without items after too many known
pairs in a row.
-/
inductive Loop.Ended (link : LinkKind) (count budget : Nat) (done : List (EntityId × EntityId))
    (loop : Loop γ) : Except BenchError (List WorkItem) × γ → Prop
  | finished {pairs} (generated : loop.generated = done ++ pairs)
    (enough : loop.generated.length = count)
    : Ended link count budget done loop
        (.ok (pairs.map fun pair => item link pair.1 pair.2), loop.source)
  | givenUp (unfinished : loop.generated.length < count) (missed : loop.misses = budget)
    : Ended link count budget done loop
        (.error (.noFreePairDrawn link.nodeKind budget), loop.source)

/-- The draws for all pairs that are missing lead to a state that the loop comes to. By induction on
their number.
-/
theorem Loop.Keeps.exists_ended (link : LinkKind) (budget : Nat) (differ : nodes.Nodup)
    (apart : contexts.Nodup) (enough : count ≤ nodes.length * contexts.length - known.size)
    {left : Nat} {loop : Loop γ} (keeps : loop.Keeps nodes contexts known count)
    (none : loop.misses = 0) (missing : loop.generated.length + left = count)
    : ∃ ended, Comes nodes contexts count loop ended
        ∧ ended.Ended link count budget loop.generated
          ((newItems link nodes contexts budget left loop.known).run loop.source) := by
  induction left generalizing loop with
  | zero =>
      have none : loop.generated = loop.generated ++ [] := (List.append_nil _).symm
      exact ⟨loop, .refl, .finished none missing⟩
  | succ left ih =>
      have unfinished : loop.generated.length < count := by omega
      obtain ⟨someNode, someContext, _⟩ := keeps.goesOn differ apart enough unfinished
      have searched := drawUnknown_searched unfinished someNode someContext budget
      rw [newItems]
      generalize drawn : (drawUnknown nodes contexts loop.known budget).run loop.source = found
        at searched
      cases searched with
      | missed comes =>
          rw [none, Nat.zero_add] at comes
          rw [run_bind_of_ok drawn]
          exact ⟨_, comes, .givenUp unfinished rfl⟩
      | @found pair last comes =>
          have fewer : (loop.generated ++ [pair]).length + left = count := by
            rw [List.length_append, List.length_singleton]
            omega
          obtain ⟨ended, later, ends⟩ := ih (keeps.comes comes) rfl fewer
          refine ⟨ended, comes.trans later, ?_⟩
          rw [run_bind_of_ok drawn]
          dsimp only at ends ⊢
          generalize rest : (newItems link nodes contexts budget left
            (loop.known.insert pair)).run last = items at ends
          cases ends with
          | finished generated enough =>
              rw [run_bind_of_ok rest]
              rw [List.append_assoc] at generated
              exact .finished generated enough
          | givenUp unfinished missed =>
              rw [run_bind_of_error rest]
              exact .givenUp unfinished missed

/-- From the beginning of the loop, all pairs are missing. -/
theorem exists_ended (link : LinkKind) (budget : Nat) (differ : nodes.Nodup)
    (apart : contexts.Nodup) (enough : count ≤ nodes.length * contexts.length - known.size)
    (source : γ)
    : ∃ ended, Comes nodes contexts count (Loop.start known source) ended
        ∧ ended.Ended link count budget []
          ((newItems link nodes contexts budget count known).run source) :=
  (Loop.Keeps.start known source).exists_ended link budget differ apart enough rfl
    (Nat.zero_add count)

/-- As many fresh pairs are drawn as there are operations, if there are enough, unless the draws are
given up.
-/
theorem newItems_fresh (link : LinkKind) (budget : Nat) (differ : nodes.Nodup)
    (apart : contexts.Nodup) (enough : count ≤ nodes.length * contexts.length - known.size)
    : Draws (newItems link nodes contexts budget count known : DrawM γ _) fun items =>
        ∃ pairs, pairs.length = count ∧ Fresh nodes contexts known pairs
          ∧ items = pairs.map fun pair => item link pair.1 pair.2 := by
  intro source _
  obtain ⟨ended, comes, ends⟩ := exists_ended link budget differ apart enough source
  have keeps := (Loop.Keeps.start known source).comes comes
  generalize (newItems link nodes contexts budget count known).run source = result at ends ⊢
  cases ends with
  | @finished pairs generated complete =>
      have same : ended.generated = pairs := generated
      exact .answered ⟨pairs, same ▸ complete, same ▸ keeps.fresh, rfl⟩
  | givenUp => exact .lacking rfl

theorem inserts_pending (sound : db.Sound) (link : LinkKind) (count : Nat)
    : Ensures (Preparation.Reaches · name connection db)
        (inserts link (Server.store connection) count : PrepareM Server γ _)
        fun items p => (Load.fillLinks link).Pending db (items.map (·.call))
          ∧ p.Reaches name connection db := by
  unfold inserts
  refine Answers.ensures (.onStore (.existingNodes _)) ?_
  refine Answers.ensures (.onStore (.existingNodes _)) ?_
  refine Answers.ensures (.onStore (linkedPairs_answers (Server.mirrors name connection db) sound
    link)) ?_
  refine Ensures.check rfl fun enough => ?_
  refine ((newItems_fresh link _ sound.nodup_ids sound.nodup_ids
    (Nat.le_of_not_lt enough)).weaken ?_).onSource
  rintro _ ⟨pairs, _, fresh, rfl⟩
  exact fresh.pending sound

end FillLinks
end LineageLoad
