import LineageLoad.Entity
import LineageLoad.Workload.Names
import Mathlib.Data.List.Nodup
import Mathlib.Data.List.Perm.Subperm
import Std.Data.String.ToNat

/-!
Numbered names that are free: names with different numbers differ, so among more numbers than there
are names in use there is one whose name is free, and the search finds it.
-/

namespace LineageLoad

theorem numbered_injective {stem : String} {number other : Nat}
    (same : numbered stem number = numbered stem other)
    : number = other :=
  Nat.repr_injective ((String.append_right_inj stem).mp same)

/-- A numbered name begins with its stem, so it is not empty. -/
theorem numbered_ne_empty {stem : String} {number : Nat} (named : stem ≠ "")
    : numbered stem number ≠ "" :=
  fun empty => named (String.append_eq_empty_iff.mp empty).1

variable {taken : Nat → Bool} {budget next : Nat}

/-- A search that ends at a number that is taken found all numbers up to its budget taken, by
induction on the budget.
-/
theorem taken_of_firstFree (found : taken (firstFree taken budget next) = true)
    : ∀ offset ≤ budget, taken (next + offset) = true := by
  induction budget generalizing next with
  | zero =>
      intro offset within
      obtain rfl := Nat.le_zero.mp within
      exact found
  | succ budget ih =>
      by_cases here : taken next = true
      · rw [firstFree, if_pos here] at found
        intro offset within
        cases offset with
        | zero => exact here
        | succ offset =>
            have later := ih found offset (Nat.le_of_succ_le_succ within)
            rwa [Nat.add_right_comm] at later
      · rw [firstFree, if_neg here] at found
        exact absurd found here

/-- The number that is found is free, if different numbers take different names and there are not
more names in use than the budget.
-/
theorem taken_firstFree_eq_false {α : Type} {names : List α} {name : Nat → α}
    (injective : ∀ {number other}, name number = name other → number = other)
    (inUse : ∀ number, taken number = true → name number ∈ names) (enough : names.length ≤ budget)
    (next : Nat)
    : taken (firstFree taken budget next) = false := by
  by_contra found
  have all := taken_of_firstFree (Bool.not_eq_false _ ▸ found)
  -- Otherwise the numbers up to the budget have more names than there are in use.
  have distinct : ((List.range (budget + 1)).map fun offset => name (next + offset)).Nodup :=
    List.nodup_range.map_on fun _ _ _ _ same => Nat.add_left_cancel (injective same)
  have inside : ((List.range (budget + 1)).map fun offset => name (next + offset)) ⊆ names := by
    intro _ member
    obtain ⟨offset, ranged, rfl⟩ := List.mem_map.mp member
    exact inUse _ (all offset (Nat.le_of_lt_succ (List.mem_range.mp ranged)))
  have few := (List.subperm_of_subset distinct inside).length_le
  rw [List.length_map, List.length_range] at few
  omega

-----------------------------------------------------------------------------------------
-- The first numbers
-----------------------------------------------------------------------------------------

/-- The numbers are the first ones with a property, in ascending order: all numbers with the
property that are not among them come later.
-/
structure FirstNumbers (property : Nat → Prop) (numbers : List Nat) : Prop where
  ascending : numbers.Pairwise (· < ·)
  holds : ∀ number ∈ numbers, property number
  first : ∀ other, property other → other ∉ numbers → ∀ number ∈ numbers, number < other

section

variable {property : Nat → Prop} {numbers : List Nat}

theorem FirstNumbers.nil
    : FirstNumbers property [] :=
  ⟨.nil, List.forall_mem_nil _, fun _ _ _ => List.forall_mem_nil _⟩

theorem FirstNumbers.congr {same : Nat → Prop} (first : FirstNumbers property numbers)
    (iff : ∀ number, property number ↔ same number)
    : FirstNumbers same numbers :=
  (funext fun number => propext (iff number) : property = same) ▸ first

/-- The least number with a property comes before the first ones among the others. -/
theorem FirstNumbers.cons {number : Nat} (holds : property number)
    (least : ∀ other, property other → number ≤ other)
    (rest : FirstNumbers (fun other => number < other ∧ property other) numbers)
    : FirstNumbers property (number :: numbers) where
  ascending := List.pairwise_cons.mpr ⟨fun other member => (rest.holds other member).1,
    rest.ascending⟩
  holds := List.forall_mem_cons.mpr ⟨holds, fun other member => (rest.holds other member).2⟩
  first other holds absent := by
    obtain ⟨different, elsewhere⟩ := not_or.mp (mt List.mem_cons.mpr absent)
    have beyond := Nat.lt_of_le_of_ne (least other holds) (Ne.symm different)
    exact List.forall_mem_cons.mpr ⟨beyond, rest.first other ⟨beyond, holds⟩ elsewhere⟩

theorem FirstNumbers.nodup (first : FirstNumbers property numbers)
    : numbers.Nodup :=
  first.ascending.imp Nat.ne_of_lt

end

/-- The search does not go back, by induction on the budget. -/
theorem le_firstFree (taken : Nat → Bool) (budget next : Nat)
    : next ≤ firstFree taken budget next := by
  induction budget generalizing next with
  | zero => exact Nat.le_refl next
  | succ budget ih =>
      rw [firstFree]
      split
      · exact Nat.le_of_succ_le (ih (next + 1))
      · exact Nat.le_refl next

/-- The search passes over numbers that are taken only, by induction on the budget. -/
theorem firstFree_le {number : Nat} (reached : next ≤ number) (free : taken number = false)
    : firstFree taken budget next ≤ number := by
  induction budget generalizing next with
  | zero => exact reached
  | succ budget ih =>
      rw [firstFree]
      split
      · next here =>
          refine ih (Nat.lt_of_le_of_ne reached fun same => ?_)
          cases (same ▸ here).symm.trans free
      · exact reached

/-- A number that the search finds comes before the first free ones beyond it, which are the same as
when it is taken as well.
-/
theorem FirstNumbers.cons_firstFree {isFree later : Nat → Prop} {numbers : List Nat}
    (free : ∀ number, taken number = false ↔ isFree number)
    (found : taken (firstFree taken budget next) = false)
    (same : ∀ number, firstFree taken budget next < number → (later number ↔ isFree number))
    (rest : FirstNumbers (fun number => firstFree taken budget next + 1 ≤ number ∧ later number)
      numbers)
    : FirstNumbers (fun number => next ≤ number ∧ isFree number)
        (firstFree taken budget next :: numbers) := by
  have least := le_firstFree taken budget next
  refine .cons ⟨least, (free _).mp found⟩
    (fun other holds => firstFree_le holds.1 ((free other).mpr holds.2))
    (rest.congr fun number => and_congr_right fun beyond => ?_)
  rw [same number beyond]
  exact (and_iff_right (Nat.le_of_lt (Nat.lt_of_le_of_lt least beyond))).symm

-----------------------------------------------------------------------------------------
-- Names in use
-----------------------------------------------------------------------------------------

/-- The search among names in use ends at a free one. -/
theorem contains_firstFree {α : Type} [BEq α] [LawfulBEq α] {names : List α} {name : Nat → α}
    (injective : ∀ {number other}, name number = name other → number = other)
    : names.contains
        (name (firstFree (fun k => names.contains (name k)) (names.length + 1) next)) = false :=
  taken_firstFree_eq_false injective (fun _ => List.contains_iff_mem.mp) (Nat.le_succ _) next

theorem firstFree_not_mem {α : Type} [BEq α] [LawfulBEq α] {names : List α} {name : Nat → α}
    (injective : ∀ {number other}, name number = name other → number = other)
    : name (firstFree (fun k => names.contains (name k)) (names.length + 1) next) ∉ names := by
  rw [← List.contains_iff_mem, contains_firstFree injective]
  exact Bool.false_ne_true

/-- The search among the names of properties ends at a free one. -/
theorem contains_firstFree_properties {α : Type} {properties : PropertyMap α} {stem : String}
    : properties.contains (numbered stem (firstFree
        (fun k => properties.contains (numbered stem k)) (properties.size + 1) next)) = false := by
  have inUse (number : Nat) (held : properties.contains (numbered stem number) = true)
      : numbered stem number ∈ properties.keys :=
    Std.ExtTreeMap.mem_keys.mpr (Std.ExtTreeMap.mem_iff_contains.mpr held)
  have enough : properties.keys.length ≤ properties.size + 1 := by
    rw [Std.ExtTreeMap.length_keys]
    exact Nat.le_succ _
  exact taken_firstFree_eq_false numbered_injective inUse enough next

section

variable {stem : String} {numbers : List Nat}

/-- A number whose name is not in use comes before the first ones beyond it. -/
theorem FirstNumbers.cons_unused {taken : List String} {number : Nat}
    (search
      : firstFree (fun k => taken.contains (numbered stem k)) (taken.length + 1) next = number)
    (rest : FirstNumbers (fun k => number + 1 ≤ k ∧ numbered stem k ∉ numbered stem number :: taken)
      numbers)
    : FirstNumbers (fun k => next ≤ k ∧ numbered stem k ∉ taken) (number :: numbers) := by
  subst search
  refine .cons_firstFree (fun k => ?_) (contains_firstFree numbered_injective) (fun k beyond => ?_)
    rest
  · rw [← List.contains_iff_mem, Bool.not_eq_true]
  · rw [List.mem_cons, not_or]
    exact and_iff_right fun same => Nat.ne_of_gt beyond (numbered_injective same)

/-- A number whose name is not declared comes before the first ones beyond it. -/
theorem FirstNumbers.cons_undeclared {α : Type} {properties : PropertyMap α} {number : Nat}
    {value : α}
    (search
      : firstFree (fun k => properties.contains (numbered stem k)) (properties.size + 1) next
        = number)
    (rest
      : FirstNumbers
          (fun k => number + 1 ≤ k
            ∧ numbered stem k ∉ properties.insert (numbered stem number) value)
          numbers)
    : FirstNumbers (fun k => next ≤ k ∧ numbered stem k ∉ properties) (number :: numbers) := by
  subst search
  refine .cons_firstFree (fun k => ?_) contains_firstFree_properties (fun k beyond => ?_) rest
  · rw [Std.ExtTreeMap.mem_iff_contains, Bool.not_eq_true]
  · rw [Std.ExtTreeMap.mem_insert, Std.LawfulEqCmp.compare_eq_iff_eq, not_or]
    exact and_iff_right fun same => Nat.ne_of_lt beyond (numbered_injective same)

end

-----------------------------------------------------------------------------------------
-- Properties by name
-----------------------------------------------------------------------------------------

theorem pairwise_names {α : Type} {properties : List (String × α)}
    (apart : (properties.map (·.1)).Nodup)
    : properties.Pairwise fun first second => ¬compare first.1 second.1 = .eq :=
  (List.pairwise_map.mp apart).imp fun different same =>
    different (Std.LawfulEqCmp.compare_eq_iff_eq.mp same)

/-- A map that is made from a list without repeated names has exactly the properties of the list. -/
theorem getElem?_ofList_iff {α : Type} {properties : List (String × α)} {name : String} {value : α}
    (apart : (properties.map (·.1)).Nodup)
    : (Std.ExtTreeMap.ofList properties compare)[name]? = some value
      ↔ (name, value) ∈ properties := by
  have there {name : String} {value : α} (member : (name, value) ∈ properties)
      : (Std.ExtTreeMap.ofList properties compare)[name]? = some value :=
    Std.ExtTreeMap.getElem?_ofList_of_mem Std.ReflCmp.compare_self (pairwise_names apart) member
  refine ⟨fun found => ?_, there⟩
  have held : name ∈ Std.ExtTreeMap.ofList properties compare :=
    Std.ExtTreeMap.mem_iff_isSome_getElem?.mpr (by rw [found]; rfl)
  obtain ⟨⟨name, other⟩, member, rfl⟩ :=
    List.mem_map.mp (List.contains_iff_mem.mp (Std.ExtTreeMap.mem_ofList.mp held))
  cases (there member).symm.trans found
  exact member

-----------------------------------------------------------------------------------------
-- Numbered properties
-----------------------------------------------------------------------------------------

/-- Properties are added under the first free numbered names from (next) on, with values as
(allowed) says, and the others stay.
-/
structure AddsNumbered {α : Type} (stem : String) (allowed : α → Prop) (next : Nat)
    (before : PropertyMap α) (numbers : List Nat) (after : PropertyMap α) : Prop where
  first : FirstNumbers (fun k => next ≤ k ∧ numbered stem k ∉ before) numbers
  size : after.size = before.size + numbers.length
  others : ∀ name : String, name ∉ numbers.map (numbered stem) → after[name]? = before[name]?
  added : ∀ number ∈ numbers, ∃ value, after[numbered stem number]? = some value ∧ allowed value

namespace AddsNumbered

variable {α : Type} {stem : String} {allowed : α → Prop} {before after : PropertyMap α}
  {numbers : List Nat}

theorem nil
    : AddsNumbered stem allowed next before [] before :=
  ⟨.nil, rfl, fun _ _ => rfl, List.forall_mem_nil _⟩

/-- One more property is added before those with greater numbers. -/
theorem cons {number : Nat} {value : α}
    (search
      : firstFree (fun k => before.contains (numbered stem k)) (before.size + 1) next = number)
    (holds : allowed value)
    (rest
      : AddsNumbered stem allowed (number + 1) (before.insert (numbered stem number) value) numbers
          after)
    : AddsNumbered stem allowed next before (number :: numbers) after where
  first := rest.first.cons_undeclared search
  size := by
    have absent : before.contains (numbered stem number) = false :=
      search ▸ contains_firstFree_properties
    rw [rest.size, Std.ExtTreeMap.size_insert, if_neg (by simp [absent]), List.length_cons]
    omega
  others := by
    intro name elsewhere
    obtain ⟨different, later⟩ := not_or.mp (mt List.mem_cons.mpr elsewhere)
    rw [rest.others name later, Std.ExtTreeMap.getElem?_insert, if_neg]
    exact fun same => different (Std.LawfulEqCmp.compare_eq_iff_eq.mp same).symm
  added := by
    refine List.forall_mem_cons.mpr ⟨⟨value, ?_, holds⟩, rest.added⟩
    have once : numbered stem number ∉ numbers.map (numbered stem) := by
      intro again
      obtain ⟨other, later, same⟩ := List.mem_map.mp again
      exact Nat.ne_of_gt (rest.first.holds other later).1 (numbered_injective same)
    rw [rest.others _ once, Std.ExtTreeMap.getElem?_insert_self]

/-- A property that was there is not among those that are added. -/
theorem keeps (adds : AddsNumbered stem allowed next before numbers after) {name : String}
    {value : α} (found : before[name]? = some value)
    : after[name]? = some value := by
  rw [adds.others, found]
  intro added
  obtain ⟨number, chosen, rfl⟩ := List.mem_map.mp added
  refine (adds.first.holds number chosen).2 (Std.ExtTreeMap.mem_iff_isSome_getElem?.mpr ?_)
  rw [found]
  rfl

/-- Afterwards the names are those that were there and those that are added. -/
theorem mem_iff (adds : AddsNumbered stem allowed next before numbers after) {name : String}
    : name ∈ after ↔ name ∈ before ∨ name ∈ numbers.map (numbered stem) := by
  by_cases added : name ∈ numbers.map (numbered stem)
  · obtain ⟨number, chosen, rfl⟩ := List.mem_map.mp added
    obtain ⟨value, found, _⟩ := adds.added number chosen
    refine iff_of_true (Std.ExtTreeMap.mem_iff_isSome_getElem?.mpr ?_) (.inr added)
    rw [found]
    rfl
  · rw [Std.ExtTreeMap.mem_iff_isSome_getElem?, Std.ExtTreeMap.mem_iff_isSome_getElem?,
      adds.others name added, or_iff_left added]

end AddsNumbered

end LineageLoad
