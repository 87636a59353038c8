import LineageLoad.Config.Workloads
import Mathlib.Data.List.Nodup
import Mathlib.Data.List.Perm.Basic
import Mathlib.Logic.Basic
import Mathlib.Tactic.Tauto

/-!
What the entries of a configuration are read as. An entry has fields of its own and names a load by
the key of its kind. The load that it names first is read and those that it names later are passed
over, so an entry may be read although it names several kinds.
-/

namespace LineageLoad

-----------------------------------------------------------------------------------------
-- Reading in steps
-----------------------------------------------------------------------------------------

namespace Decoded

variable {α β : Type} {result : Decoded α} {value : α}

/-- Two steps succeed if the first one does and the second one does with its result. -/
theorem bind_eq_ok_iff {next : α → Decoded β} {value : β}
    : result >>= next = .ok value ↔ ∃ first, result = .ok first ∧ next first = .ok value := by
  cases result with
  | error error => exact iff_of_false nofun fun ⟨_, failed, _⟩ => nomatch failed
  | ok first =>
      constructor
      · exact fun ends => ⟨first, rfl, ends⟩
      · rintro ⟨_, same, ends⟩
        cases same
        exact ends

/-- After a check that passes, what follows it counts. -/
theorem check_bind_eq_ok_iff {check : Decoded Unit} {next : Unit → Decoded β} {value : β}
    : check >>= next = .ok value ↔ check = .ok () ∧ next () = .ok value :=
  bind_eq_ok_iff.trans
    ⟨fun ⟨(), passed, ends⟩ => ⟨passed, ends⟩, fun ⟨passed, ends⟩ => ⟨(), passed, ends⟩⟩

/-- A value is checked by reading it. -/
theorem map_unit_eq_ok_iff
    : result.map (fun _ => ()) = .ok () ↔ ∃ value, result = .ok value := by
  cases result <;> simp [Except.map]

@[simp]
theorem under_eq_ok_iff {name : String} : result.under name = .ok value ↔ result = .ok value := by
  cases result <;> simp [under, Except.mapError]

@[simp]
theorem unlocated_eq_ok_iff : result.unlocated = .ok value ↔ result = .ok value := by
  cases result <;> simp [unlocated, Except.mapError]

end Decoded

namespace Decode

variable {α : Type} {choices : List (String × α)} {value : α}

theorem mem_of_lookup_eq_some {name : String} (found : choices.lookup name = some value)
    : (name, value) ∈ choices := by
  obtain ⟨before, after, split, _⟩ := List.lookup_eq_some_iff.mp found
  exact split ▸ List.mem_append_right before List.mem_cons_self

theorem mem_of_named_eq_ok {name : String} (chosen : named choices name = .ok value)
    : (name, value) ∈ choices := by
  rw [named] at chosen
  split at chosen
  · next found =>
      cases chosen
      exact mem_of_lookup_eq_some found
  · cases chosen

/-- A choice that is read is one of the choices, in each of its two forms. -/
theorem mem_of_choice_eq_ok {rules : DecodeRules} {json : Json}
    (chosen : choice rules choices json = .ok value)
    : ∃ name, (name, value) ∈ choices := by
  unfold choice at chosen
  split at chosen
  · exact ⟨_, mem_of_named_eq_ok chosen⟩
  · cases chosen
  · next name item rest =>
      dsimp only at chosen
      by_cases crowded : (!rest.isEmpty && !rules.extraVariants) = true
      · rw [if_pos crowded] at chosen
        cases chosen
      · rw [if_neg crowded] at chosen
        obtain ⟨found, picked, ends⟩ := Decoded.bind_eq_ok_iff.mp chosen
        split at ends
        · cases ends
          exact ⟨_, mem_of_named_eq_ok (Decoded.under_eq_ok_iff.mp picked)⟩
        · cases ends
  · cases chosen

end Decode

-----------------------------------------------------------------------------------------
-- Kinds of load
-----------------------------------------------------------------------------------------

namespace Load

theorem lookup_families_key (family : Family)
    : families.lookup family.key = some family := by
  cases family <;> rfl

/-- A name is known if it is the key of a kind of load. -/
theorem lookup_families_iff {name : String} {family : Family}
    : families.lookup name = some family ↔ name = family.key := by
  constructor
  · intro found
    obtain ⟨_, _, same⟩ := List.mem_map.mp (Decode.mem_of_lookup_eq_some found)
    cases same
    rfl
  · rintro rfl
    exact lookup_families_key family

/-- A load that has no parameters beside its specification is of the kind that it is listed for, by
cases on the kind.
-/
theorem family_of_mem_plain {family : Family} {load : Load CountRange}
    (member : load ∈ plain family)
    : load.family = family := by
  have all : ∀ load ∈ plain family, load.family = family := by
    cases family <;> decide
  exact all load member

/-- What is read under the key of a kind is a load of that kind, by cases on the kind. -/
theorem family_of_decodeFamily {rules : DecodeRules} {family : Family} {json : Json}
    {load : Load CountRange} (decoded : decodeFamily rules family json = .ok load)
    : load.family = family := by
  have ofPlain (decoded : decodePlain rules family json = .ok load) : load.family = family := by
    obtain ⟨found, _, ends⟩ := Decoded.bind_eq_ok_iff.mp decoded
    unfold Decode.value at ends
    split at ends
    · obtain ⟨_, listed⟩ := Decode.mem_of_choice_eq_ok ends
      obtain ⟨_, member, same⟩ := List.mem_map.mp listed
      cases same
      exact family_of_mem_plain member
    · cases ends
  cases family with
  | fillTypes =>
      obtain ⟨_, _, ends⟩ := Decoded.bind_eq_ok_iff.mp decoded
      obtain ⟨_, _, ends⟩ := Decoded.bind_eq_ok_iff.mp ends
      obtain ⟨_, _, ends⟩ := Decoded.bind_eq_ok_iff.mp ends
      obtain ⟨_, _, ends⟩ := Decoded.bind_eq_ok_iff.mp ends
      cases ends
      rfl
  | fillNodes =>
      obtain ⟨_, _, ends⟩ := Decoded.bind_eq_ok_iff.mp decoded
      obtain ⟨_, _, ends⟩ := Decoded.bind_eq_ok_iff.mp ends
      obtain ⟨_, _, ends⟩ := Decoded.bind_eq_ok_iff.mp ends
      obtain ⟨_, _, ends⟩ := Decoded.bind_eq_ok_iff.mp ends
      obtain ⟨_, _, ends⟩ := Decoded.bind_eq_ok_iff.mp ends
      cases ends
      rfl
  | fillLinks | fillEvents | readTypes | readNodes | readLinked | readEvents =>
      exact ofPlain decoded

end Load

namespace WorkloadConfig

variable {found rest : List (String × Json)} {name : String} {item : Json}
  {config : WorkloadConfig}

/-- The loads that an entry names, in the order of its fields: their kinds and parameters. -/
def loadsOf (found : List (String × Json)) : List (Load.Family × Json) :=
  found.filterMap fun field => (Load.families.lookup field.1).map (·, field.2)

/-- An entry names exactly one kind of load. -/
def NamesOneKind (found : List (String × Json)) : Prop :=
  ∃! family : Load.Family, family.key ∈ found.map (·.1)

theorem mem_loadsOf_iff {family : Load.Family}
    : (family, item) ∈ loadsOf found ↔ (family.key, item) ∈ found := by
  simp only [loadsOf, List.mem_filterMap, Option.map_eq_some_iff, Load.lookup_families_iff,
    Prod.exists]
  constructor
  · rintro ⟨_, _, member, _, rfl, same⟩
    cases same
    exact member
  · exact fun member => ⟨_, _, member, _, rfl, rfl⟩

/-- The load of an entry is the one that it names first, by induction on the fields. -/
theorem decodeLoad_eq
    : decodeLoad found
      = match (loadsOf found).head? with
        | none => .fail .message
        | some (family, item) => (Load.decodeFamily .setAside family item).unlocated := by
  induction found with
  | nil => rfl
  | cons field rest ih =>
      obtain ⟨name, item⟩ := field
      cases known : Load.families.lookup name with
      | none =>
          have skipped : loadsOf ((name, item) :: rest) = loadsOf rest :=
            List.filterMap_cons_none (by rw [known]; rfl)
          rw [skipped, ← ih, decodeLoad, List.find?_cons_of_neg (by simp [known])]
          rfl
      | some family =>
          have first : loadsOf ((name, item) :: rest) = (family, item) :: loadsOf rest :=
            List.filterMap_cons_some (by rw [known]; rfl)
          rw [first, decodeLoad, List.find?_cons_of_pos (by simp [known])]
          simp only [Decode.named, known]
          rfl

theorem decodeLoad_eq_ok_iff {load : Load CountRange}
    : decodeLoad found = .ok load
      ↔ ∃ family item, (loadsOf found).head? = some (family, item)
        ∧ Load.decodeFamily .setAside family item = .ok load := by
  rw [decodeLoad_eq]
  cases (loadsOf found).head? with
  | none => simp [Decoded.fail]
  | some first =>
      obtain ⟨family, item⟩ := first
      simp

-----------------------------------------------------------------------------------------
-- Fields of an entry's own
-----------------------------------------------------------------------------------------

/-- The names of an entry's own fields, in order. -/
def ownOf (found : List (String × Json)) : List String :=
  (found.map (·.1)).filter (· ∈ ownNames)

theorem ownOf_cons_own (own : name ∈ ownNames)
    : ownOf ((name, item) :: rest) = name :: ownOf rest :=
  List.filter_cons_of_pos (decide_eq_true own)

theorem ownOf_cons_other (foreign : name ∉ ownNames)
    : ownOf ((name, item) :: rest) = ownOf rest :=
  List.filter_cons_of_neg (by simpa using foreign)

theorem mem_ownNames
    : name ∈ ownNames ↔ name = "num_operations" ∨ name = "seed" := by
  simp [ownNames, fields, Decode.field]

/-- Tells whether the value of a field can be read: by its rules if it is the entry's own, or at
all.
-/
def checkValue (name : String) (item : Json) : Decoded Unit :=
  match fields.find? (·.name == name) with
  | some field => field.check item
  | none => Decode.readable item

theorem find?_fields_eq_none_iff
    : fields.find? (·.name == name) = none ↔ name ∉ ownNames := by
  simp [ownNames, List.find?_eq_none]

theorem checkValue_numOperations_iff
    : checkValue "num_operations" item = .ok () ↔ ∃ count, Decode.unsigned64 item = .ok count :=
  Decoded.map_unit_eq_ok_iff

theorem checkValue_seed_iff
    : checkValue "seed" item = .ok ()
      ↔ ∃ seed, Decode.nullable Decode.unsigned64 item = .ok seed :=
  Decoded.map_unit_eq_ok_iff

theorem checkValue_other (foreign : name ∉ ownNames)
    : checkValue name item = Decode.readable item := by
  rw [checkValue, find?_fields_eq_none_iff.mpr foreign]

/-- A field is checked before those after it; one of the entry's own must not have been seen. -/
theorem checkEntries_cons_iff {seen : List String}
    : checkEntries seen ((name, item) :: rest) = .ok ()
      ↔ checkValue name item = .ok ()
        ∧ if name ∈ ownNames then name ∉ seen ∧ checkEntries (name :: seen) rest = .ok ()
          else checkEntries seen rest = .ok () := by
  rw [checkEntries, checkValue]
  cases known : fields.find? (·.name == name) with
  | none =>
      rw [if_neg (find?_fields_eq_none_iff.mp known), Decoded.check_bind_eq_ok_iff,
        Decoded.under_eq_ok_iff]
  | some field =>
      have own : name ∈ ownNames := by
        by_contra foreign
        cases known.symm.trans (find?_fields_eq_none_iff.mpr foreign)
      rw [if_pos own]
      by_cases again : name ∈ seen
      · simp [again, Decoded.fail, bind, Except.bind]
      · simp [again, Decoded.check_bind_eq_ok_iff]

/-- The check passes if none of the entry's own fields stands twice and all values can be read, by
induction on the fields.
-/
theorem checkEntries_eq_ok_iff {seen : List String}
    : checkEntries seen found = .ok ()
      ↔ (ownOf found).Nodup
        ∧ (∀ name ∈ ownOf found, name ∉ seen)
        ∧ ∀ field ∈ found, checkValue field.1 field.2 = .ok () := by
  induction found generalizing seen with
  | nil => simp [checkEntries, ownOf]
  | cons field rest ih =>
      obtain ⟨name, item⟩ := field
      rw [checkEntries_cons_iff, List.forall_mem_cons]
      by_cases own : name ∈ ownNames
      · have apart : (∀ other ∈ ownOf rest, other ∉ name :: seen)
            ↔ name ∉ ownOf rest ∧ ∀ other ∈ ownOf rest, other ∉ seen := by
          simp only [List.mem_cons, not_or, forall_and, List.forall_mem_ne']
        rw [if_pos own, ih, ownOf_cons_own own, apart, List.nodup_cons, List.forall_mem_cons]
        tauto
      · rw [if_neg own, ih, ownOf_cons_other own]
        tauto

/-- The value under a name of the entry's own is that of the only field with the name, by induction
on the fields.
-/
theorem lookup_eq_some_iff (once : (ownOf found).Nodup) (own : name ∈ ownNames)
    : found.lookup name = some item ↔ (name, item) ∈ found := by
  induction found with
  | nil => exact iff_of_false nofun List.not_mem_nil
  | cons field rest ih =>
      obtain ⟨other, value⟩ := field
      by_cases same : name = other
      · subst same
        rw [ownOf_cons_own own, List.nodup_cons] at once
        have absent : (name, item) ∉ rest := fun later =>
          once.1 (List.mem_filter.mpr ⟨List.mem_map_of_mem later, decide_eq_true own⟩)
        rw [List.lookup_cons_self, List.mem_cons, or_iff_left absent, Prod.mk.injEq,
          and_iff_right rfl, Option.some.injEq, eq_comm]
      · have further : (ownOf rest).Nodup :=
          once.sublist (((List.sublist_cons_self _ _).map _).filter _)
        have elsewhere : (name, item) ≠ (other, value) := fun both => same (Prod.mk.inj both).1
        rw [List.lookup_cons, beq_false_of_ne same, List.mem_cons, or_iff_right elsewhere]
        exact ih further

theorem lookup_eq_none_iff
    : found.lookup name = none ↔ name ∉ found.map (·.1) := by
  rw [List.lookup_eq_none_iff, List.mem_map]
  simp only [bne_iff_ne, ne_eq, not_exists, not_and]
  exact forall₂_congr fun _ _ => not_congr eq_comm

-----------------------------------------------------------------------------------------
-- Whole entries
-----------------------------------------------------------------------------------------

/-- The fields of an entry read as a configuration. None of its own stands twice; one holds the
number of operations and there may be one for the seed. All others can be read, and the load is that
of the first field which names one.
-/
structure Reads (found : List (String × Json)) (config : WorkloadConfig) : Prop where
  once : (ownOf found).Nodup
  numOperations
    : ∃ item, ("num_operations", item) ∈ found
      ∧ Decode.unsigned64 item = .ok config.numOperations
  seed
    : "seed" ∉ found.map (·.1) ∧ config.seed = none
      ∨ ∃ item seed, ("seed", item) ∈ found
        ∧ Decode.nullable Decode.unsigned64 item = .ok seed
        ∧ config.seed = seed.map (·.toUInt64)
  others
    : ∀ name item, (name, item) ∈ found → name ∉ ownNames → Decode.readable item = .ok ()
  load
    : ∃ family item, (loadsOf found).head? = some (family, item)
      ∧ Load.decodeFamily .setAside family item = .ok config.load

/-- An entry is read after its fields are checked, each of its own from the value under the name. -/
theorem decode_object_steps
    : decode (.object found) = .ok config
      ↔ checkEntries [] found = .ok ()
        ∧ (∃ count, found.lookup "num_operations" = some count
          ∧ Decode.unsigned64 count = .ok config.numOperations)
        ∧ (∃ seed, Decode.valueOr none (Decode.nullable Decode.unsigned64) (found.lookup "seed")
            = .ok seed
          ∧ config.seed = seed.map (·.toUInt64))
        ∧ decodeLoad found = .ok config.load := by
  rw [decode, Decoded.check_bind_eq_ok_iff]
  refine and_congr_right fun _ => ?_
  cases counted : found.lookup "num_operations" with
  | none => exact iff_of_false nofun fun ⟨⟨_, absent, _⟩, _⟩ => nomatch absent
  | some count =>
      constructor
      · intro ends
        obtain ⟨seed, seeded, ends⟩ := Decoded.bind_eq_ok_iff.mp ends
        obtain ⟨operations, counts, ends⟩ := Decoded.bind_eq_ok_iff.mp ends
        obtain ⟨load, loads, ends⟩ := Decoded.bind_eq_ok_iff.mp ends
        cases ends
        exact ⟨⟨count, rfl, counts⟩, ⟨seed, seeded, rfl⟩, loads⟩
      · rintro ⟨⟨_, same, counts⟩, ⟨seed, seeded, kept⟩, loads⟩
        cases same
        refine Decoded.bind_eq_ok_iff.mpr ⟨seed, seeded, ?_⟩
        refine Decoded.bind_eq_ok_iff.mpr ⟨_, counts, ?_⟩
        refine Decoded.bind_eq_ok_iff.mpr ⟨_, loads, ?_⟩
        rw [← kept]
        rfl

theorem Reads.of_decode (decoded : decode (.object found) = .ok config)
    : Reads found config := by
  obtain ⟨checked, ⟨count, counted, counts⟩, ⟨seed, seeded, same⟩, load⟩ :=
    decode_object_steps.mp decoded
  obtain ⟨once, -, values⟩ := checkEntries_eq_ok_iff.mp checked
  refine ⟨once, ⟨count, (lookup_eq_some_iff once (by decide)).mp counted, counts⟩, ?seed,
    fun name item member foreign => ?others, decodeLoad_eq_ok_iff.mp load⟩
  case seed =>
    cases drawn : found.lookup "seed" with
    | none =>
        rw [drawn] at seeded
        cases seeded
        exact .inl ⟨lookup_eq_none_iff.mp drawn, same⟩
    | some item =>
        rw [drawn] at seeded
        exact .inr ⟨item, seed, (lookup_eq_some_iff once (by decide)).mp drawn, seeded, same⟩
  case others =>
    rw [← checkValue_other foreign]
    exact values _ member

/-- The value of each field can be read. -/
theorem Reads.checkValue (reads : Reads found config) (member : (name, item) ∈ found)
    : checkValue name item = .ok () := by
  by_cases own : name ∈ ownNames
  -- A field of the entry's own is the only one with its name, so it is the one that was read.
  · have alone {other : Json} (again : (name, other) ∈ found) : other = item :=
      Option.some.inj <| ((lookup_eq_some_iff reads.once own).mpr again).symm.trans
        ((lookup_eq_some_iff reads.once own).mpr member)
    rcases mem_ownNames.mp own with rfl | rfl
    · obtain ⟨count, again, counts⟩ := reads.numOperations
      exact checkValue_numOperations_iff.mpr ⟨_, alone again ▸ counts⟩
    · rcases reads.seed with ⟨absent, _⟩ | ⟨other, seed, again, seeded, _⟩
      · exact absurd (List.mem_map_of_mem member) absent
      · exact checkValue_seed_iff.mpr ⟨_, alone again ▸ seeded⟩
  · rw [checkValue_other own]
    exact reads.others name item member own

/-- An entry is decoded to what its fields read as. -/
theorem decode_object_eq_ok_iff
    : decode (.object found) = .ok config ↔ Reads found config := by
  refine ⟨.of_decode, fun reads => decode_object_steps.mpr ⟨?checked, ?counted, ?seed, ?load⟩⟩
  case checked =>
    exact checkEntries_eq_ok_iff.mpr
      ⟨reads.once, fun _ _ => List.not_mem_nil, fun _ member => reads.checkValue member⟩
  case counted =>
    obtain ⟨count, counted, counts⟩ := reads.numOperations
    exact ⟨count, (lookup_eq_some_iff reads.once (by decide)).mpr counted, counts⟩
  case seed =>
    rcases reads.seed with ⟨absent, same⟩ | ⟨item, seed, member, seeded, same⟩
    · refine ⟨none, ?_, same⟩
      rw [lookup_eq_none_iff.mpr absent]
      rfl
    · refine ⟨seed, ?_, same⟩
      rw [(lookup_eq_some_iff reads.once (by decide)).mpr member]
      exact seeded
  case load => exact decodeLoad_eq_ok_iff.mpr reads.load

namespace Reads

/-- The kind of the load is one that the entry names. -/
theorem names_family (reads : Reads found config)
    : config.load.family.key ∈ found.map (·.1) := by
  obtain ⟨family, item, first, decoded⟩ := reads.load
  rw [Load.family_of_decodeFamily decoded]
  exact List.mem_map_of_mem (mem_loadsOf_iff.mp (List.mem_of_head? first))

/-- Fields that follow and are not the entry's own are passed over, whatever kinds of load they
name.
-/
theorem append (reads : Reads found config) {further : List (String × Json)}
    (others : ∀ field ∈ further, field.1 ∉ ownNames ∧ Decode.readable field.2 = .ok ())
    : Reads (found ++ further) config where
  once := by
    have none : (further.map (·.1)).filter (· ∈ ownNames) = [] := by
      refine List.filter_eq_nil_iff.mpr (List.forall_mem_map.mpr fun field member => ?_)
      simpa using (others field member).1
    rw [ownOf, List.map_append, List.filter_append, none, List.append_nil]
    exact reads.once
  numOperations := by
    obtain ⟨item, member, counts⟩ := reads.numOperations
    exact ⟨item, List.mem_append_left further member, counts⟩
  seed := by
    refine reads.seed.imp (fun ⟨absent, same⟩ => ⟨?_, same⟩)
      (fun ⟨item, seed, member, read⟩ => ⟨item, seed, List.mem_append_left further member, read⟩)
    rw [List.map_append, List.mem_append, not_or]
    refine ⟨absent, fun late => ?_⟩
    obtain ⟨field, member, same⟩ := List.mem_map.mp late
    exact (others field member).1 (same ▸ by decide)
  others := by
    intro name item member foreign
    rcases List.mem_append.mp member with early | late
    · exact reads.others name item early foreign
    · exact (others _ late).2
  load := by
    obtain ⟨family, item, first, decoded⟩ := reads.load
    refine ⟨family, item, ?_, decoded⟩
    rw [loadsOf, List.filterMap_append, ← loadsOf, List.head?_append, first]
    rfl

/-- The order of the fields does not matter if at most one of them names a load. -/
theorem perm (reads : Reads found config) {order : List (String × Json)} (same : found.Perm order)
    (single : (loadsOf found).length ≤ 1)
    : Reads order config where
  once := ((same.map _).filter _).nodup_iff.mp reads.once
  numOperations := by
    obtain ⟨item, member, counts⟩ := reads.numOperations
    exact ⟨item, same.mem_iff.mp member, counts⟩
  seed := by
    refine reads.seed.imp (fun ⟨absent, unseeded⟩ => ⟨fun late => absent ?_, unseeded⟩)
      (fun ⟨item, seed, member, read⟩ => ⟨item, seed, same.mem_iff.mp member, read⟩)
    exact (same.map _).mem_iff.mpr late
  others name item member := reads.others name item (same.mem_iff.mpr member)
  load := by
    obtain ⟨family, item, first, decoded⟩ := reads.load
    obtain ⟨rest, only⟩ := List.head?_eq_some_iff.mp first
    -- Where no other field names a load, this one is the first in any order.
    have none : rest = [] := by
      rw [only, List.length_cons] at single
      exact List.eq_nil_of_length_eq_zero (by omega)
    have alike : (loadsOf found).Perm (loadsOf order) := same.filterMap _
    rw [only, none, List.singleton_perm] at alike
    exact ⟨family, item, alike ▸ rfl, decoded⟩

end Reads

/-- What an object is read as, whatever fields it has and in whatever order. It is read if its
fields read as a configuration, and only then; without a key of a kind of load it never is. Those
objects that are read although they do not name exactly one kind of load are the ones that name
another kind beside that of the load which is read: fields that follow are passed over, whatever
they name. If no more than one field names a load, the order of the fields does not matter.
-/
theorem decode_object_kinds (found : List (String × Json))
    : (∀ config, decode (.object found) = .ok config ↔ Reads found config)
      ∧ ((∀ family : Load.Family, family.key ∉ found.map (·.1))
        → ∃ error, decode (.object found) = .error error)
      ∧ (((∃ config, decode (.object found) = .ok config) ∧ ¬NamesOneKind found)
        ↔ ∃ config, Reads found config
          ∧ ∃ other : Load.Family, other ≠ config.load.family ∧ other.key ∈ found.map (·.1))
      ∧ (∀ config further, decode (.object found) = .ok config
        → (∀ field ∈ further, field.1 ∉ ownNames ∧ Decode.readable field.2 = .ok ())
        → decode (.object (found ++ further)) = .ok config)
      ∧ (∀ config order, found.Perm order → (loadsOf found).length ≤ 1
        → (decode (.object found) = .ok config ↔ decode (.object order) = .ok config)) := by
  refine ⟨fun config => decode_object_eq_ok_iff, fun unnamed => ?unnamed, ⟨?several, ?violates⟩,
    fun config further decoded others => ?further, fun config order same single => ?order⟩
  case unnamed =>
    cases decoded : decode (.object found) with
    | error error => exact ⟨error, rfl⟩
    | ok config => exact absurd (Reads.of_decode decoded).names_family (unnamed _)
  case several =>
    rintro ⟨⟨config, decoded⟩, several⟩
    have reads := Reads.of_decode decoded
    refine ⟨config, reads, ?_⟩
    by_contra single
    refine several ⟨config.load.family, reads.names_family, fun other named => ?_⟩
    by_contra different
    exact single ⟨other, different, named⟩
  case violates =>
    rintro ⟨config, reads, other, different, named⟩
    exact ⟨⟨config, decode_object_eq_ok_iff.mpr reads⟩,
      fun single => different (single.unique named reads.names_family)⟩
  case further =>
    exact decode_object_eq_ok_iff.mpr ((Reads.of_decode decoded).append others)
  case order =>
    have alike : (loadsOf order).length ≤ 1 :=
      (same.filterMap _ : (loadsOf found).Perm (loadsOf order)).length_eq ▸ single
    rw [decode_object_eq_ok_iff, decode_object_eq_ok_iff]
    exact ⟨fun reads => reads.perm same single, fun reads => reads.perm same.symm alike⟩

/-- An entry that names two kinds of load is read as the first one of them. -/
theorem decode_object_twoKinds
    : let found : List (String × Json) :=
        [("num_operations", .integer 1),
          ("fill_events_config", .object [("specification", .string "input")]),
          ("read_events_config", .object [("specification", .string "events_by_artifact_ids")])]
      decode (.object found)
          = .ok { numOperations := 1, seed := none, load := .fillEvents .input }
        ∧ ¬NamesOneKind found := by
  intro found
  refine ⟨rfl, fun single => ?_⟩
  have first : Load.Family.fillEvents.key ∈ found.map (·.1) := by decide
  have second : Load.Family.readEvents.key ∈ found.map (·.1) := by decide
  cases single.unique first second

end WorkloadConfig
end LineageLoad
