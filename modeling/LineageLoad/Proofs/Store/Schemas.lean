import LineageLoad.Proofs.Store.Listings
import LineageLoad.Proofs.Store.Refusals

/-!
What a write of a type means: which conditions it has to meet, in which order they are checked, and
what stands in the store afterwards. Types keep what they declare, so that schemas only grow.
-/

namespace LineageLoad

-----------------------------------------------------------------------------------------
-- Conditions in an order
-----------------------------------------------------------------------------------------

/-- The first of some conditions that is not met has this category. -/
inductive FirstUnmet {α : Type} : List (Prop × α) → α → Prop
  | here {condition category rest} (unmet : ¬condition)
    : FirstUnmet ((condition, category) :: rest) category
  | later {condition other rest category} (met : condition) (unmet : FirstUnmet rest category)
    : FirstUnmet ((condition, other) :: rest) category

section

variable {α : Type} {conditions : List (Prop × α)} {category other : α}

/-- At most one condition is the first one that is not met, by induction on those before it. -/
theorem FirstUnmet.unique (first : FirstUnmet conditions category)
    (second : FirstUnmet conditions other)
    : category = other := by
  induction first with
  | here unmet =>
      cases second with
      | here => rfl
      | later met => exact absurd met unmet
  | later met _ ih =>
      cases second with
      | here unmet => exact absurd met unmet
      | later _ rest => exact ih rest

/-- Not all conditions are met if there is a first one that is not. -/
theorem FirstUnmet.not_all (unmet : FirstUnmet conditions category)
    : ¬∀ condition ∈ conditions, condition.1 := by
  intro all
  induction unmet with
  | here fails => exact fails (all _ List.mem_cons_self)
  | later _ _ ih => exact ih fun condition member => all condition (List.mem_cons_of_mem _ member)

end

-----------------------------------------------------------------------------------------
-- Properties of versions
-----------------------------------------------------------------------------------------

theorem EntityType.Extends.refl (type : EntityType)
    : type.Extends type :=
  ⟨rfl, rfl, fun _ _ same => same⟩

/-- What a type and a version of it declare together is what the version declares, if it covers the
type.
-/
theorem EntityType.Covers.union_given {given stored : EntityType} (covers : given.Covers stored)
    : stored.properties ∪ given.properties = given.properties := by
  apply Std.ExtTreeMap.ext_getElem?
  intro name
  rw [Std.ExtTreeMap.getElem?_union]
  cases declared : given.properties[name]? with
  | some type => rfl
  | none =>
      cases found : stored.properties[name]? with
      | none => rfl
      | some type => cases declared.symm.trans (covers name type found)

theorem EntityType.hasFurther_eq_false_iff {stored given : EntityType}
    : stored.hasFurther given = false
      ↔ ∀ name, name ∈ given.properties → name ∈ stored.properties := by
  simp only [EntityType.hasFurther, List.any_eq_false, Prod.forall,
    Std.ExtTreeMap.mem_toList_iff_getElem?_eq_some, Bool.not_eq_true, Bool.not_eq_false',
    Std.ExtTreeMap.contains_iff_mem]
  refine forall_congr' fun name => ?_
  rw [Std.ExtTreeMap.mem_iff_isSome_getElem? (t := given.properties), Option.isSome_iff_exists,
    forall_exists_index]

theorem EntityType.category_of_wrongIdError? {kind : Kind} {id : EntityId} {given : EntityType}
    {error : StoreError} (wrong : EntityType.wrongIdError? kind id given = some error)
    : error.category = .invalidArgument := by
  obtain ⟨other, _, found⟩ := Option.bind_eq_some_iff.mp wrong
  split at found
  · cases found
  · cases found
    rfl

/-- Every refusal for a conflict is one of an omitted or a retyped property. -/
theorem EntityType.category_of_conflictError? {kind : Kind} {stored given : EntityType}
    {error : StoreError} (conflict : EntityType.conflictError? kind stored given = some error)
    : error.category = .failedPrecondition := by
  obtain ⟨⟨name, declared⟩, _, found⟩ := List.exists_of_findSome?_eq_some conflict
  dsimp only at found
  split at found
  · cases found
    rfl
  · split at found
    · cases found
    · cases found
      rfl

namespace Database

variable {db next : Database} {kind : Kind} {type : EntityType} {canAddFields : Bool}

-----------------------------------------------------------------------------------------
-- What a write asks for
-----------------------------------------------------------------------------------------

/-- A type of the kind with a name stands under an id. -/
def HasType (db : Database) (kind : Kind) (name : String) (id : EntityId) (stored : EntityType)
    : Prop :=
  db.typeById? kind id = some stored ∧ stored.name = name

theorem Sound.hasType_iff (sound : db.Sound) {name : String} {id : EntityId} {stored : EntityType}
    : db.HasType kind name id stored ↔ db.typeEntry? kind name = some (id, stored) := by
  constructor
  · rintro ⟨found, rfl⟩
    exact sound.typeEntry?_of_typeById? found
  · exact typeById?_of_entry

/-- What a write of a type asks for, in the order of the checks, with the category of the refusal if
it is not met: a name; no id, if the name is new; else the stored id, if any, all stored properties
with their types, and no others unless properties may be added.
-/
def typeConditions (db : Database) (kind : Kind) (type : EntityType) (canAddFields : Bool)
    : List (Prop × StoreError.Category) :=
  [(type.name ≠ "", .invalidArgument),
    ((∀ id stored, ¬db.HasType kind type.name id stored) → type.id = none, .notFound),
    (∀ id stored, db.HasType kind type.name id stored →
      ∀ given, type.id = some given → given = id, .invalidArgument),
    (∀ id stored, db.HasType kind type.name id stored →
      ∀ (name : String) declared, stored.properties[name]? = some declared →
        type.properties[name]? = some declared, .failedPrecondition),
    (∀ id stored, db.HasType kind type.name id stored →
      canAddFields = true ∨ ∀ name, name ∈ type.properties → name ∈ stored.properties,
      .alreadyExists)]

/-- What holds of each type of a name is what holds of the one that is found. -/
theorem Sound.forall_hasType_iff (sound : db.Sound) {name : String} {id : EntityId}
    {stored : EntityType} (found : db.typeEntry? kind name = some (id, stored))
    {holds : EntityId → EntityType → Prop}
    : (∀ other row, db.HasType kind name other row → holds other row) ↔ holds id stored := by
  refine ⟨fun all => all id stored (sound.hasType_iff.mpr found), fun held other row names => ?_⟩
  cases found.symm.trans (sound.hasType_iff.mp names)
  exact held

theorem Sound.not_hasType (sound : db.Sound) {name : String}
    (absent : db.typeEntry? kind name = none) (id : EntityId) (stored : EntityType)
    : ¬db.HasType kind name id stored := by
  intro names
  cases absent.symm.trans (sound.hasType_iff.mp names)

/-- How a write of a type ends: accepted if all conditions are met, and otherwise refused for the
first one that is not.
-/
inductive TypeDecided (db : Database) (kind : Kind) (type : EntityType) (canAddFields : Bool)
    : Except StoreError (EntityId × Database) → Prop
  | accepted {reply} (all : ∀ condition ∈ db.typeConditions kind type canAddFields, condition.1)
    : TypeDecided db kind type canAddFields (.ok reply)
  | refused {error} (unmet : FirstUnmet (db.typeConditions kind type canAddFields) error.category)
    : TypeDecided db kind type canAddFields (.error error)

theorem Sound.putType_absent (sound : db.Sound) (named : type.name ≠ "")
    (absent : db.typeEntry? kind type.name = none)
    : db.TypeDecided kind type canAddFields (db.putType kind type canAddFields) := by
  have nobody := sound.not_hasType absent
  simp only [putType, if_neg named, absent]
  cases given : type.id with
  | some id =>
      refine .refused (.later named (.here fun free => ?_))
      cases given.symm.trans (free nobody)
  | none =>
      refine .accepted ?_
      simp only [typeConditions, List.forall_mem_cons]
      refine ⟨named, fun _ => given, ?_, ?_, ?_, List.forall_mem_nil _⟩ <;>
        exact fun id stored names => absurd names (nobody id stored)

/-- By cases in the order of the checks against the type that has the name. -/
theorem Sound.putType_found (sound : db.Sound) (named : type.name ≠ "") {id : EntityId}
    {stored : EntityType} (found : db.typeEntry? kind type.name = some (id, stored))
    : db.TypeDecided kind type canAddFields (db.putType kind type canAddFields) := by
  have somebody (nobody : ∀ id stored, ¬db.HasType kind type.name id stored) : type.id = none :=
    absurd (sound.hasType_iff.mpr found) (nobody id stored)
  have forAll {holds : EntityId → EntityType → Prop}
      : (∀ other row, db.HasType kind type.name other row → holds other row) ↔ holds id stored :=
    sound.forall_hasType_iff found
  simp only [putType, if_neg named, found]
  cases wrong : EntityType.wrongIdError? kind id type with
  | some error =>
      refine .refused (.later named (.later somebody ?_))
      rw [EntityType.category_of_wrongIdError? wrong]
      refine .here fun own => ?_
      cases wrong.symm.trans (EntityType.wrongIdError?_eq_none_iff.mpr (forAll.mp own))
  | none =>
      have own : ∀ other row, db.HasType kind type.name other row → ∀ given, type.id = some given →
          given = other := forAll.mpr (EntityType.wrongIdError?_eq_none_iff.mp wrong)
      cases conflict : EntityType.conflictError? kind stored type with
      | some error =>
          refine .refused (.later named (.later somebody (.later own ?_)))
          rw [EntityType.category_of_conflictError? conflict]
          refine .here fun covers => ?_
          cases conflict.symm.trans (EntityType.conflictError?_eq_none_iff.mpr (forAll.mp covers))
      | none =>
          have covers : ∀ other row, db.HasType kind type.name other row → type.Covers row :=
            forAll.mpr (EntityType.conflictError?_eq_none_iff.mp conflict)
          have known
              : stored.hasFurther type = false
                ↔ ∀ name, name ∈ type.properties → name ∈ stored.properties :=
            EntityType.hasFurther_eq_false_iff
          cases further : stored.hasFurther type with
          | false =>
              refine .accepted ?_
              simp only [typeConditions, List.forall_mem_cons]
              exact ⟨named, somebody, own, covers, forAll.mpr (.inr (known.mp further)),
                List.forall_mem_nil _⟩
          | true =>
              cases canAddFields with
              | true =>
                  refine .accepted ?_
                  simp only [typeConditions, List.forall_mem_cons]
                  exact ⟨named, somebody, own, covers, fun _ _ _ => .inl trivial,
                    List.forall_mem_nil _⟩
              | false =>
                  refine .refused (.later named (.later somebody (.later own (.later covers
                    (.here fun allowed => ?_)))))
                  have closed := (forAll.mp allowed).resolve_left (by decide)
                  cases further.symm.trans (known.mpr closed)

theorem Sound.putType_decided (sound : db.Sound) (kind : Kind) (type : EntityType)
    (canAddFields : Bool)
    : db.TypeDecided kind type canAddFields (db.putType kind type canAddFields) := by
  by_cases empty : type.name = ""
  · simp only [putType, if_pos empty]
    exact .refused (.here fun named => named empty)
  · cases entry : db.typeEntry? kind type.name with
    | none => exact sound.putType_absent empty entry
    | some row => exact sound.putType_found empty entry

/-- All conditions are met if no type has the name and no id is given, or if the type that has the
name becomes a version of itself.
-/
theorem Sound.typeConditions_iff (sound : db.Sound)
    : (∀ condition ∈ db.typeConditions kind type canAddFields, condition.1)
      ↔ type.name ≠ ""
        ∧ ((∀ id stored, ¬db.HasType kind type.name id stored) ∧ type.id = none
          ∨ ∃ id stored, db.HasType kind type.name id stored
              ∧ (∀ given, type.id = some given → given = id)
              ∧ (∀ (name : String) declared, stored.properties[name]? = some declared →
                  type.properties[name]? = some declared)
              ∧ (canAddFields = true ∨ ∀ name, name ∈ type.properties →
                  name ∈ stored.properties)) := by
  simp only [typeConditions, List.forall_mem_cons]
  refine and_congr_right fun named => ?_
  cases entry : db.typeEntry? kind type.name with
  | none =>
      have nobody := sound.not_hasType entry
      constructor
      · rintro ⟨free, _⟩
        exact .inl ⟨nobody, free nobody⟩
      · rintro (⟨_, free⟩ | ⟨id, stored, names, _⟩)
        · refine ⟨fun _ => free, ?_, ?_, ?_, List.forall_mem_nil _⟩ <;>
            exact fun id stored names => absurd names (nobody id stored)
        · exact absurd names (nobody id stored)
  | some row =>
      obtain ⟨id, stored⟩ := row
      have names := sound.hasType_iff.mpr entry
      constructor
      · rintro ⟨_, own, covers, allowed, _⟩
        exact .inr ⟨id, stored, names, own id stored names, covers id stored names,
          allowed id stored names⟩
      · rintro (⟨nobody, _⟩ | ⟨other, row, again, own, covers, allowed⟩)
        · exact absurd names (nobody id stored)
        · have found := sound.hasType_iff.mp again
          exact ⟨fun nobody => absurd names (nobody id stored),
            (sound.forall_hasType_iff found).mpr own, (sound.forall_hasType_iff found).mpr covers,
            (sound.forall_hasType_iff found).mpr allowed, List.forall_mem_nil _⟩

-----------------------------------------------------------------------------------------
-- What a write leaves
-----------------------------------------------------------------------------------------

/-- After an accepted write the type stands under its id with exactly the given properties, and all
other rows stay.
-/
theorem TypeStored.rows {id : EntityId} (stored : db.TypeStored kind type id next)
    (sound : db.Sound) (other : Kind) (key : EntityId)
    : next.typeById? other key
      = if other = kind ∧ key = id then some { type with id := some id }
        else db.typeById? other key := by
  cases stored with
  | created => exact typeById?_addType other key
  | @extended _ stored found _ covers =>
      obtain ⟨there, named⟩ := typeById?_of_entry found
      have own := sound.types.numbered kind id stored there
      rw [typeById?_setType, covers.union_given, own, named]

theorem TypeStored.numbered {id : EntityId} (stored : db.TypeStored kind type id next)
    : ∀ other, type.id = some other → other = id := by
  cases stored with
  | created _ unnumbered => exact fun other given => nomatch unnumbered.symm.trans given
  | extended _ own => exact own

theorem TypeStored.frame {id : EntityId} (stored : db.TypeStored kind type id next)
    : next = { db with types := next.types, lastTypeId := next.lastTypeId } := by
  cases stored <;> rfl

/-- Every type that was there before an accepted write is there afterwards in a version that extends
it.
-/
theorem TypeStored.exists_version {id : EntityId} (stored : db.TypeStored kind type id next)
    (sound : db.Sound) {other : Kind} {key : EntityId} {old : EntityType}
    (found : db.typeById? other key = some old)
    : ∃ version, next.typeById? other key = some version ∧ version.Extends old := by
  cases stored with
  | created =>
      refine ⟨old, ?_, .refl old⟩
      rw [typeById?_addType, if_neg, found]
      rintro ⟨rfl, rfl⟩
      have bound := sound.types.bounded other _ old found
      simp only [EntityId] at bound
      omega
  | extended entry _ covers =>
      rw [typeById?_setType]
      split
      · next here =>
          obtain ⟨rfl, rfl⟩ := here
          cases found.symm.trans (typeById?_of_entry entry).1
          exact ⟨_, rfl, rfl, rfl, covers.union⟩
      · exact ⟨old, found, .refl old⟩

/-- A type that stands in the store as it is given is accepted again, and nothing changes. -/
theorem Sound.putType_same (sound : db.Sound) {id : EntityId}
    (found : db.typeById? kind id = some { type with id := some id })
    (own : ∀ other, type.id = some other → other = id)
    : db.putType kind type canAddFields = .ok (id, db) := by
  have named : type.name ≠ "" := sound.types.titled kind id { type with id := some id } found
  have entry := sound.typeEntry?_of_typeById? found
  have numbered : EntityType.wrongIdError? kind id type = none :=
    EntityType.wrongIdError?_eq_none_iff.mpr own
  have covers : EntityType.conflictError? kind { type with id := some id } type = none :=
    EntityType.conflictError?_eq_none_iff.mpr fun _ _ same => same
  have known : EntityType.hasFurther { type with id := some id } type = false :=
    EntityType.hasFurther_eq_false_iff.mpr fun _ there => there
  simp [putType, named, entry, numbered, covers, known]

-----------------------------------------------------------------------------------------
-- Runs
-----------------------------------------------------------------------------------------

theorem commit_types {α : Type} {outcome : Except StoreError (α × Database)}
    (kept : ∀ reply next, outcome = .ok (reply, next) → next.types = db.types)
    : (db.commit outcome).2.types = db.types := by
  cases outcome with
  | error _ => rfl
  | ok pair => exact kept pair.1 pair.2 rfl

/-- Every call leaves a type in a version that extends it, by the calls that write. -/
theorem Sound.extends_serve (sound : db.Sound) (call : Call) {other : Kind} {key : EntityId}
    {old : EntityType} (found : db.typeById? other key = some old)
    : ∃ version, (Database.serve call db).2.typeById? other key = some version
        ∧ version.Extends old := by
  have stays (same : (Database.serve call db).2.types = db.types)
      : ∃ version, (Database.serve call db).2.typeById? other key = some version
        ∧ version.Extends old := by
    rw [typeById?, same]
    exact ⟨old, found, .refl old⟩
  cases call with
  | putType kind type canAddFields =>
      change ∃ version, (db.commit (db.putType kind type canAddFields)).2.typeById? other key
        = some version ∧ _
      cases outcome : db.putType kind type canAddFields with
      | error _ => exact ⟨old, found, .refl old⟩
      | ok reply => exact (putType_eq_ok outcome).2.exists_version sound found
  | putNodes kind nodes =>
      refine stays (commit_types fun _ _ stored => ?_)
      obtain ⟨_, _, _, rfl⟩ := putNodes_eq_ok_iff.mp stored
      rfl
  | putEvents events =>
      refine stays (commit_types fun _ _ stored => ?_)
      obtain ⟨_, stored, same⟩ := map_eq_ok_iff.mp stored
      obtain ⟨_, rfl⟩ := putEvents_eq_ok_iff.mp stored
      cases same
      rfl
  | putLinks attributions associations =>
      refine stays (commit_types fun _ _ stored => ?_)
      obtain ⟨_, stored, same⟩ := map_eq_ok_iff.mp stored
      obtain ⟨_, rfl⟩ := putLinks_eq_ok_iff.mp stored
      cases same
      rfl
  | _ => exact stays rfl

/-- By induction on the calls. -/
theorem Sound.extends_serveAll (sound : db.Sound) (calls : List Call) {other : Kind}
    {key : EntityId} {old : EntityType} (found : db.typeById? other key = some old)
    : ∃ version, (db.serveAll calls).typeById? other key = some version
        ∧ version.Extends old := by
  induction calls generalizing db old with
  | nil => exact ⟨old, found, .refl old⟩
  | cons call rest ih =>
      obtain ⟨version, there, sooner⟩ := sound.extends_serve call found
      obtain ⟨last, here, later⟩ := ih (sound.serve call) there
      exact ⟨last, here, later.trans sooner⟩

/-- What a write of a type means, after any calls. A type is accepted exactly if it has a name and
either no type of the kind has the name and no id is given, or one does and is kept: its id is the
given one, if any, its properties are declared with their types, and there are no others unless
properties may be added. Otherwise the refusal has the category of the first condition in order that
is not met, and nothing changes. After an accepted write the type of the name has the answered id
and exactly the given properties, everything else stays, and the same write again answers the same
id and changes nothing. Whatever is called later, a type keeps its id, its name and the properties
that it declares.
-/
theorem serve_putType_iff (calls : List Call) (kind : Kind) (type : EntityType)
    (canAddFields : Bool)
    : let db := empty.serveAll calls
      let ended := serve (.putType kind type canAddFields) db
      ((∃ id, ended.1 = .ok id)
        ↔ type.name ≠ ""
          ∧ ((∀ id stored, ¬db.HasType kind type.name id stored) ∧ type.id = none
            ∨ ∃ id stored, db.HasType kind type.name id stored
                ∧ (∀ given, type.id = some given → given = id)
                ∧ (∀ (name : String) declared, stored.properties[name]? = some declared →
                    type.properties[name]? = some declared)
                ∧ (canAddFields = true ∨ ∀ name, name ∈ type.properties →
                    name ∈ stored.properties)))
      ∧ (∀ category, (∃ error, ended.1 = .error error ∧ error.category = category)
          ↔ FirstUnmet (db.typeConditions kind type canAddFields) category)
      ∧ (∀ error, ended.1 = .error error → ended.2 = db)
      ∧ (∀ id, ended.1 = .ok id →
          (serve (.getType kind type.name) ended.2).1 = .ok (some { type with id := some id })
          ∧ ended.2.typeById? kind id = some { type with id := some id }
          ∧ (∀ other key, (other, key) ≠ (kind, id) →
              ended.2.typeById? other key = db.typeById? other key)
          ∧ ended.2.nodes = db.nodes
          ∧ ended.2.events = db.events
          ∧ ended.2.attributions = db.attributions
          ∧ ended.2.associations = db.associations
          ∧ serve (.putType kind type canAddFields) ended.2 = (.ok id, ended.2))
      ∧ ∀ more other id stored, db.typeById? other id = some stored →
          ∃ version, (db.serveAll more).typeById? other id = some version
            ∧ version.name = stored.name
            ∧ ∀ (name : String) declared, stored.properties[name]? = some declared →
                version.properties[name]? = some declared := by
  intro db ended
  have sound : db.Sound := empty_sound.serveAll calls
  have decided := sound.putType_decided kind type canAddFields
  refine ⟨?accepted, fun category => ?refused, fun error refusal => ?unchanged,
    fun id answer => ?written, fun more other id stored found => ?kept⟩
  case accepted =>
    rw [← sound.typeConditions_iff]
    change (∃ id, (db.commit (db.putType kind type canAddFields)).1 = .ok id) ↔ _
    generalize db.putType kind type canAddFields = outcome at decided ⊢
    cases decided with
    | accepted all => exact ⟨fun _ => all, fun _ => ⟨_, rfl⟩⟩
    | refused unmet =>
        exact ⟨fun ⟨_, answer⟩ => (nomatch answer), fun all => absurd all unmet.not_all⟩
  case refused =>
    change (∃ error, (db.commit (db.putType kind type canAddFields)).1 = .error error ∧ _) ↔ _
    generalize db.putType kind type canAddFields = outcome at decided ⊢
    cases decided with
    | accepted all =>
        exact ⟨fun ⟨_, refusal, _⟩ => (nomatch refusal), fun unmet => absurd all unmet.not_all⟩
    | @refused error unmet =>
        constructor
        · rintro ⟨_, ⟨⟩, rfl⟩
          exact unmet
        · exact fun first => ⟨error, rfl, unmet.unique first⟩
  case unchanged =>
    exact serve_of_error refusal
  case written =>
    have stored : db.putType kind type canAddFields = .ok (id, ended.2) :=
      of_commit_eq_ok (Prod.ext answer rfl)
    obtain ⟨named, stored⟩ := putType_eq_ok stored
    have after : ended.2.Sound := sound.typeStored named stored
    have rows := stored.rows sound
    have there : ended.2.typeById? kind id = some { type with id := some id } := by
      rw [rows, if_pos ⟨rfl, rfl⟩]
    refine ⟨congrArg Except.ok (after.typeByName?_name there), there, fun other key apart => ?_,
      ?_, ?_, ?_, ?_, congrArg ended.2.commit (after.putType_same there stored.numbered)⟩
    · rw [rows, if_neg fun same => apart (Prod.ext same.1 same.2)]
    all_goals rw [stored.frame]
  case kept =>
    obtain ⟨version, there, kept⟩ := sound.extends_serveAll more found
    exact ⟨version, there, kept.name, kept.covers⟩

end Database

end LineageLoad
