import LineageLoad.Store.Call

/-!
What the checks of the four writes let pass. Each accepted write is described by the rows it finds
and the rows it leaves, so that later proofs need not open the checks again.
-/

namespace LineageLoad

theorem map_eq_ok_iff {ε α β : Type} {outcome : Except ε α} {f : α → β} {result : β}
    : outcome.map f = .ok result ↔ ∃ value, outcome = .ok value ∧ f value = result := by
  cases outcome <;> simp [Except.map]

-----------------------------------------------------------------------------------------
-- Rows of tables
-----------------------------------------------------------------------------------------

theorem Table.mem_values_iff {α : Type} {table : Table α} {row : α}
    : row ∈ table.values ↔ ∃ id : EntityId, table[id]? = some row := by
  simp only [Table.values, List.mem_map, Prod.exists, exists_eq_right]
  exact exists_congr fun _ => Std.ExtTreeMap.mem_toList_iff_getElem?_eq_some

namespace Database

variable {db : Database} {kind : Kind}

theorem mem_typesOf_iff {type : EntityType}
    : type ∈ db.typesOf kind ↔ ∃ id, db.typeById? kind id = some type :=
  Table.mem_values_iff

theorem mem_nodesOf_iff {node : Node}
    : node ∈ db.nodesOf kind ↔ ∃ id, db.nodeById? kind id = some node :=
  Table.mem_values_iff

theorem hasNode_iff {id : EntityId}
    : db.hasNode kind id = true ↔ ∃ node, db.nodeById? kind id = some node := by
  rw [hasNode, Option.isSome_iff_exists]

/-- The type found under a name has that name and stands under the id that comes with it. -/
theorem typeById?_of_entry {name : String} {id : EntityId} {type : EntityType}
    (found : db.typeEntry? kind name = some (id, type))
    : db.typeById? kind id = some type ∧ type.name = name := by
  have member := List.mem_of_find?_eq_some found
  have named := List.find?_some found
  exact ⟨Std.ExtTreeMap.mem_toList_iff_getElem?_eq_some.mp member, by simpa using named⟩

/-- If no type is found under a name, then no type of the kind has it. -/
theorem name_ne_of_typeEntry?_eq_none {name : String} {id : EntityId} {type : EntityType}
    (absent : db.typeEntry? kind name = none) (found : db.typeById? kind id = some type)
    : type.name ≠ name := by
  have different := List.find?_eq_none.mp absent (id, type)
    (Std.ExtTreeMap.mem_toList_iff_getElem?_eq_some.mpr found)
  simpa using different

end Database

-----------------------------------------------------------------------------------------
-- Types
-----------------------------------------------------------------------------------------

/-- A version of a type keeps every declared property of an earlier one. -/
def EntityType.Covers (given stored : EntityType) : Prop :=
  ∀ (name : String) (declared : PropertyType), stored.properties[name]? = some declared
    → given.properties[name]? = some declared

theorem EntityType.conflictError?_eq_none_iff {kind : Kind} {stored given : EntityType}
    : EntityType.conflictError? kind stored given = none ↔ given.Covers stored := by
  simp only [EntityType.conflictError?, List.findSome?_eq_none_iff, Prod.forall,
    Std.ExtTreeMap.mem_toList_iff_getElem?_eq_some, EntityType.Covers]
  refine forall_congr' fun name => forall_congr' fun declared => imp_congr_right fun _ => ?_
  cases given.properties[name]? with
  | none => simp
  | some type => by_cases same : type = declared <;> simp [same]

/-- An id that comes with a named type is the stored one, if there is any. -/
theorem EntityType.wrongIdError?_eq_none_iff {kind : Kind} {id : EntityId} {given : EntityType}
    : EntityType.wrongIdError? kind id given = none
      ↔ ∀ other, given.id = some other → other = id := by
  cases same : given.id with
  | none => simp [EntityType.wrongIdError?, same]
  | some other =>
      by_cases equal : other = id <;> simp [EntityType.wrongIdError?, same, equal]

/-- What both versions declare covers the stored one, if the other does. -/
theorem EntityType.Covers.union {given stored : EntityType} (covers : given.Covers stored)
    : EntityType.Covers { stored with properties := stored.properties ∪ given.properties }
        stored := by
  intro name declared found
  change (stored.properties ∪ given.properties)[name]? = some declared
  rw [Std.ExtTreeMap.getElem?_union, covers name declared found, Option.some_or]

/-- Without further properties, a version that covers the stored one declares the same. -/
theorem EntityType.Covers.union_eq {given stored : EntityType} (covers : given.Covers stored)
    (same : stored.hasFurther given = false)
    : stored.properties ∪ given.properties = stored.properties := by
  apply Std.ExtTreeMap.ext_getElem?
  intro name
  rw [Std.ExtTreeMap.getElem?_union]
  cases declared : given.properties[name]? with
  | none => rfl
  | some type =>
      have listed := List.any_eq_false.mp same (name, type)
        (Std.ExtTreeMap.mem_toList_iff_getElem?_eq_some.mpr declared)
      have known : name ∈ stored.properties := by simpa using listed
      obtain ⟨old, found⟩ := Option.isSome_iff_exists.mp
        (Std.ExtTreeMap.mem_iff_isSome_getElem?.mp known)
      rw [found, ← declared, covers name old found, Option.some_or]

namespace Database

variable {db next : Database} {kind : Kind} {type : EntityType} {canAddFields : Bool}
  {id : EntityId}

/-- How a type can be stored: as a new one, or as a version of the one with its name, which then
declares what both declare.
-/
inductive TypeStored (db : Database) (kind : Kind) (type : EntityType)
    : EntityId → Database → Prop
  | created (absent : db.typeEntry? kind type.name = none) (unnumbered : type.id = none)
    : TypeStored db kind type (db.addType kind type).1 (db.addType kind type).2
  | extended {id stored} (found : db.typeEntry? kind type.name = some (id, stored))
    (numbered : ∀ other, type.id = some other → other = id) (covers : type.Covers stored)
    : TypeStored db kind type id
        (db.setType kind id
          { stored with properties := stored.properties ∪ type.properties })

theorem setType_self {stored : EntityType} (found : db.typeById? kind id = some stored)
    : db.setType kind id stored = db := by
  have table : (db.types.get kind).insert id stored = db.types.get kind := by
    apply Std.ExtTreeMap.ext_getElem?
    intro other
    rw [Std.ExtTreeMap.getElem?_insert]
    split
    · rename_i equal
      rw [← Std.LawfulEqCmp.compare_eq_iff_eq.mp equal]
      exact found.symm
    · rfl
  have types : db.types.set kind (db.types.get kind) = db.types := by
    cases kind <;> rfl
  rw [setType, table, types]

/-- An accepted type is named and stored in one of the two ways. Witness: case analysis on the
checks; a version without further properties is one that leaves the stored row as it is.
-/
theorem putType_eq_ok (stored : db.putType kind type canAddFields = .ok (id, next))
    : type.name ≠ "" ∧ TypeStored db kind type id next := by
  unfold putType at stored
  by_cases empty : type.name = ""
  · simp [empty] at stored
  refine ⟨empty, ?_⟩
  rw [if_neg empty] at stored
  cases entry : db.typeEntry? kind type.name with
  | none =>
      cases given : type.id with
      | none =>
          simp only [entry, given, Except.ok.injEq] at stored
          have result := TypeStored.created entry given
          rwa [stored] at result
      | some _ => simp [entry, given] at stored
  | some found =>
      obtain ⟨under, row⟩ := found
      simp only [entry] at stored
      cases checks : (EntityType.wrongIdError? kind under type).or
          (EntityType.conflictError? kind row type) with
      | some _ => simp [checks] at stored
      | none =>
          obtain ⟨numbered, covers⟩ := Option.or_eq_none_iff.mp checks
          rw [EntityType.wrongIdError?_eq_none_iff] at numbered
          rw [EntityType.conflictError?_eq_none_iff] at covers
          have result := TypeStored.extended entry numbered covers
          cases further : row.hasFurther type with
          | true =>
              cases canAddFields with
              | false => simp [checks, further] at stored
              | true =>
                  simp only [checks, further, if_true, Except.ok.injEq, Prod.mk.injEq] at stored
                  obtain ⟨rfl, rfl⟩ := stored
                  exact result
          | false =>
              simp only [checks, further, Bool.false_eq_true, if_false, Except.ok.injEq,
                Prod.mk.injEq] at stored
              -- Nothing is written here, and the union of both declarations is the stored one.
              obtain ⟨rfl, rfl⟩ := stored
              rw [covers.union_eq further, setType_self (typeById?_of_entry entry).1] at result
              exact result

theorem putType_new (named : type.name ≠ "") (absent : db.typeEntry? kind type.name = none)
    (unnumbered : type.id = none)
    : db.putType kind type canAddFields = .ok (db.addType kind type) := by
  simp [putType, named, absent, unnumbered]

/-- A version that covers the stored type and comes with its id, or with none, is accepted where
further properties are. Witness: none of the checks fails, and either way the stored row ends up
with the union of both declarations.
-/
theorem putType_version {stored : EntityType} (named : type.name ≠ "")
    (found : db.typeEntry? kind type.name = some (id, stored))
    (numbered : ∀ other, type.id = some other → other = id) (covers : type.Covers stored)
    : db.putType kind type true
      = .ok (id, db.setType kind id
          { stored with properties := stored.properties ∪ type.properties }) := by
  have checks : (EntityType.wrongIdError? kind id type).or
      (EntityType.conflictError? kind stored type) = none := by
    rw [Option.or_eq_none_iff, EntityType.wrongIdError?_eq_none_iff,
      EntityType.conflictError?_eq_none_iff]
    exact ⟨numbered, covers⟩
  cases further : stored.hasFurther type with
  | true => simp [putType, named, found, checks, further]
  | false =>
      simp only [putType, named, if_false, found, checks, further, Bool.false_eq_true]
      rw [covers.union_eq further, setType_self (typeById?_of_entry found).1]

end Database

-----------------------------------------------------------------------------------------
-- Nodes
-----------------------------------------------------------------------------------------

/-- A type admits the nodes whose properties it declares with the types of their values. -/
def EntityType.Admits (type : EntityType) (node : Node) : Prop :=
  ∀ (name : String) (value : Value), node.properties[name]? = some value
    → type.properties[name]? = some value.propertyType

theorem EntityType.propertyError?_eq_none_iff {type : EntityType} {node : Node}
    : type.propertyError? node = none ↔ type.Admits node := by
  simp only [EntityType.propertyError?, List.findSome?_eq_none_iff, Prod.forall,
    Std.ExtTreeMap.mem_toList_iff_getElem?_eq_some, EntityType.Admits]
  refine forall_congr' fun name => forall_congr' fun value => imp_congr_right fun _ => ?_
  cases type.properties[name]? with
  | none => simp
  | some declared => by_cases same : declared = value.propertyType <;> simp [same]

theorem EntityType.Covers.admits {given stored : EntityType} {node : Node}
    (covers : given.Covers stored) (admits : stored.Admits node)
    : given.Admits node :=
  fun name value held => covers name value.propertyType (admits name value held)

namespace Database

variable {db next : Database} {kind : Kind}

/-- What the checks of one node establish: its type is stored and admits it, an id belongs to a
stored node of that type, a context is named, and no other node of the type holds the name.
-/
structure Accepts (db : Database) (kind : Kind) (type : EntityType) (node : Node) : Prop where
  typed : db.typeById? kind node.typeId = some type
  stored
    : ∀ id, node.id = some id
      → ∃ old, db.nodeById? kind id = some old ∧ old.typeId = node.typeId
  admitted : type.Admits node
  named : kind = .context → node.name ≠ none
  free
    : ∀ (name : String) (owner : EntityId), node.name = some name
      → (db.nodes.get kind).names[(node.typeId, name)]? = some owner → node.id = some owner

theorem updateError?_eq_none_iff {node : Node}
    : db.updateError? kind node = none
      ↔ ∀ id, node.id = some id
          → ∃ old, db.nodeById? kind id = some old ∧ old.typeId = node.typeId := by
  cases given : node.id with
  | none => simp [updateError?, given]
  | some id =>
      cases found : db.nodeById? kind id with
      | none => simp [updateError?, given, found]
      | some old =>
          by_cases same : old.typeId = node.typeId <;>
            simp [updateError?, given, found, same]

/-- A node may have its name exactly when it is no unnamed context and owns the name if any node
of the type does.
-/
theorem nameError?_eq_none_iff {type : EntityType} {node : Node}
    : db.nameError? kind type node = none
      ↔ (kind = .context → node.name ≠ none)
        ∧ ∀ (name : String) (owner : EntityId), node.name = some name
            → (db.nodes.get kind).names[(node.typeId, name)]? = some owner
            → node.id = some owner := by
  cases given : node.name with
  | none => by_cases context : kind = .context <;> simp [nameError?, given, context]
  | some name =>
      cases held : (db.nodes.get kind).names[(node.typeId, name)]? with
      | none =>
          simp only [nameError?, given, held, true_iff]
          refine ⟨by simp, ?_⟩
          rintro _ owner ⟨⟩ found
          simp [held] at found
      | some owner =>
          simp only [nameError?, given, held, ite_eq_left_iff, reduceCtorEq, imp_false,
            Decidable.not_not]
          refine ⟨fun owned => ⟨by simp, ?_⟩, fun free => free.2 name owner rfl held⟩
          rintro _ other ⟨⟩ found
          rw [owned, ← found, held]

/-- A node passes its checks exactly when it is accepted, by cases on each check. -/
theorem checkNode_eq_ok_iff {type : EntityType} {node : Node}
    : db.checkNode kind node = .ok type ↔ db.Accepts kind type node := by
  unfold checkNode
  cases found : db.typeById? kind node.typeId with
  | none =>
      simp only [reduceCtorEq, false_iff]
      intro accepted
      simp [accepted.typed] at found
  | some stored =>
      have passes : (db.updateError? kind node).or
            ((stored.propertyError? node).or (db.nameError? kind stored node)) = none
          ↔ db.Accepts kind stored node := by
        rw [Option.or_eq_none_iff, Option.or_eq_none_iff, updateError?_eq_none_iff,
          EntityType.propertyError?_eq_none_iff, nameError?_eq_none_iff]
        exact ⟨fun ⟨updates, admits, named, free⟩ => ⟨found, updates, admits, named, free⟩,
          fun accepted => ⟨accepted.stored, accepted.admitted, accepted.named, accepted.free⟩⟩
      have same : db.Accepts kind type node → stored = type :=
        fun accepted => Option.some.inj (found.symm.trans accepted.typed)
      cases checks : (db.updateError? kind node).or
          ((stored.propertyError? node).or (db.nameError? kind stored node)) with
      | some error =>
          simp only [checks, reduceCtorEq, false_iff] at passes ⊢
          exact fun accepted => passes (same accepted ▸ accepted)
      | none =>
          dsimp only
          rw [checks]
          exact ⟨fun equal => Except.ok.inj equal ▸ passes.mp checks,
            fun accepted => congrArg Except.ok (same accepted)⟩

/-- Two nodes of a batch can stand beside each other: they do not share a name of one type, nor
an id.
-/
structure Apart (node other : Node) : Prop where
  names : ∀ name, node.name = some name → other.name = some name → node.typeId ≠ other.typeId
  ids : ∀ id, node.id = some id → other.id ≠ some id

/-- A node of a batch follows others exactly when neither its name nor its id was there before. -/
theorem repeatError?_eq_none_iff {names : List (EntityId × String)} {ids : List EntityId}
    {node : Node}
    : repeatError? kind names ids node = none
      ↔ (∀ name, node.name = some name → (node.typeId, name) ∉ names)
        ∧ ∀ id, node.id = some id → id ∉ ids := by
  rw [repeatError?, Option.or_eq_none_iff]
  refine and_congr ?_ ?_
  · cases node.name <;> simp
  · cases node.id <;> simp

/-- A node with the name of its type filled in, if that is stored. -/
def withTypeName (db : Database) (kind : Kind) (node : Node) : Node :=
  { node with typeName := ((db.typeById? kind node.typeId).map (·.name)).getD node.typeName }

/-- A node that has the name of its type already stays as it is. -/
theorem withTypeName_eq_self {db : Database} {kind : Kind} {node : Node} {type : EntityType}
    (typed : db.typeById? kind node.typeId = some type) (titled : node.typeName = type.name)
    : db.withTypeName kind node = node := by
  rw [withTypeName, typed, Option.map_some, Option.getD_some, ← titled]

/-- A node avoids the names and ids of a batch that begins with another node exactly when it
stands apart from that node and avoids those of the rest.
-/
theorem avoids_iff {names : List (EntityId × String)} {ids : List EntityId} {node other : Node}
    : ((∀ name, other.name = some name → (other.typeId, name)
          ∉ (node.name.map (Prod.mk node.typeId)).toList ++ names)
        ∧ ∀ id, other.id = some id → id ∉ node.id.toList ++ ids)
      ↔ Apart node other
        ∧ (∀ name, other.name = some name → (other.typeId, name) ∉ names)
        ∧ ∀ id, other.id = some id → id ∉ ids := by
  constructor
  · rintro ⟨freshNames, freshIds⟩
    refine ⟨⟨?_, ?_⟩, ?_, ?_⟩
    · intro name named same equal
      exact freshNames name same (by simp [named, equal])
    · intro id numbered same
      exact freshIds id same (by simp [numbered])
    · exact fun name named held => freshNames name named (List.mem_append_right _ held)
    · exact fun id numbered held => freshIds id numbered (List.mem_append_right _ held)
  · rintro ⟨apart, freshNames, freshIds⟩
    refine ⟨?_, ?_⟩
    · intro name named held
      rcases List.mem_append.mp held with first | later
      · simp only [Option.mem_toList, Option.map_eq_some_iff, Prod.mk.injEq] at first
        obtain ⟨_, given, same, rfl⟩ := first
        exact apart.names _ given named same
      · exact freshNames name named later
    · intro id numbered held
      rcases List.mem_append.mp held with first | later
      · exact apart.ids id (by simpa using first) numbered
      · exact freshIds id numbered later

/-- A batch passes its checks exactly when each node does, no two of its nodes share a name or an
id, and none of them repeats an earlier one; only the names of the types are filled in. Witness:
induction on the batch, which moves each node to the names and ids that the rest must avoid.
-/
theorem checkBatch_eq_ok_iff {names : List (EntityId × String)} {ids : List EntityId}
    {nodes filled : List Node}
    : db.checkBatch kind names ids nodes = .ok filled
      ↔ (∀ node ∈ nodes, ∃ type, db.Accepts kind type node)
        ∧ nodes.Pairwise Apart
        ∧ (∀ node ∈ nodes,
            (∀ name, node.name = some name → (node.typeId, name) ∉ names)
            ∧ ∀ id, node.id = some id → id ∉ ids)
        ∧ filled = nodes.map (db.withTypeName kind) := by
  induction nodes generalizing names ids filled with
  | nil => simp [checkBatch, eq_comm]
  | cons node rest ih =>
      simp only [checkBatch, List.forall_mem_cons, List.pairwise_cons, List.map_cons]
      cases checked : db.checkNode kind node with
      | error error =>
          simp only [reduceCtorEq, false_iff]
          rintro ⟨⟨⟨type, accepted⟩, _⟩, _⟩
          simp [checkNode_eq_ok_iff.mpr accepted] at checked
      | ok type =>
          have accepted := checkNode_eq_ok_iff.mp checked
          cases repeated : repeatError? kind names ids node with
          | some error =>
              simp only [reduceCtorEq, false_iff]
              rintro ⟨_, _, ⟨fresh, _⟩, _⟩
              simp [repeatError?_eq_none_iff.mpr fresh] at repeated
          | none =>
              have fresh := repeatError?_eq_none_iff.mp repeated
              have title : db.withTypeName kind node = { node with typeName := type.name } := by
                simp [withTypeName, accepted.typed]
              simp only [map_eq_ok_iff, ih, avoids_iff, forall_and, title]
              constructor
              · rintro ⟨_, ⟨accepts, apart, ⟨separate, names, ids⟩, rfl⟩, rfl⟩
                exact ⟨⟨⟨type, accepted⟩, accepts⟩, ⟨separate, apart⟩, ⟨fresh, names, ids⟩, rfl⟩
              · rintro ⟨⟨_, accepts⟩, ⟨separate, apart⟩, ⟨_, names, ids⟩, rfl⟩
                exact ⟨_, ⟨accepts, apart, ⟨separate, names, ids⟩, rfl⟩, rfl⟩

/-- A batch is stored when its checks let it pass: its nodes are put into the table one after
another, with the names of their types filled in.
-/
theorem putNodes_eq_ok_iff {nodes : List Node} {ids : List EntityId}
    : db.putNodes kind nodes = .ok (ids, next)
      ↔ (∀ node ∈ nodes, ∃ type, db.Accepts kind type node)
        ∧ nodes.Pairwise Apart
        ∧ ids = ((db.nodes.get kind).putAll (nodes.map (db.withTypeName kind))).1
        ∧ next = { db with
            nodes := db.nodes.set kind
              ((db.nodes.get kind).putAll (nodes.map (db.withTypeName kind))).2 } := by
  simp only [putNodes, map_eq_ok_iff, checkBatch_eq_ok_iff, Prod.mk.injEq, List.not_mem_nil,
    not_false_eq_true, implies_true, and_self, true_and]
  constructor
  · rintro ⟨_, ⟨accepts, apart, rfl⟩, rfl, rfl⟩
    exact ⟨accepts, apart, rfl, rfl⟩
  · rintro ⟨accepts, apart, rfl, rfl⟩
    exact ⟨_, ⟨accepts, apart, rfl⟩, rfl, rfl⟩

-----------------------------------------------------------------------------------------
-- Events and links
-----------------------------------------------------------------------------------------

theorem missing?_eq_none_iff {endpoints : List (Kind × EntityId)}
    : db.missing? endpoints = none
      ↔ ∀ endpoint ∈ endpoints, db.hasNode endpoint.1 endpoint.2 = true := by
  simp [missing?, List.findSome?_eq_none_iff]

/-- Both ends of an event are stored. -/
def Joins (db : Database) (event : Event) : Prop :=
  db.hasNode .artifact event.artifact = true ∧ db.hasNode .execution event.execution = true

/-- Both ends of a link between a context and a node of a kind are stored. -/
def Links (db : Database) (kind : Kind) (link : Link) : Prop :=
  db.hasNode kind link.node = true ∧ db.hasNode .context link.context = true

/-- A write that needs endpoints succeeds exactly when all of them are stored. -/
theorem whenNoneMissing_iff {endpoints : List (Kind × EntityId)} {written : Database}
    : (match db.missing? endpoints with
        | some error => .error error
        | none => .ok written : Except StoreError Database) = .ok next
      ↔ (∀ endpoint ∈ endpoints, db.hasNode endpoint.1 endpoint.2 = true) ∧ next = written := by
  rw [← missing?_eq_none_iff]
  cases db.missing? endpoints <;> simp [eq_comm]

theorem putEvents_eq_ok_iff {events : List Event}
    : db.putEvents events = .ok next
      ↔ (∀ event ∈ events, db.Joins event) ∧ next = { db with events := db.events ++ events } := by
  refine whenNoneMissing_iff.trans (and_congr_left' ?_)
  simp only [List.forall_mem_flatMap, List.forall_mem_cons, List.not_mem_nil, false_implies,
    implies_true, and_true, Joins]

theorem putLinks_eq_ok_iff {attributions associations : List Link}
    : db.putLinks attributions associations = .ok next
      ↔ ((∀ link ∈ attributions, db.Links .artifact link)
          ∧ ∀ link ∈ associations, db.Links .execution link)
        ∧ next = { db with
            attributions := db.attributions.insertMany
              (attributions.map fun link => (link.context, link.node))
            associations := db.associations.insertMany
              (associations.map fun link => (link.context, link.node)) } := by
  refine whenNoneMissing_iff.trans (and_congr_left' ?_)
  simp only [List.forall_mem_append, List.forall_mem_flatMap, List.forall_mem_cons,
    List.not_mem_nil, false_implies, implies_true, and_true, Links]

end Database

end LineageLoad
