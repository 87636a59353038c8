import LineageLoad.Proofs.Store.Listings
import LineageLoad.Proofs.Workload.Guarantees
import LineageLoad.Proofs.Workload.Requests
import LineageLoad.Workload.Generator

/-!
What loads that read synthesize. An item is made from what the contents list, and its request reads
the same rows again, found by an id, by a name or along links; so its estimate is exact, and the
request is open, since any contents serve it.
-/

namespace LineageLoad

-----------------------------------------------------------------------------------------
-- Exact items
-----------------------------------------------------------------------------------------

/-- The requests that a load may make: each starts from a type, a node or a named node that the
contents hold.
-/
inductive Load.MayRead (db : Database) : Load Sampler → Call → Prop
  | allTypes {kind id type} (stored : db.typeById? kind id = some type)
    : MayRead db (.readTypes kind .all) (.getTypes kind)
  | typeById {kind id type} (stored : db.typeById? kind id = some type)
    : MayRead db (.readTypes kind .byId) (.getTypesById kind [id])
  | typeByName {kind id type} (stored : db.typeById? kind id = some type)
    : MayRead db (.readTypes kind .byName) (.getType kind type.name)
  | nodeById {kind id node} (stored : db.nodeById? kind id = some node)
    : MayRead db (.readNodes kind .byId) (.getNodesById kind [id])
  | nodesOfType {kind id type} (stored : db.typeById? kind id = some type)
    : MayRead db (.readNodes kind .byType) (.getNodesByType kind type.name)
  | namedNode {kind id node name} (stored : db.nodeById? kind id = some node)
    (named : node.name = some name)
    : MayRead db (.readNodes kind .byTypeAndName) (.getNodeByTypeAndName kind node.typeName name)
  | linked {read id} (stored : db.hasNode read.sourceKind id = true)
    : MayRead db (.readLinked read) (ReadLinked.linkCall read id)
  | events {read id} (stored : db.hasNode read.sourceKind id = true)
    : MayRead db (.readEvents read) (ReadLinked.eventCall read id)

/-- The contents serve a call and stay as they are, and what they answer has this size. -/
def Database.Measures (db : Database) (call : Call) (bytes : Nat) : Prop :=
  ∃ reply, serve call db = (.ok reply, db) ∧ call.replyBytes reply = bytes

/-- The estimate of an item is the size of what its request reads. -/
structure Load.Estimates (load : Load Sampler) (db : Database) (item : WorkItem) : Prop where
  candidate : load.MayRead db item.call
  exact : db.Measures item.call item.bytes

/-- As many items as are asked for, with exact estimates. -/
structure Load.Provides (load : Load Sampler) (db : Database) (count : Nat)
    (items : List WorkItem) : Prop where
  length : items.length = count
  estimates : ∀ item ∈ items, load.Estimates db item

section

variable {load : Load Sampler} {db : Database} {count : Nat} {item : WorkItem}
  {rest : List WorkItem}

theorem Load.Provides.nil
    : load.Provides db 0 [] :=
  ⟨rfl, List.forall_mem_nil _⟩

theorem Load.Provides.cons (first : load.Estimates db item) (others : load.Provides db count rest)
    : load.Provides db (count + 1) (item :: rest) :=
  ⟨congrArg Nat.succ others.length, List.forall_mem_cons.mpr ⟨first, others.estimates⟩⟩

end

variable {σ γ : Type} [WordSource γ] {db : Database} {kind : Kind} {store : Store σ}
  {before : σ → Prop}

-----------------------------------------------------------------------------------------
-- Types
-----------------------------------------------------------------------------------------

namespace ReadTypes

/-- The item for a stored type is exact, by the ways to read it. -/
theorem item_estimates (sound : db.Sound) {id : EntityId} {type : EntityType}
    (stored : db.typeById? kind id = some type) (read : TypeRead)
    : ∃ first, item kind read (sumOf (·.readBytes) (db.typesOf kind)) type = .ok first
        ∧ (Load.readTypes kind read).Estimates db first := by
  cases read with
  | all => exact ⟨_, rfl, .allTypes stored, _, rfl, rfl⟩
  | byId =>
      have made : item kind .byId (sumOf (·.readBytes) (db.typesOf kind)) type
          = .ok ⟨.getTypesById kind [id], type.readBytes⟩ := by
        rw [item, sound.types.numbered kind id type stored]
      refine ⟨_, made, .typeById stored, _, rfl, ?_⟩
      simp [stored, Call.replyBytes, sumOf]
  | byName =>
      refine ⟨_, rfl, .typeByName stored, _, rfl, ?_⟩
      rw [sound.typeByName?_name stored]
      rfl

/-- By induction on the number of items. -/
theorem items_gives (sound : db.Sound) (someType : db.typesOf kind ≠ []) (read : TypeRead)
    (count : Nat)
    : Gives (items kind read (sumOf (·.readBytes) (db.typesOf kind)) (db.typesOf kind) count
        : DrawM γ _) ((Load.readTypes kind read).Provides db count) := by
  induction count with
  | zero => exact .pure .nil
  | succ count ih =>
      refine .bind (.choose someType) fun type member => ?_
      obtain ⟨id, stored⟩ := Database.mem_typesOf_iff.mp member
      obtain ⟨first, made, exact⟩ := item_estimates sound stored read
      refine .bind (.lift made) fun _ same => ?_
      subst same
      exact .bind ih fun rest others => .pure (.cons exact others)

/-- There is a request exactly if there is a type. -/
theorem mayRead_iff {read : TypeRead}
    : (∃ call, (Load.readTypes kind read).MayRead db call) ↔ db.typesOf kind ≠ [] := by
  rw [Database.typesOf_ne_nil_iff]
  constructor
  · rintro ⟨_, mayRead⟩
    cases mayRead with
    | allTypes stored => exact ⟨_, _, stored⟩
    | typeById stored => exact ⟨_, _, stored⟩
    | typeByName stored => exact ⟨_, _, stored⟩
  · rintro ⟨id, type, stored⟩
    cases read with
    | all => exact ⟨_, .allTypes stored⟩
    | byId => exact ⟨_, .typeById stored⟩
    | byName => exact ⟨_, .typeByName stored⟩

theorem reads_exact (mirrors : store.Mirrors db before) (sound : db.Sound) (read : TypeRead)
    (count : Nat)
    : SucceedsIff (∃ call, (Load.readTypes kind read).MayRead db call) (Preparation.On before)
        (reads kind read store count : PrepareM σ γ _)
        fun items p => (Load.readTypes kind read).Provides db count items ∧ p.On before := by
  unfold reads
  refine Answers.succeedsIff (mirrors.existingTypes kind).onStore ?_
  refine (SucceedsIff.check rfl (fun none => not_not.mpr (List.isEmpty_iff.mp none))
    fun someType => ?_).congr mayRead_iff.symm
  have someType := mt List.isEmpty_iff.mpr someType
  exact (items_gives sound someType read count).onSource.succeedsIff someType

end ReadTypes

-----------------------------------------------------------------------------------------
-- Nodes
-----------------------------------------------------------------------------------------

namespace ReadNodes

variable {count : Nat}

theorem pick_givesIff (kind : Kind) (nodes : List Node)
    : GivesIff (nodes ≠ []) (pick kind nodes : DrawM γ _) (· ∈ nodes) := by
  unfold pick
  split
  · next none => exact .throw rfl (not_not.mpr (List.isEmpty_iff.mp none))
  · next someNode =>
      have someNode := mt List.isEmpty_iff.mpr someNode
      exact (Gives.choose someNode).succeedsIff someNode

/-- Further items can be drawn once a node was picked. -/
theorem pick_bind {nodes : List Node} {next : Node → DrawM γ (List WorkItem)}
    {claim : List WorkItem → Prop}
    (rest : ∀ node ∈ nodes, Gives (next node) claim)
    : GivesIff (count + 1 = 0 ∨ nodes ≠ []) (pick kind nodes >>= next) claim :=
  ((pick_givesIff kind nodes).bind rest).congr (by simp)

/-- By induction on the number of items. Without nodes there are only no items. -/
theorem itemsById_givesIff (sound : db.Sound) (count : Nat)
    : GivesIff (count = 0 ∨ db.nodesOf kind ≠ [])
        (itemsById kind (db.nodesOf kind) count : DrawM γ _)
        ((Load.readNodes kind .byId).Provides db count) := by
  induction count with
  | zero => exact (Gives.pure .nil).succeedsIff (.inl rfl)
  | succ count ih =>
      refine pick_bind fun node member => ?_
      obtain ⟨id, stored⟩ := Database.mem_nodesOf_iff.mp member
      rw [(sound.nodes kind).numbered id node stored]
      refine .bind (ih.gives (.inr (List.ne_nil_of_mem member))) fun rest others => .pure ?_
      refine .cons ⟨.nodeById stored, _, rfl, ?_⟩ others
      simp [stored, Call.replyBytes, sumOf]

/-- By induction on the number of items. -/
theorem itemsByType_gives (sound : db.Sound) (someType : db.typesOf kind ≠ []) (count : Nat)
    : Gives (itemsByType kind (db.nodesOf kind) (db.typesOf kind) count : DrawM γ _)
        ((Load.readNodes kind .byType).Provides db count) := by
  induction count with
  | zero => exact .pure .nil
  | succ count ih =>
      refine .bind (.choose someType) fun type member => ?_
      obtain ⟨id, stored⟩ := Database.mem_typesOf_iff.mp member
      refine .bind ih fun rest others => .pure ?_
      refine .cons ⟨.nodesOfType stored, _, rfl, ?_⟩ others
      rw [sound.nodesByType_eq]
      rfl

/-- By induction on the number of items. Without named nodes there are only no items. -/
theorem itemsByName_givesIff (sound : db.Sound) (count : Nat)
    : GivesIff (count = 0 ∨ (db.nodesOf kind).filter (·.name.isSome) ≠ [])
        (itemsByName kind ((db.nodesOf kind).filter (·.name.isSome)) count : DrawM γ _)
        ((Load.readNodes kind .byTypeAndName).Provides db count) := by
  induction count with
  | zero => exact (Gives.pure .nil).succeedsIff (.inl rfl)
  | succ count ih =>
      refine pick_bind fun node member => ?_
      obtain ⟨listed, isNamed⟩ := List.mem_filter.mp member
      obtain ⟨id, stored⟩ := Database.mem_nodesOf_iff.mp listed
      obtain ⟨name, named⟩ := Option.isSome_iff_exists.mp isNamed
      refine .bind (ih.gives (.inr (List.ne_nil_of_mem member))) fun rest others => .pure ?_
      rw [named, Option.getD_some]
      refine .cons ⟨.namedNode stored named, _, rfl, ?_⟩ others
      rw [sound.nodeByName?_name stored named]
      rfl

theorem mayRead_byId_iff
    : (∃ call, (Load.readNodes kind .byId).MayRead db call) ↔ db.nodesOf kind ≠ [] := by
  rw [Database.nodesOf_ne_nil_iff]
  constructor
  · rintro ⟨_, mayRead⟩
    cases mayRead with
    | nodeById stored => exact ⟨_, _, stored⟩
  · rintro ⟨id, node, stored⟩
    exact ⟨_, .nodeById stored⟩

theorem mayRead_byType_iff
    : (∃ call, (Load.readNodes kind .byType).MayRead db call) ↔ db.typesOf kind ≠ [] := by
  rw [Database.typesOf_ne_nil_iff]
  constructor
  · rintro ⟨_, mayRead⟩
    cases mayRead with
    | nodesOfType stored => exact ⟨_, _, stored⟩
  · rintro ⟨id, type, stored⟩
    exact ⟨_, .nodesOfType stored⟩

theorem mayRead_byTypeAndName_iff
    : (∃ call, (Load.readNodes kind .byTypeAndName).MayRead db call)
      ↔ (db.nodesOf kind).filter (·.name.isSome) ≠ [] := by
  rw [← List.isEmpty_eq_false_iff, List.isEmpty_eq_false_iff_exists_mem]
  simp only [List.mem_filter, Database.mem_nodesOf_iff, Option.isSome_iff_exists]
  constructor
  · rintro ⟨_, mayRead⟩
    cases mayRead with
    | namedNode stored named => exact ⟨_, ⟨_, stored⟩, _, named⟩
  · rintro ⟨node, ⟨id, stored⟩, name, named⟩
    exact ⟨_, .namedNode stored named⟩

/-- Without items there is nothing to pick, but the types are looked for all the same. -/
theorem reads_exact (mirrors : store.Mirrors db before) (sound : db.Sound) (read : NodeRead)
    (count : Nat)
    : SucceedsIff
        ((count = 0 ∧ read ≠ .byType) ∨ ∃ call, (Load.readNodes kind read).MayRead db call)
        (Preparation.On before) (reads kind read store count : PrepareM σ γ _)
        fun items p => (Load.readNodes kind read).Provides db count items ∧ p.On before := by
  unfold reads
  refine Answers.succeedsIff (mirrors.existingNodes kind).onStore ?_
  cases read with
  | byId =>
      refine (itemsById_givesIff sound count).onSource.congr ?_
      exact or_congr (by simp) mayRead_byId_iff.symm
  | byType =>
      refine Answers.succeedsIff (mirrors.existingTypes kind).onStore ?_
      refine (SucceedsIff.check rfl (fun none => not_not.mpr (List.isEmpty_iff.mp none))
        fun someType => ?_).congr (by simp [mayRead_byType_iff])
      have someType := mt List.isEmpty_iff.mpr someType
      exact (itemsByType_gives sound someType count).onSource.succeedsIff someType
  | byTypeAndName =>
      refine (itemsByName_givesIff sound count).onSource.congr ?_
      exact or_congr (by simp) mayRead_byTypeAndName_iff.symm

end ReadNodes

-----------------------------------------------------------------------------------------
-- Linked nodes and events
-----------------------------------------------------------------------------------------

namespace ReadLinked

variable {count : Nat} {call : EntityId → Call} {ids : List EntityId}

omit [WordSource γ] in
/-- What a call reads is measured without a change. -/
theorem measure_yields (mirrors : store.Mirrors db before) {call : Call} (reads : call.Reads)
    : Yields (Preparation.On before)
        (PrepareM.onStore (measure store call) : PrepareM σ γ _)
        fun bytes p => db.Measures call bytes ∧ p.On before := by
  obtain ⟨reply, served⟩ := reads db
  have measured : Answers before (measure store call) (call.replyBytes reply) :=
    Answers.bind (mirrors.request served) .pure
  refine measured.onStore.yields.weaken fun bytes p ⟨same, kept⟩ => ⟨?_, kept⟩
  subst same
  exact ⟨reply, served, rfl⟩

/-- The sizes that are known are those of what the calls read. -/
def Known (db : Database) (call : EntityId → Call) (sizes : List (EntityId × Nat)) : Prop :=
  ∀ id bytes, sizes.lookup id = some bytes → db.Measures (call id) bytes

theorem Known.cons {sizes : List (EntityId × Nat)} {id : EntityId} {bytes : Nat}
    (known : Known db call sizes) (measured : db.Measures (call id) bytes)
    : Known db call ((id, bytes) :: sizes) := by
  intro other size found
  rw [List.lookup_cons] at found
  split at found
  · next same =>
      cases found
      rwa [eq_of_beq same]
  · exact known other size found

/-- By induction on the number of items. -/
theorem items_yields {load : Load Sampler} (mirrors : store.Mirrors db before)
    (reads : ∀ id, (call id).Reads) (someId : ids ≠ [])
    (candidates : ∀ id ∈ ids, load.MayRead db (call id)) (count : Nat)
    {sizes : List (EntityId × Nat)} (known : Known db call sizes)
    : Yields (Preparation.On before) (items store call ids count sizes : PrepareM σ γ _)
        fun items p => load.Provides db count items ∧ p.On before := by
  induction count generalizing sizes with
  | zero => exact .pure fun _ start => ⟨.nil, start⟩
  | succ count ih =>
      refine .bind (Gives.choose someId).onSource fun id => ?_
      -- Whether the size is known or asked for first, the other items follow in the same way.
      have goesOn (bytes : Nat) : Yields
          (fun p => db.Measures (call id) bytes ∧ id ∈ ids ∧ p.On before)
          (do
            let rest ← items store call ids count ((id, bytes) :: sizes)
            return ⟨call id, bytes⟩ :: rest : PrepareM σ γ _)
          fun items p => load.Provides db (count + 1) items ∧ p.On before := by
        rintro p ⟨measured, member, start⟩
        refine Yields.bind (ih (known.cons measured)) (fun rest => .pure ?_) p start
        exact fun _ kept => ⟨kept.1.cons ⟨candidates id member, measured⟩, kept.2⟩
      dsimp only
      split
      · next bytes found => exact fun p start => goesOn bytes p ⟨known id bytes found, start⟩
      · rintro p ⟨member, start⟩
        refine Yields.bind (measure_yields mirrors (reads id)) (fun bytes => ?_) p start
        exact fun p kept => goesOn bytes p ⟨kept.1, member, kept.2⟩

theorem reads_exact {load : Load Sampler} {nothing : BenchError}
    (category : nothing.category = .failedPrecondition) (mirrors : store.Mirrors db before)
    (sound : db.Sound) (reading : ∀ id, (call id).Reads)
    (candidates
      : ∀ other, load.MayRead db other ↔ ∃ id, db.hasNode kind id = true ∧ other = call id)
    (count : Nat)
    : SucceedsIff (∃ call, load.MayRead db call) (Preparation.On before)
        (reads kind nothing call store count : PrepareM σ γ _)
        fun items p => load.Provides db count items ∧ p.On before := by
  have possible
      : (∃ call, load.MayRead db call) ↔ (db.nodesOf kind).filterMap (·.id) ≠ [] := by
    rw [← List.isEmpty_eq_false_iff, List.isEmpty_eq_false_iff_exists_mem]
    simp only [candidates, sound.mem_ids_iff]
    exact ⟨fun ⟨_, id, stored, _⟩ => ⟨id, stored⟩, fun ⟨id, stored⟩ => ⟨_, id, stored, rfl⟩⟩
  unfold reads
  refine Answers.succeedsIff (mirrors.existingNodes kind).onStore ?_
  refine (SucceedsIff.check category (fun none => not_not.mpr (List.isEmpty_iff.mp none))
    fun someId => ?_).congr possible.symm
  have someId := mt List.isEmpty_iff.mpr someId
  have none : Known db call [] := fun _ _ found => by cases found
  refine (items_yields mirrors reading someId (fun id member => ?_) count none).succeedsIff someId
  exact (candidates _).mpr ⟨id, sound.mem_ids_iff.mp member, rfl⟩

theorem linkCall_reads (read : LinkRead) (id : EntityId)
    : (linkCall read id).Reads := by
  cases read <;> exact fun _ => ⟨_, rfl⟩

theorem eventCall_reads (read : EventRead) (id : EntityId)
    : (eventCall read id).Reads := by
  cases read <;> exact fun _ => ⟨_, rfl⟩

theorem mayRead_linked_iff {read : LinkRead} {other : Call}
    : (Load.readLinked read).MayRead db other
      ↔ ∃ id, db.hasNode read.sourceKind id = true ∧ other = linkCall read id := by
  constructor
  · intro mayRead
    cases mayRead with
    | linked stored => exact ⟨_, stored, rfl⟩
  · rintro ⟨id, stored, rfl⟩
    exact .linked stored

theorem mayRead_events_iff {read : EventRead} {other : Call}
    : (Load.readEvents read).MayRead db other
      ↔ ∃ id, db.hasNode read.sourceKind id = true ∧ other = eventCall read id := by
  constructor
  · intro mayRead
    cases mayRead with
    | events stored => exact ⟨_, stored, rfl⟩
  · rintro ⟨id, stored, rfl⟩
    exact .events stored

end ReadLinked

-----------------------------------------------------------------------------------------
-- Any load that reads
-----------------------------------------------------------------------------------------

/-- A load that reads synthesizes exact items. With operations it does so exactly if there is
something to read; without them some loads do not look. By the kinds of load.
-/
theorem Load.generate_resolves (mirrors : store.Mirrors db before) (sound : db.Sound)
    {load : Load Sampler} (reading : load.isReading = true) (count : Nat)
    : ∃ possible,
        (0 < count → (possible ↔ ∃ call, load.MayRead db call))
        ∧ SucceedsIff possible (Preparation.On before)
            (load.generate store count : PrepareM σ γ _)
            fun items p => load.Provides db count items ∧ p.On before := by
  cases load with
  | fillTypes => cases reading
  | fillNodes => cases reading
  | fillLinks => cases reading
  | fillEvents => cases reading
  | readTypes kind read =>
      exact ⟨_, fun _ => Iff.rfl, ReadTypes.reads_exact mirrors sound read count⟩
  | readNodes kind read =>
      exact ⟨_, fun positive => or_iff_right fun none => Nat.ne_of_gt positive none.1,
        ReadNodes.reads_exact mirrors sound read count⟩
  | readLinked read =>
      exact ⟨_, fun _ => Iff.rfl, ReadLinked.reads_exact rfl mirrors sound
        (ReadLinked.linkCall_reads read) (fun _ => ReadLinked.mayRead_linked_iff) count⟩
  | readEvents read =>
      exact ⟨_, fun _ => Iff.rfl, ReadLinked.reads_exact rfl mirrors sound
        (ReadLinked.eventCall_reads read) (fun _ => ReadLinked.mayRead_events_iff) count⟩

/-- The requests of a load that reads only read. -/
theorem Load.MayRead.acceptable {load : Load Sampler} {call : Call} (mayRead : load.MayRead db call)
    : load.Acceptable db call ∧ call.target? = none := by
  cases mayRead with
  | linked =>
      refine ⟨.read rfl (ReadLinked.linkCall_reads _ _), ?_⟩
      rename_i read _ _
      cases read <;> rfl
  | events =>
      refine ⟨.read rfl (ReadLinked.eventCall_reads _ _), ?_⟩
      rename_i read _ _
      cases read <;> rfl
  | _ => exact ⟨.read rfl fun _ => ⟨_, rfl⟩, rfl⟩

theorem Load.Provides.pending {load : Load Sampler} {count : Nat} {items : List WorkItem}
    (provides : load.Provides db count items)
    : load.Pending db (items.map (·.call)) := by
  refine .of_free fun call member => ?_
  obtain ⟨item, listed, rfl⟩ := List.mem_map.mp member
  exact (provides.estimates item listed).candidate.acceptable

/-- The requests that a load which reads synthesizes are open. -/
theorem Load.generate_pending {name : String} {connection : Connection} (sound : db.Sound)
    {load : Load Sampler} (reading : load.isReading = true) (count : Nat)
    : Ensures (Preparation.Reaches · name connection db)
        (load.generate (Server.store connection) count : PrepareM Server γ _)
        fun items p => load.Pending db (items.map (·.call)) ∧ p.Reaches name connection db := by
  have mirrors := Server.mirrors name connection db
  obtain ⟨_, _, succeeds⟩ := load.generate_resolves (γ := γ) mirrors sound reading count
  exact succeeds.ensures.weaken fun _ _ ⟨provides, reaches⟩ => ⟨provides.pending, reaches⟩

end LineageLoad
