import LineageLoad.Proofs.Store.Seeds
import LineageLoad.Proofs.Workload.Trials

/-!
Seeding a store, kind by kind. As long as numbers in use are below the counts of rows, every call is
served that a seeding makes, so that it adds exactly the rows that are asked for.
-/

namespace LineageLoad

-----------------------------------------------------------------------------------------
-- Stores over contents
-----------------------------------------------------------------------------------------

/-- A store that serves each call from its contents. If it may fail, then it may refuse the call
instead and leave them.
-/
def Store.Serves {σ : Type} (store : Store σ) (contents : σ → Database) (mayFail : Prop) : Prop :=
  ∀ {call db reply next}, Database.serve call db = (.ok reply, next) →
    Leads (contents · = db) (store.request call)
      (fun answer state => answer = reply ∧ contents state = next)
      fun state => mayFail ∧ contents state = db

/-- Contents serve what they serve. -/
theorem Database.store_serves
    : Database.store.Serves id False := by
  intro call db reply next served state start
  obtain rfl : state = db := start
  change Leaves _ _ ((Database.serve call state).1.mapError BenchError.store,
    (Database.serve call state).2)
  rw [served]
  exact .answered ⟨rfl, rfl⟩

theorem Database.serves_withFailures (fails : List Answer → Call → Option StoreError)
    : (Database.store.withFailures fails).Serves Prod.fst True := by
  intro call db reply next served state start
  obtain ⟨contents, answers⟩ := state
  subst start
  obtain ⟨answer, left, answered, attempts⟩ := serve_withFailures fails call contents answers
  change Leaves _ _ (((store.withFailures fails).serve call (contents, answers)).1.mapError
    BenchError.store, ((store.withFailures fails).serve call (contents, answers)).2)
  rw [answered]
  cases attempts with
  | refused => exact .stopped ⟨trivial, rfl⟩
  | served again =>
      cases served.symm.trans again
      exact .answered ⟨rfl, rfl⟩

-----------------------------------------------------------------------------------------
-- Seeded rows
-----------------------------------------------------------------------------------------

theorem Kind.nodup_all
    : Kind.all.Nodup := by
  decide

theorem Kind.mem_all (kind : Kind)
    : kind ∈ Kind.all := by
  cases kind <;> decide

/-- How the rows of each kind grow when rows of the given kinds are seeded: by exactly (counts) more
rows, which have the next numbers in their names. The rows of other kinds stay.
-/
structure SeedsRows {α ν : Type} (name : α → ν) (seed : Kind → Nat → ν) (counts : PerKind Nat)
    (kinds : List Kind) (before after : Kind → List α) : Prop where
  added
    : ∀ kind ∈ kinds, ∃ new, after kind = before kind ++ new
        ∧ new.map name = (List.range' (before kind).length (counts.get kind)).map (seed kind)
  others : ∀ kind ∉ kinds, after kind = before kind

section

variable {α ν : Type} {name : α → ν} {seed : Kind → Nat → ν} {counts : PerKind Nat} {kind : Kind}
  {kinds : List Kind} {before middle after : Kind → List α}

theorem SeedsRows.nil (rows : Kind → List α)
    : SeedsRows name seed counts [] rows rows :=
  ⟨List.forall_mem_nil _, fun _ _ => rfl⟩

/-- A kind whose rows are seeded first is not seeded again. -/
theorem SeedsRows.cons (once : kind ∉ kinds)
    (first
      : ∃ new, middle kind = before kind ++ new
          ∧ new.map name = (List.range' (before kind).length (counts.get kind)).map (seed kind))
    (same : ∀ other, other ≠ kind → middle other = before other)
    (rest : SeedsRows name seed counts kinds middle after)
    : SeedsRows name seed counts (kind :: kinds) before after where
  added other member := by
    rcases List.mem_cons.mp member with rfl | later
    · rw [rest.others other once]
      exact first
    · have different : other ≠ kind := fun equal => once (equal ▸ later)
      rw [← same other different]
      exact rest.added other later
  others other absent := by
    obtain ⟨different, later⟩ := not_or.mp (mt List.mem_cons.mpr absent)
    rw [rest.others other later, same other different]

/-- There are exactly as many new rows as are asked for. -/
theorem SeedsRows.exists_new (seeds : SeedsRows name seed counts kinds before after)
    (member : kind ∈ kinds)
    : ∃ new, after kind = before kind ++ new ∧ new.length = counts.get kind := by
  obtain ⟨new, listed, names⟩ := seeds.added kind member
  have length := congrArg List.length names
  rw [List.length_map, List.length_map, List.length_range'] at length
  exact ⟨new, listed, length⟩

end

/-- What seeding leaves that adds types of the given kinds. -/
structure Database.SeedsTypes (counts : PerKind Nat) (kinds : List Kind) (before after : Database)
    : Prop where
  rows : SeedsRows (·.name) Kind.typeSeed counts kinds before.typesOf after.typesOf
  frame : after = { before with types := after.types, lastTypeId := after.lastTypeId }
  continues : before.Continues after

/-- What seeding leaves that adds nodes of the given kinds. -/
structure Database.SeedsNodes (counts : PerKind Nat) (kinds : List Kind) (before after : Database)
    : Prop where
  rows
    : SeedsRows (·.name) (fun kind number => some (kind.nodeSeed number)) counts kinds
        before.nodesOf after.nodesOf
  frame : after = { before with nodes := after.nodes }
  continues : before.Continues after

section

variable {σ α : Type} {store : Store σ} {contents : σ → Database} {mayFail : Prop}
  {db next : Database}

/-- What is done with an answer starts from the contents that the call leaves. -/
theorem Store.Serves.bind (serves : store.Serves contents mayFail) {call : Call}
    {reply : call.Reply} {rest : call.Reply → BenchM σ α} {after : α → σ → Prop}
    {failed : σ → Prop} (served : Database.serve call db = (.ok reply, next))
    (refused : mayFail → ∀ state, contents state = db → failed state)
    (goesOn : Leads (contents · = next) (rest reply) after failed)
    : Leads (contents · = db) (store.request call >>= rest) after failed := by
  refine .bind ((serves served).weaken (fun _ _ answered => answered) ?_) ?_
  · intro state stopped
    exact refused stopped.1 state stopped.2
  · intro answer state answered
    obtain ⟨rfl, left⟩ := answered
    exact goesOn state left

-----------------------------------------------------------------------------------------
-- Types
-----------------------------------------------------------------------------------------

/-- New types are listed after the others, with the names that they came with. -/
theorem Database.AddsTypes.exists_typesOf {kind : Kind} {types : List EntityType}
    (adds : db.AddsTypes kind types next) (sound : db.Sound)
    : ∃ new, next.typesOf kind = db.typesOf kind ++ new
        ∧ new.map (·.name) = types.map (·.name) := by
  refine ⟨_, adds.typesOf sound, ?_⟩
  conv_rhs => rw [← map_snd_enumerated db.lastTypeId types, List.map_map]
  exact List.map_map

/-- By induction on the number of types. -/
theorem Store.seedTypesOf_leads (serves : store.Serves contents mayFail) (seedable : db.Seedable)
    (kind : Kind) (count : Nat)
    : let numbers := List.range' (db.typesOf kind).length count
      Leads (contents · = db) (store.seedTypesOf kind numbers)
        (fun _ state => db.AddsTypes kind (numbers.map kind.seedType) (contents state)
          ∧ db.Continues (contents state))
        fun state => mayFail ∧ db.Continues (contents state) := by
  induction count generalizing db with
  | zero =>
      refine .pure fun state start => ?_
      subst start
      exact ⟨.nil _ kind, seedable.continues rfl⟩
  | succ count ih =>
      obtain ⟨served, length, kept⟩ := seedable.serve_seedType kind
      refine serves.bind served (fun may state start => ⟨may, seedable.continues start⟩) ?_
      have rest := ih kept.seedable
      rw [length] at rest
      refine rest.weaken (fun _ _ added => ?_) fun _ stopped => ?_
      · exact ⟨added.1.cons, kept.trans added.2⟩
      · exact ⟨stopped.1, kept.trans stopped.2⟩

/-- By induction on the kinds: the types of a kind that comes later stay until then. -/
theorem Store.seedTypes_leads (serves : store.Serves contents mayFail) (seedable : db.Seedable)
    (counts : PerKind Nat) {kinds : List Kind} (distinct : kinds.Nodup)
    : Leads (contents · = db)
        (kinds.forM fun kind => do
          let existing ← store.existingTypes kind
          store.seedTypesOf kind (List.range' existing.length (counts.get kind)))
        (fun _ state => db.SeedsTypes counts kinds (contents state))
        fun state => mayFail ∧ db.Continues (contents state) := by
  induction kinds generalizing db with
  | nil =>
      refine .pure fun state start => ?_
      subst start
      exact ⟨.nil _, rfl, seedable.continues rfl⟩
  | cons kind rest ih =>
      obtain ⟨once, distinct⟩ := List.nodup_cons.mp distinct
      have listed : Database.serve (.getTypes kind) db = (.ok (db.typesOf kind), db) := rfl
      refine .bind (serves.bind listed (fun may state start => ⟨may, seedable.continues start⟩)
        (seedTypesOf_leads serves seedable kind (counts.get kind))) ?_
      intro _ state seeded
      obtain ⟨adds, kept⟩ := seeded
      refine (ih kept.seedable distinct).weaken (fun _ last seeds => ?_)
        (fun _ stopped => ⟨stopped.1, kept.trans stopped.2⟩) state rfl
      refine ⟨.cons once ?_ ?_ seeds.rows, ?_, kept.trans seeds.continues⟩
      · obtain ⟨new, listed, names⟩ := adds.exists_typesOf seedable.sound
        exact ⟨new, listed, names.trans List.map_map⟩
      · intro other different
        rw [Database.typesOf, adds.frame, PerKind.get_set_of_ne _ _ different]
        rfl
      · conv_lhs => rw [seeds.frame, adds.frame]

-----------------------------------------------------------------------------------------
-- Nodes
-----------------------------------------------------------------------------------------

/-- New nodes are listed after the others, with the names that they came with. -/
theorem Database.AddsNodes.exists_nodesOf {kind : Kind} {nodes : List Node}
    (adds : db.AddsNodes kind nodes next) (sound : db.Sound)
    : ∃ new, next.nodesOf kind = db.nodesOf kind ++ new
        ∧ new.map (·.name) = nodes.map (·.name) := by
  refine ⟨_, adds.nodesOf sound, ?_⟩
  conv_rhs => rw [← map_snd_enumerated (db.nodes.get kind).lastId nodes, List.map_map]
  exact List.map_map

/-- What seeding leaves that adds nodes of one kind. -/
structure Database.SeedsNodesOf (kind : Kind) (count : Nat) (before after : Database) : Prop where
  added
    : ∃ new, after.nodesOf kind = before.nodesOf kind ++ new
        ∧ new.map (·.name)
          = (List.range' (before.nodesOf kind).length count).map fun number =>
            some (kind.nodeSeed number)
  frame : after = { before with nodes := before.nodes.set kind (after.nodes.get kind) }
  continues : before.Continues after

/-- Nodes are seeded unless there is no type of their kind. -/
theorem Store.seedNodesOf_leads (serves : store.Serves contents mayFail) (seedable : db.Seedable)
    (kind : Kind) (count : Nat)
    : Leads (contents · = db) (store.seedNodesOf kind count)
        (fun _ state => db.SeedsNodesOf kind count (contents state))
        fun state => (mayFail ∨ db.typesOf kind = []) ∧ db.Continues (contents state) := by
  have refused (may : mayFail) (state : σ) (start : contents state = db)
      : (mayFail ∨ db.typesOf kind = []) ∧ db.Continues (contents state) :=
    ⟨.inl may, seedable.continues start⟩
  have types : Database.serve (.getTypes kind) db = (.ok (db.typesOf kind), db) := rfl
  have nodes : Database.serve (.getNodes kind) db = (.ok (db.nodesOf kind), db) := rfl
  refine serves.bind types refused ?_
  cases listed : db.typesOf kind with
  | nil => exact fun state start => .stopped ⟨.inr rfl, seedable.continues start⟩
  | cons type others =>
      obtain ⟨typeId, typed⟩ : ∃ typeId, db.typeById? kind typeId = some type :=
        Database.mem_typesOf_iff.mp (listed ▸ List.mem_cons_self)
      have numbered : type.id = some typeId := seedable.sound.types.numbered kind typeId type typed
      obtain ⟨ids, next, served, adds, kept⟩ := seedable.serve_seedNodes typed count
      simp only [List.head?_cons, numbered]
      rw [listed] at refused
      refine serves.bind nodes refused (serves.bind served refused ?_)
      refine .pure fun state start => ?_
      subst start
      obtain ⟨new, listed, names⟩ := adds.exists_nodesOf seedable.sound
      refine ⟨⟨new, listed, names.trans ?_⟩, adds.frame, kept⟩
      rw [List.map_map, List.map_map]
      rfl

/-- A kind lacks a type if nodes are asked for and there is no type to create them with. -/
def Database.LacksType (db : Database) (counts : PerKind Nat) (kind : Kind) : Prop :=
  counts.get kind ≠ 0 ∧ db.typesOf kind = []

/-- What seeding does for one kind, which it passes over if no nodes are asked for. -/
def Store.seedNodesFor (store : Store σ) (counts : PerKind Nat) (kind : Kind) : BenchM σ Unit :=
  if counts.get kind = 0 then return else store.seedNodesOf kind (counts.get kind)

theorem Store.seedNodesFor_leads (serves : store.Serves contents mayFail) (seedable : db.Seedable)
    (counts : PerKind Nat) (kind : Kind)
    : Leads (contents · = db) (store.seedNodesFor counts kind)
        (fun _ state => db.SeedsNodesOf kind (counts.get kind) (contents state))
        fun state => (mayFail ∨ db.LacksType counts kind) ∧ db.Continues (contents state) := by
  refine .branch (fun none => .pure fun state start => ?_) (fun wanted => ?_)
  · subst start
    rw [none]
    exact ⟨⟨[], (List.append_nil _).symm, rfl⟩, by rw [PerKind.set_get_self],
      seedable.continues rfl⟩
  · refine (seedNodesOf_leads serves seedable kind _).weaken (fun _ _ seeds => seeds) ?_
    intro state stopped
    exact stopped.imp_left (Or.imp_right fun lacking => ⟨wanted, lacking⟩)

/-- By induction on the kinds: types stay, so a kind lacks a type later exactly if it lacks one now.
-/
theorem Store.seedNodes_leads (serves : store.Serves contents mayFail) (seedable : db.Seedable)
    (counts : PerKind Nat) {kinds : List Kind} (distinct : kinds.Nodup)
    : Leads (contents · = db) (kinds.forM (store.seedNodesFor counts))
        (fun _ state => db.SeedsNodes counts kinds (contents state))
        fun state =>
          (mayFail ∨ ∃ kind ∈ kinds, db.LacksType counts kind)
            ∧ db.Continues (contents state) := by
  induction kinds generalizing db with
  | nil =>
      refine .pure fun state start => ?_
      subst start
      exact ⟨.nil _, rfl, seedable.continues rfl⟩
  | cons kind rest ih =>
      obtain ⟨once, distinct⟩ := List.nodup_cons.mp distinct
      refine .bind ((seedNodesFor_leads serves seedable counts kind).weaken
        (fun _ _ seeds => seeds) ?_) ?_
      · intro state stopped
        exact stopped.imp_left (Or.imp_right fun lacks => ⟨kind, List.mem_cons_self, lacks⟩)
      · intro _ state seeded
        have same (other : Kind) : (contents state).typesOf other = db.typesOf other := by
          rw [Database.typesOf, seeded.frame]
          rfl
        have goesOn := ih seeded.continues.seedable distinct
        refine goesOn.weaken (fun _ last seeds => ?_) (fun last stopped => ?_) state rfl
        · refine ⟨.cons once seeded.added ?_ seeds.rows, ?_,
            seeded.continues.trans seeds.continues⟩
          · intro other different
            rw [Database.nodesOf, seeded.frame, PerKind.get_set_of_ne _ _ different]
            rfl
          · conv_lhs => rw [seeds.frame, seeded.frame]
        · refine stopped.imp (Or.imp_right ?_) seeded.continues.trans
          rintro ⟨other, later, wanted, lacking⟩
          exact ⟨other, List.mem_cons_of_mem _ later, wanted, (same other).symm.trans lacking⟩

end

-----------------------------------------------------------------------------------------
-- Seeded contents
-----------------------------------------------------------------------------------------

namespace Database.Seedable

variable {db : Database}

theorem run_seedTypes (seedable : db.Seedable) (counts : PerKind Nat)
    : ∃ next, (Database.store.seedTypes counts).run db = (.ok (), next)
        ∧ db.SeedsTypes counts Kind.all next := by
  have leads := Store.seedTypes_leads Database.store_serves seedable counts Kind.nodup_all
  obtain ⟨_, next, run, seeds⟩ := leads.yields (fun _ stopped => stopped.1) db rfl
  exact ⟨next, run, seeds⟩

/-- Kinds are filled if none of them lacks a type. -/
theorem run_seedNodesFor (seedable : db.Seedable) {counts : PerKind Nat} {kinds : List Kind}
    (distinct : kinds.Nodup) (present : ∀ kind ∈ kinds, ¬db.LacksType counts kind)
    : ∃ next, (kinds.forM (Database.store.seedNodesFor counts)).run db = (.ok (), next)
        ∧ db.SeedsNodes counts kinds next := by
  have leads := Store.seedNodes_leads Database.store_serves seedable counts distinct
  have never : ¬(False ∨ ∃ kind ∈ kinds, db.LacksType counts kind) := by
    intro lacking
    obtain ⟨kind, member, lacks⟩ := lacking.resolve_left id
    exact present kind member lacks
  obtain ⟨_, next, run, seeds⟩ := leads.yields (fun _ stopped => never stopped.1) db rfl
  exact ⟨next, run, seeds⟩

/-- The first kind that lacks a type ends the seeding, when those before it are filled. -/
theorem run_seedNodes_lacking (seedable : db.Seedable) {counts : PerKind Nat}
    {filled rest : List Kind} {kind : Kind} (all : Kind.all = filled ++ kind :: rest)
    (present : ∀ other ∈ filled, ¬db.LacksType counts other) (lacks : db.LacksType counts kind)
    : ∃ next, (Database.store.seedNodes counts).run db = (.error (.noTypeToInsertWith kind), next)
        ∧ db.SeedsNodes counts filled next := by
  have distinct : (filled ++ kind :: rest).Nodup := all ▸ Kind.nodup_all
  have distinct : filled.Nodup := (List.nodup_append.mp distinct).1
  obtain ⟨next, run, seeds⟩ := seedable.run_seedNodesFor distinct present
  refine ⟨next, ?_, seeds⟩
  have types : next.typesOf kind = [] := by
    rw [typesOf, seeds.frame]
    exact lacks.2
  have ends : (Database.store.seedNodesFor counts kind).run next
      = (.error (.noTypeToInsertWith kind), next) := by
    rw [Store.seedNodesFor, if_neg lacks.1]
    have listed : (Database.store.existingTypes kind).run next = (.ok (next.typesOf kind), next) :=
      rfl
    rw [Store.seedNodesOf, run_bind_of_ok listed, types]
    rfl
  change (Kind.all.forM (Database.store.seedNodesFor counts)).run db = _
  rw [List.forM_eq_forM] at run ⊢
  rw [all, List.forM_append, run_bind_of_ok run, List.forM_cons, run_bind_of_error ends]

end Database.Seedable

end LineageLoad
