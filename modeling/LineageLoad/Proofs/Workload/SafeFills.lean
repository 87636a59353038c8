import LineageLoad.Proofs.Workload.NewLinks
import LineageLoad.Proofs.Workload.Resilience
import LineageLoad.Proofs.Workload.Safety

/-!
Loads that fill a store never choose from nothing, whatever the store refuses and whichever ids it
hides. Those that use up what they choose from check beforehand that there is enough of it.
-/

namespace LineageLoad

variable {σ γ α : Type} {holds : σ → Prop} {drawn : γ → Prop} {limit count : Nat}
  {store : Store σ} {kind : Kind} {numProperties stringBytes : Sampler}

-----------------------------------------------------------------------------------------
-- Loads that update
-----------------------------------------------------------------------------------------

/-- Updates need as many rows as items. They ask for rows only if some are missing, so that the
number of missing ones is a difference. What they do with the rows is left open.
-/
theorem updates_safe {good : Preparation σ γ → Prop} {shown : List α → Prop}
    {after : List WorkItem → Prop} (read : PrepareM σ γ (List α))
    (makeUp : Nat → PrepareM σ γ Unit) (items : List α → DrawM γ (List WorkItem))
    (error : Nat → BenchError) (reason : ∀ found, (error found).category ≠ .defect)
    (reads : Safe good read shown)
    (makesUp : ∀ missing, 0 < missing → missing ≤ count → Safe good (makeUp missing) fun _ => True)
    (gives
      : ∀ rows, shown rows → count ≤ rows.length →
          Safe good (PrepareM.onSource (items (rows.take count))) after)
    : Safe good
        (do
          let mut existing ← read
          if existing.length < count then
            makeUp (count - existing.length)
            existing ← read
          if existing.length < count then throw (error existing.length)
          PrepareM.onSource (items (existing.take count)))
        after := by
  have enough (existing : List α) (listed : shown existing)
      : Safe good
          (do
            if existing.length < count then throw (error existing.length)
            PrepareM.onSource (items (existing.take count)))
          after :=
    .check (reason _) fun enough => gives existing listed (Nat.le_of_not_lt enough)
  refine .bind reads fun existing listed => ?_
  refine .branch (fun few => ?_) (fun _ => enough existing listed)
  refine .bind (makesUp _ (Nat.sub_pos_of_lt few) (Nat.sub_le _ _)) fun _ _ => ?_
  exact .bind reads fun again listed => enough again listed

variable [WordSource γ]

namespace FillTypes

/-- By induction on the number of items. -/
theorem insertItems_synthesizes (count next : Nat) (taken : List String)
    : Gives (insertItems kind numProperties count next taken : DrawM γ _)
        (store.Synthesizes holds (.fillTypes kind false numProperties) count) := by
  induction count generalizing next taken with
  | zero => exact .pure .nil
  | succ count ih =>
      unfold insertItems
      dsimp only
      refine .bind (.drawn _) fun properties _ => ?_
      exact .bind (ih _ _) fun rest others => .pure (.cons (.newType rfl) others)

/-- By induction on the types. Only types of the listed names are updated. -/
theorem updateItems_synthesizes {state : σ} {listed : List EntityType} (held : holds state)
    (answered : (store.serve (.getTypes kind) state).1 = .ok listed) {types : List EntityType}
    (within : types ⊆ listed)
    : Gives (updateItems kind numProperties types : DrawM γ _)
        (store.Synthesizes holds (.fillTypes kind true numProperties) types.length) := by
  induction types with
  | nil => exact .pure .nil
  | cons type rest ih =>
      obtain ⟨member, within⟩ := List.cons_subset.mp within
      refine .bind (.drawn _) fun sampled _ => ?_
      refine .bind (ih within) fun items others => .pure (.cons ?_ others)
      exact .typeVersion held answered (List.mem_map.mpr ⟨type, member, rfl⟩)

theorem inserts_safe (upholds : store.Upholds holds) (count : Nat)
    : Safe (Preparation.Good holds (fun _ => True) limit)
        (inserts kind numProperties store count : PrepareM σ γ _)
        (store.Synthesizes holds (.fillTypes kind false numProperties) count) := by
  refine .bind (upholds.types_safe kind) fun existing _ => ?_
  refine .bind upholds.totalTypes_safe.onStore fun total _ => ?_
  exact (insertItems_synthesizes count total _).safe.onSource

theorem makeUp_safe (upholds : store.Upholds holds) {missing : Nat} (some : 0 < missing)
    (few : missing ≤ count)
    : Safe (Preparation.Good holds (fun _ => True) count)
        (makeUp kind numProperties store missing : PrepareM σ γ _) fun _ => True := by
  refine .bind (Safe.note ⟨some, few⟩) fun _ _ => ?_
  refine .bind (inserts_safe upholds missing) fun items made => ?_
  refine upholds.forM_issue_safe (fun _ _ => ?_) fun item member => ?_
  · exact trivial
  · exact (made.issues item member).preparing_type

theorem updates_safe (upholds : store.Upholds holds) (count : Nat)
    : Safe (Preparation.Good holds (fun _ => True) count)
        (updates kind numProperties store count : PrepareM σ γ _)
        (store.Synthesizes holds (.fillTypes kind true numProperties) count) := by
  refine LineageLoad.updates_safe (PrepareM.onStore (store.existingTypes kind))
    (makeUp kind numProperties store) (updateItems kind numProperties) (.tooFewTypes kind · count)
    (fun _ => nofun) (upholds.types_safe kind) (fun _ => makeUp_safe upholds)
    fun types listed enough => ?_
  obtain ⟨state, held, answered⟩ := listed
  have gives : Gives (updateItems kind numProperties (types.take count) : DrawM γ _) _ :=
    updateItems_synthesizes held answered (List.take_subset count types)
  rw [List.length_take_of_le enough] at gives
  exact gives.safe.onSource

end FillTypes

namespace FillNodes

/-- By induction on the number of items. -/
theorem insertItems_synthesizes {types : List (EntityId × EntityType)} (someType : types ≠ [])
    (count next : Nat) (taken : List (EntityId × String))
    : Gives (insertItems kind numProperties stringBytes types count next taken : DrawM γ _)
        (store.Synthesizes holds (.fillNodes kind false numProperties stringBytes) count) := by
  induction count generalizing next taken with
  | zero => exact .pure .nil
  | succ count ih =>
      unfold insertItems
      refine .bind (.choose someType) fun drawn _ => ?_
      obtain ⟨typeId, type⟩ := drawn
      refine .bind (.drawn _) fun wanted _ => ?_
      refine .bind (.drawn _) fun properties _ => ?_
      refine .bind (.drawn _) fun custom _ => ?_
      exact .bind (ih _ _) fun rest others => .pure (.cons (.newNode rfl) others)

/-- By induction on the nodes. Only nodes of the listed names are updated. -/
theorem updateItems_synthesizes {state : σ} {listed : List Node} (held : holds state)
    (answered : (store.serve (.getNodes kind) state).1 = .ok listed) {nodes : List Node}
    (within : nodes ⊆ listed)
    : Gives (updateItems kind numProperties stringBytes nodes : DrawM γ _)
        (store.Synthesizes holds (.fillNodes kind true numProperties stringBytes)
          nodes.length) := by
  induction nodes with
  | nil => exact .pure .nil
  | cons node rest ih =>
      obtain ⟨member, within⟩ := List.cons_subset.mp within
      refine .bind (.drawn _) fun sampled _ => ?_
      refine .bind (.drawn _) fun customProperties _ => ?_
      refine .bind (ih within) fun items others => .pure (.cons ?_ others)
      exact .nodeVersion held answered (List.mem_map.mpr ⟨node, member, rfl⟩)

/-- Types whose ids are hidden are left out before it is checked that there are any. -/
theorem inserts_safe (upholds : store.Upholds holds) (count : Nat)
    : Safe (Preparation.Good holds (fun _ => True) limit)
        (inserts kind numProperties stringBytes store count : PrepareM σ γ _)
        (store.Synthesizes holds (.fillNodes kind false numProperties stringBytes) count) := by
  refine .bind (upholds.types_safe kind) fun types _ => ?_
  refine .check nofun fun someType => ?_
  have someType := mt List.isEmpty_iff.mpr someType
  refine .bind (upholds.nodes_safe kind) fun existing _ => ?_
  exact (insertItems_synthesizes someType count _ _).safe.onSource

theorem makeUp_safe (upholds : store.Upholds holds) {missing : Nat} (some : 0 < missing)
    (few : missing ≤ count)
    : Safe (Preparation.Good holds (fun _ => True) count)
        (makeUp kind numProperties stringBytes store missing : PrepareM σ γ _)
        fun _ => True := by
  refine .bind (Safe.note ⟨some, few⟩) fun _ _ => ?_
  refine .bind (inserts_safe upholds missing) fun items made => ?_
  refine upholds.forM_issue_safe (fun _ _ => ?_) fun item member => ?_
  · exact trivial
  · exact (made.issues item member).preparing_node

theorem updates_safe (upholds : store.Upholds holds) (count : Nat)
    : Safe (Preparation.Good holds (fun _ => True) count)
        (updates kind numProperties stringBytes store count : PrepareM σ γ _)
        (store.Synthesizes holds (.fillNodes kind true numProperties stringBytes) count) := by
  refine LineageLoad.updates_safe (PrepareM.onStore (store.existingNodes kind))
    (makeUp kind numProperties stringBytes store) (updateItems kind numProperties stringBytes)
    (.tooFewNodes kind · count) (fun _ => nofun) (upholds.nodes_safe kind)
    (fun _ => makeUp_safe upholds) fun nodes listed enough => ?_
  obtain ⟨state, held, answered⟩ := listed
  have gives
      : Gives (updateItems kind numProperties stringBytes (nodes.take count) : DrawM γ _) _ :=
    updateItems_synthesizes held answered (List.take_subset count nodes)
  rw [List.length_take_of_le enough] at gives
  exact gives.safe.onSource

end FillNodes

-----------------------------------------------------------------------------------------
-- Loads of links
-----------------------------------------------------------------------------------------

namespace FillLinks

/-- What the loop that draws pairs begins with. -/
structure Ends where
  nodes : List EntityId
  contexts : List EntityId
  known : PairSet

/-- Enough pairs of different ends are left, since more of them cannot be known. -/
structure Suffices (count : Nat) (ends : Ends) : Prop where
  nodes : ends.nodes.Nodup
  contexts : ends.contexts.Nodup
  enough : count ≤ ends.nodes.length * ends.contexts.length - ends.known.size

/-- By induction on the contexts. -/
theorem storedPairs_safe (upholds : store.Upholds holds) (link : LinkKind)
    (contexts : List EntityId) (known : PairSet)
    : Safe holds (storedPairs link store contexts known) fun _ => True := by
  induction contexts generalizing known with
  | nil => exact .pure trivial
  | cons context rest ih =>
      have asked : Safe holds (linkedNodes link store context) fun _ => True := by
        cases link with
        | attribution => exact (upholds.request_safe rfl).weaken fun _ _ => trivial
        | association => exact (upholds.request_safe rfl).weaken fun _ _ => trivial
      exact .bind asked fun _ _ => ih _

/-- Nothing is drawn before the loop, and the loop begins only if enough pairs are left. -/
theorem inserts_approaches (upholds : store.Upholds holds) (link : LinkKind) (count : Nat)
    : Approaches (Preparation.Good holds drawn limit)
        (inserts link store count : PrepareM σ γ _)
        (fun ends : Ends =>
          PrepareM.onSource (newItems link ends.nodes ends.contexts
            (patience ends.nodes ends.contexts) count ends.known))
        (Suffices count) := by
  refine .bind (upholds.ids_safe link.nodeKind) fun nodes differ => ?_
  refine .bind (upholds.ids_safe .context) fun contexts apart => ?_
  refine .bind (storedPairs_safe upholds link _ _).onStore fun known _ => ?_
  refine .check nofun fun enough => ?_
  have ready : Suffices count ⟨nodes.filterMap (·.id), contexts.filterMap (·.id), known⟩ :=
    ⟨differ, apart, Nat.le_of_not_lt enough⟩
  exact .refl _ ready

/-- What is drawn for links from a source. A loop draws it that, in every unfinished state, has a
node and a context to choose and a pair that is not known, and that goes on. The draws end with a
state of this loop.
-/
structure Runs (link : LinkKind) (nodes contexts : List EntityId) (known : PairSet) (count : Nat)
    (source : γ) (ended : Except BenchError (List WorkItem) × γ) : Prop where
  drawn
    : (newItems link nodes contexts (patience nodes contexts) count known).run source = ended
  goesOn
    : ∀ loop, Comes nodes contexts count (Loop.start known source) loop →
        loop.generated.length < count →
          nodes ≠ []
          ∧ contexts ≠ []
          ∧ (∃ pair ∈ nodes.product contexts, pair ∉ known ∧ pair ∉ loop.generated)
          ∧ ∃ next, Turn nodes contexts count loop next
  ends
    : ∃ loop, Comes nodes contexts count (Loop.start known source) loop
        ∧ loop.Ended link count (patience nodes contexts) [] ended

theorem Suffices.runs {ends : Ends} (ready : Suffices count ends) (link : LinkKind) (source : γ)
    : Runs link ends.nodes ends.contexts ends.known count source
        ((newItems link ends.nodes ends.contexts (patience ends.nodes ends.contexts) count
          ends.known).run source) where
  drawn := rfl
  goesOn _ comes unfinished :=
    ((Loop.Keeps.start ends.known source).comes comes).goesOn ready.nodes ready.contexts
      ready.enough unfinished
  ends := exists_ended link _ ready.nodes ready.contexts ready.enough source

theorem inserts_safe (upholds : store.Upholds holds) (link : LinkKind) (count : Nat)
    : Safe (Preparation.Good holds (fun _ => True) limit)
        (inserts link store count : PrepareM σ γ _)
        (store.Synthesizes holds (.fillLinks link) count) := by
  refine (inserts_approaches upholds link count).safe fun ends ready => ?_
  have fresh := newItems_fresh (γ := γ) link (patience ends.nodes ends.contexts) ready.nodes
    ready.contexts ready.enough
  refine (fresh.safe.weaken fun items made => ?_).onSource
  obtain ⟨pairs, length, _, rfl⟩ := made
  refine ⟨(List.length_map _).trans length, fun item member => ?_⟩
  obtain ⟨pair, _, rfl⟩ := List.mem_map.mp member
  exact .link

end FillLinks

-----------------------------------------------------------------------------------------
-- Loads of events
-----------------------------------------------------------------------------------------

namespace FillEvents

/-- What the loop that synthesizes output events begins with. -/
structure Stock where
  artifacts : List EntityId
  executions : List EntityId

/-- There is an artifact to take for each event, and an execution to produce it. -/
structure Lasts (count : Nat) (stock : Stock) : Prop where
  enough : count ≤ stock.artifacts.length
  execution : stock.executions ≠ []

/-- Items for events of a direction are those of a load. -/
theorem Drawn.synthesizes {direction : Direction} {artifacts executions : List EntityId}
    {items : List WorkItem} (made : Drawn direction artifacts executions count items)
    : store.Synthesizes holds (.fillEvents direction) count items := by
  obtain ⟨events, rfl, length, between, _⟩ := made
  refine ⟨(List.length_map _).trans length, fun item member => ?_⟩
  obtain ⟨event, listed, rfl⟩ := List.mem_map.mp member
  exact (between event listed).1 ▸ .event

theorem inserts_input_safe (upholds : store.Upholds holds) (count : Nat)
    : Safe (Preparation.Good holds (fun _ => True) limit)
        (inserts .input store count : PrepareM σ γ _)
        (store.Synthesizes holds (.fillEvents .input) count) := by
  refine .bind (upholds.nodes_safe .artifact) fun artifacts _ => ?_
  refine .bind (upholds.nodes_safe .execution) fun executions _ => ?_
  refine .check nofun fun present => ?_
  rw [Bool.or_eq_true, List.isEmpty_iff, List.isEmpty_iff, not_or] at present
  have gives := inputItems_gives (γ := γ) present.1 present.2 count
  exact (gives.safe.weaken fun _ made => made.synthesizes).onSource

/-- Nothing is drawn before the loop, and the loop begins only if enough artifacts are left after
those with an output event were sorted out.
-/
theorem inserts_output_approaches (upholds : store.Upholds holds) (count : Nat)
    : Approaches (Preparation.Good holds drawn limit)
        (inserts .output store count : PrepareM σ γ _)
        (fun stock : Stock =>
          PrepareM.onSource (outputItems stock.executions count stock.artifacts))
        (Lasts count) := by
  refine .bind (upholds.nodes_safe .artifact) fun artifacts _ => ?_
  refine .bind (upholds.nodes_safe .execution) fun executions _ => ?_
  refine .check nofun fun present => ?_
  rw [Bool.or_eq_true, List.isEmpty_iff, List.isEmpty_iff, not_or] at present
  refine .bind (upholds.request_safe rfl).onStore fun events _ => ?_
  refine .check nofun fun enough => ?_
  have ready : Lasts count
      ⟨withoutOutput (artifacts.filterMap (·.id)) events, executions.filterMap (·.id)⟩ :=
    ⟨Nat.le_of_not_lt enough, present.2⟩
  exact .refl _ ready

theorem inserts_safe (upholds : store.Upholds holds) (direction : Direction) (count : Nat)
    : Safe (Preparation.Good holds (fun _ => True) limit)
        (inserts direction store count : PrepareM σ γ _)
        (store.Synthesizes holds (.fillEvents direction) count) := by
  cases direction with
  | input => exact inserts_input_safe upholds count
  | output =>
      refine (inserts_output_approaches upholds count).safe fun stock ready => ?_
      have gives := outputItems_gives (γ := γ) ready.execution ready.enough
      exact (gives.safe.weaken fun _ made => made.synthesizes).onSource

-----------------------------------------------------------------------------------------
-- The loop that takes artifacts
-----------------------------------------------------------------------------------------

/-- Where the loop of output events stands: how many are left to synthesize, which artifacts are
left to take, and the source.
-/
structure Loop (γ : Type) where
  left : Nat
  artifacts : List EntityId
  source : γ

/-- A turn of the loop, as long as events are left: an artifact is chosen and taken away, and then
an execution is chosen.
-/
inductive Turn (executions : List EntityId) : Loop γ → Loop γ → Prop
  | take {left artifacts others artifact execution source middle last}
    (first : (DrawM.chooseAndRemove artifacts).run source = (.ok (artifact, others), middle))
    (second : (DrawM.choose executions).run middle = (.ok execution, last))
    : Turn executions ⟨left + 1, artifacts, source⟩ ⟨left, others, last⟩

/-- The loop comes to a state, in any number of turns. -/
def Comes (executions : List EntityId) : Loop γ → Loop γ → Prop :=
  Relation.ReflTransGen (Turn executions)

variable {executions : List EntityId} {loop next final : Loop γ}

theorem chooseAndRemove_perm {items others : List α} {item : α} {g last : γ}
    (taken : (DrawM.chooseAndRemove items).run g = (.ok (item, others), last))
    : (item :: others).Perm items := by
  have held : items ≠ [] := by
    rintro rfl
    cases congrArg Prod.fst taken
  obtain ⟨_, _, run, perm⟩ := Gives.chooseAndRemove held g trivial
  cases run.symm.trans taken
  exact perm

/-- In a turn one event is synthesized and one artifact is used up, so as many are left of both. -/
theorem Turn.enough (turn : Turn executions loop next) (enough : loop.left ≤ loop.artifacts.length)
    : next.left ≤ next.artifacts.length := by
  cases turn with
  | take first second =>
      have used := (chooseAndRemove_perm first).length_eq
      rw [List.length_cons] at used
      dsimp only at enough ⊢
      omega

/-- By induction on the turns. -/
theorem Comes.enough (comes : Comes executions loop next)
    (enough : loop.left ≤ loop.artifacts.length)
    : next.left ≤ next.artifacts.length := by
  induction comes with
  | refl => exact enough
  | tail _ last ih => exact last.enough ih

/-- An unfinished loop has an artifact left to take, and it goes on. -/
theorem Loop.goesOn (enough : loop.left ≤ loop.artifacts.length) (someExecution : executions ≠ [])
    (unfinished : 0 < loop.left)
    : loop.artifacts ≠ [] ∧ ∃ next, Turn executions loop next := by
  obtain ⟨left, artifacts, source⟩ := loop
  obtain ⟨left, rfl⟩ := Nat.exists_eq_add_one.mpr unfinished
  have someArtifact : artifacts ≠ [] :=
    List.length_pos_iff.mp (Nat.lt_of_lt_of_le unfinished enough)
  obtain ⟨taken, middle, first, _⟩ := Gives.chooseAndRemove someArtifact source trivial
  obtain ⟨execution, last, second, _⟩ := Gives.choose someExecution middle trivial
  exact ⟨someArtifact, _, .take first second⟩

/-- The loop comes to its end, by induction on the events that are left. -/
theorem Loop.exists_final (enough : loop.left ≤ loop.artifacts.length)
    (someExecution : executions ≠ [])
    : ∃ final, Comes executions loop final ∧ final.left = 0 := by
  obtain ⟨left, artifacts, source⟩ := loop
  induction left generalizing artifacts source with
  | zero => exact ⟨_, .refl, rfl⟩
  | succ left ih =>
      obtain ⟨_, next, turn⟩ := goesOn enough someExecution (Nat.succ_pos left)
      have fewer := turn.enough enough
      cases turn with
      | take first second =>
          obtain ⟨final, comes, finished⟩ := ih _ _ fewer
          exact ⟨final, .head (.take first second) comes, finished⟩

/-- A load draws what its loop draws, by induction on the turns. -/
theorem Comes.run (comes : Comes executions loop final) (finished : final.left = 0)
    : ∃ items, (outputItems executions loop.left loop.artifacts).run loop.source
        = (.ok items, final.source) := by
  induction comes using Relation.ReflTransGen.head_induction_on with
  | refl =>
      rw [finished]
      exact ⟨[], rfl⟩
  | head turn _ ih =>
      obtain ⟨items, rest⟩ := ih
      cases turn with
      | take first second =>
          rw [outputItems, run_bind_of_ok first, run_bind_of_ok second, run_bind_of_ok rest]
          exact ⟨_, rfl⟩

/-- What is drawn for output events from a source. A loop draws it that comes to its end and, in
every unfinished state, has an artifact to take and an execution to choose.
-/
structure Runs (artifacts executions : List EntityId) (count : Nat) (source : γ)
    (ended : Except BenchError (List WorkItem) × γ) : Prop where
  drawn : (outputItems executions count artifacts).run source = ended
  finishes
    : ∃ final, Comes executions ⟨count, artifacts, source⟩ final
        ∧ final.left = 0 ∧ final.source = ended.2
  goesOn
    : ∀ loop, Comes executions ⟨count, artifacts, source⟩ loop →
        0 < loop.left →
          loop.artifacts ≠ []
          ∧ executions ≠ []
          ∧ ∃ next, Turn executions loop next

theorem Lasts.runs {stock : Stock} (ready : Lasts count stock) (source : γ)
    : Runs stock.artifacts stock.executions count source
        ((outputItems stock.executions count stock.artifacts).run source) where
  drawn := rfl
  finishes := by
    obtain ⟨final, comes, finished⟩ : ∃ final,
        Comes stock.executions ⟨count, stock.artifacts, source⟩ final ∧ final.left = 0 :=
      Loop.exists_final ready.enough ready.execution
    obtain ⟨items, run⟩ := comes.run finished
    exact ⟨final, comes, finished, (congrArg Prod.snd run).symm⟩
  goesOn _ comes unfinished :=
    have goesOn := Loop.goesOn (comes.enough ready.enough) ready.execution unfinished
    ⟨goesOn.1, ready.execution, goesOn.2⟩

end FillEvents

end LineageLoad
