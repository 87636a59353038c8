import LineageLoad.Proofs.Store.Growth
import LineageLoad.Store.InPlace

/-!
What refused calls leave behind. Contents that change in place stand for the ones that calls answer
as a whole, step by step, so that what was changed before a refusal is never seen.
-/

namespace LineageLoad

-----------------------------------------------------------------------------------------
-- Sequences of calls to any store
-----------------------------------------------------------------------------------------

/-- A call with what it was answered. -/
abbrev Answer := (call : Call) × Except StoreError call.Reply

namespace Store

variable {σ τ : Type}

/-- What a store has become after calls, one after the other. -/
def after (store : Store σ) (calls : List Call) (state : σ) : σ :=
  calls.foldl (fun state call => (store.serve call state).2) state

/-- What a store answers to calls, one after the other. -/
def answers (store : Store σ) : List Call → σ → List Answer
  | [], _ => []
  | call :: rest, state =>
    ⟨call, (store.serve call state).1⟩ :: store.answers rest (store.serve call state).2

theorem answers_append (store : Store σ) (calls later : List Call) (state : σ)
    : store.answers (calls ++ later) state
      = store.answers calls state ++ store.answers later (store.after calls state) := by
  induction calls generalizing state with
  | nil => rfl
  | cons call rest ih => exact congrArg (_ :: ·) (ih _)

/-- A store shows what another one does: it gives the same answers, and its states stand for those
of the other one.
-/
def Shows (store : Store σ) (view : σ → τ) (other : Store τ) : Prop :=
  ∀ call state, (store.serve call state).map id view = other.serve call (view state)

namespace Shows

variable {store : Store σ} {view : σ → τ} {other : Store τ}

theorem answer (shows : store.Shows view other) (call : Call) (state : σ)
    : (store.serve call state).1 = (other.serve call (view state)).1 :=
  congrArg Prod.fst (shows call state)

theorem state (shows : store.Shows view other) (call : Call) (state : σ)
    : view (store.serve call state).2 = (other.serve call (view state)).2 :=
  congrArg Prod.snd (shows call state)

/-- By induction on the calls. -/
theorem answers (shows : store.Shows view other) (calls : List Call) (state : σ)
    : store.answers calls state = other.answers calls (view state) := by
  induction calls generalizing state with
  | nil => rfl
  | cons call rest ih =>
      rw [Store.answers, Store.answers, shows.answer, ih, shows.state]

/-- By induction on the calls. -/
theorem after (shows : store.Shows view other) (calls : List Call) (state : σ)
    : view (store.after calls state) = other.after calls (view state) := by
  induction calls generalizing state with
  | nil => rfl
  | cons call rest ih =>
      have step := ih (store.serve call state).2
      rw [shows.state] at step
      exact step

end Shows

end Store

-----------------------------------------------------------------------------------------
-- Contents that calls answer as a whole
-----------------------------------------------------------------------------------------

namespace Database

variable {db : Database} {kind : Kind}

theorem commit_of_error {α : Type} {outcome : Except StoreError (α × Database)} {error : StoreError}
    (refused : (db.commit outcome).1 = .error error)
    : (db.commit outcome).2 = db := by
  cases outcome with
  | error _ => rfl
  | ok _ => cases refused

theorem of_commit_eq_ok {α : Type} {outcome : Except StoreError (α × Database)} {reply : α}
    {next : Database} (served : db.commit outcome = (.ok reply, next))
    : outcome = .ok (reply, next) := by
  cases outcome with
  | error _ => cases served
  | ok _ =>
      cases served
      rfl

/-- Contents that refuse a call stay as they are: reads are never refused, and a refused write
answers no new contents.
-/
theorem serve_of_error {call : Call} {error : StoreError}
    (refused : (serve call db).1 = .error error)
    : (serve call db).2 = db := by
  cases call with
  | putType => exact commit_of_error refused
  | putNodes => exact commit_of_error refused
  | putEvents => exact commit_of_error refused
  | putLinks => exact commit_of_error refused
  | _ => cases refused

end Database

-----------------------------------------------------------------------------------------
-- Contents that change in place
-----------------------------------------------------------------------------------------

/-- A write in place does what a write does that answers new contents: its reply is the same, and
what is left in place stands for the new contents, or for the old ones if it is refused.
-/
def InPlace.Carries {α : Type} (action : InPlace α)
    (write : Database → Except StoreError (α × Database)) : Prop :=
  ∀ cells : Cells,
    (action.run cells).map id Cells.contents = cells.contents.commit (write cells.contents)

namespace InPlace

variable {α : Type} (next : Unit → InPlace α) (cells : Cells)

theorem run_refuse_none
    : (refuse none >>= next).run cells = (next ()).run cells :=
  rfl

theorem run_modify (change : Cells → Cells)
    : ((modify change : InPlace Unit) >>= next).run cells = (next ()).run (change cells) :=
  rfl

theorem run_get (next : Cells → InPlace α)
    : ((get : InPlace Cells) >>= next).run cells = (next cells).run cells :=
  rfl

theorem run_bind {β : Type} {action : InPlace β} {next : β → InPlace α} {value : β}
    {cells later : Cells} (ran : action.run cells = (.ok value, later))
    : (action >>= next).run cells = (next value).run later := by
  change (action.run >>= ExceptT.bindCont next) cells = _
  change ExceptT.bindCont next (action.run cells).1 (action.run cells).2 = _
  rw [ran]
  rfl

end InPlace

namespace Cells

variable {cells : Cells} {kind : Kind}

theorem contents_openTypes (kind : Kind) (cells : Cells)
    : (openTypes kind cells).contents = cells.contents := by
  cases kind <;> rfl

theorem contents_insertType (kind : Kind) (id : EntityId) (type : EntityType) (cells : Cells)
    : (insertType kind id type cells).contents = cells.contents.setType kind id type := by
  cases kind <;> rfl

/-- By the checks in their order. The table that is made before them has no row of its own. -/
theorem putType_carries (kind : Kind) (type : EntityType) (canAddFields : Bool)
    : (putType kind type canAddFields).Carries (·.putType kind type canAddFields) := by
  intro cells
  have opened := contents_openTypes kind cells
  unfold putType Database.putType
  by_cases empty : type.name = ""
  · simp only [empty, if_true]
    rfl
  simp only [empty, if_false]
  rw [InPlace.run_refuse_none, InPlace.run_modify, InPlace.run_get, opened]
  cases entry : cells.contents.typeEntry? kind type.name with
  | none =>
      cases given : type.id with
      | some id =>
          exact congrArg (Prod.mk _) opened
      | none =>
          refine congrArg (Prod.mk _) ?_
          refine (contents_insertType kind _ _ _).trans ?_
          change Database.setType { (openTypes kind cells).contents with lastTypeId := _ } _ _ _ = _
          rw [opened]
          rfl
  | some found =>
      obtain ⟨id, stored⟩ := found
      dsimp only
      cases wrong : EntityType.wrongIdError? kind id type with
      | some error => exact congrArg (Prod.mk _) opened
      | none =>
          cases conflict : EntityType.conflictError? kind stored type with
          | some error => exact congrArg (Prod.mk _) opened
          | none =>
              rw [InPlace.run_refuse_none, InPlace.run_refuse_none]
              cases further : stored.hasFurther type with
              | false => exact congrArg (Prod.mk _) opened
              | true =>
                  cases canAddFields with
                  | false => exact congrArg (Prod.mk _) opened
                  | true =>
                      refine congrArg (Prod.mk _) ?_
                      exact (contents_insertType kind _ _ _).trans (opened ▸ rfl)

theorem contents_countNode (kind : Kind) (cells : Cells)
    : (countNode kind cells).contents = { cells.contents with
        nodes := cells.contents.nodes.set kind { cells.contents.nodes.get kind with
          lastId := (cells.contents.nodes.get kind).lastId + 1 } } := by
  cases kind <;> rfl

theorem contents_insertNode (kind : Kind) (id : EntityId) (node : Node) (cells : Cells)
    : (insertNode kind id node cells).contents = { cells.contents with
        nodes := cells.contents.nodes.set kind { cells.contents.nodes.get kind with
          rows := (cells.contents.nodes.get kind).rows.insert id node } } := by
  cases kind <;> rfl

theorem contents_releaseName (kind : Kind) (typeId : EntityId) (name : Option String)
    (cells : Cells)
    : (releaseName kind typeId name cells).contents = { cells.contents with
        nodes := cells.contents.nodes.set kind { cells.contents.nodes.get kind with
          names := match name with
            | some name => (cells.contents.nodes.get kind).names.erase (typeId, name)
            | none => (cells.contents.nodes.get kind).names } } := by
  cases name <;> cases kind <;> rfl

theorem contents_insertName (kind : Kind) (typeId : EntityId) (name : Option String)
    (id : EntityId) (cells : Cells)
    : (insertName kind typeId name id cells).contents = { cells.contents with
        nodes := cells.contents.nodes.set kind { cells.contents.nodes.get kind with
          names := match name with
            | some name => (cells.contents.nodes.get kind).names.insert (typeId, name) id
            | none => (cells.contents.nodes.get kind).names } } := by
  cases name <;> cases kind <;> rfl

/-- The next id is used up only if a node comes without one. -/
theorem run_idFor (kind : Kind) (node : Node) (cells : Cells)
    : ∃ counted, (idFor kind node).run cells
        = (.ok (node.id.getD ((cells.contents.nodes.get kind).lastId + 1)), counted)
      ∧ counted.contents = { cells.contents with
          nodes := cells.contents.nodes.set kind { cells.contents.nodes.get kind with
            lastId := if node.id.isSome then (cells.contents.nodes.get kind).lastId
              else node.id.getD ((cells.contents.nodes.get kind).lastId + 1) } } := by
  cases given : node.id with
  | some id =>
      refine ⟨cells, by rw [idFor, given]; rfl, ?_⟩
      exact (congrArg (fun nodes => { cells.contents with nodes })
        (PerKind.set_get_self _ kind)).symm
  | none =>
      refine ⟨countNode kind cells, ?_, contents_countNode kind cells⟩
      rw [idFor, given]
      cases kind <;> rfl

/-- A checked node is put into the table of its kind. -/
theorem run_putNode (kind : Kind) (node : Node) (cells : Cells)
    : ∃ later, (putNode kind node).run cells
        = (.ok ((cells.contents.nodes.get kind).put node).1, later)
      ∧ later.contents = { cells.contents with
          nodes :=
            cells.contents.nodes.set kind ((cells.contents.nodes.get kind).put node).2 } := by
  obtain ⟨counted, numbered, contents⟩ := run_idFor kind node cells
  unfold putNode
  rw [InPlace.run_bind numbered, InPlace.run_get, InPlace.run_modify, InPlace.run_modify,
    InPlace.run_modify]
  refine ⟨_, rfl, ?_⟩
  rw [contents_insertName, contents_releaseName, contents_insertNode, contents]
  simp only [PerKind.get_set_self, PerKind.set_set, Database.nodeById?]
  rfl

/-- By induction on the nodes. -/
theorem run_putEach (kind : Kind) (nodes : List Node) (cells : Cells)
    : ∃ later, (putEach kind nodes).run cells
        = (.ok ((cells.contents.nodes.get kind).putAll nodes).1, later)
      ∧ later.contents = { cells.contents with
          nodes := cells.contents.nodes.set kind
            ((cells.contents.nodes.get kind).putAll nodes).2 } := by
  induction nodes generalizing cells with
  | nil =>
      refine ⟨cells, rfl, ?_⟩
      exact (congrArg (fun nodes => { cells.contents with nodes })
        (PerKind.set_get_self _ kind)).symm
  | cons node rest ih =>
      obtain ⟨middle, first, contents⟩ := run_putNode kind node cells
      obtain ⟨later, others, last⟩ := ih middle
      simp only [contents, PerKind.get_set_self, PerKind.set_set] at others last
      refine ⟨later, ?_, last⟩
      rw [putEach, InPlace.run_bind first, InPlace.run_bind others]
      rfl

/-- A batch that passes its checks is stored without a further one. -/
theorem putNodes_carries (kind : Kind) (nodes : List Node)
    : (putNodes kind nodes).Carries (·.putNodes kind nodes) := by
  intro cells
  unfold putNodes Database.putNodes
  rw [InPlace.run_get]
  dsimp only
  cases cells.contents.checkBatch kind [] [] nodes with
  | error error => rfl
  | ok checked =>
      obtain ⟨later, stored, contents⟩ := run_putEach kind checked cells
      dsimp only
      rw [stored, Prod.map, contents]
      rfl

theorem putEvents_carries (events : List Event)
    : (putEvents events).Carries fun db => (db.putEvents events).map ((), ·) := by
  intro cells
  unfold putEvents Database.putEvents
  dsimp only
  rw [InPlace.run_get]
  cases cells.contents.missing? _ with
  | some error => rfl
  | none => rfl

theorem putLinks_carries (attributions associations : List Link)
    : (putLinks attributions associations).Carries
        fun db => (db.putLinks attributions associations).map ((), ·) := by
  intro cells
  unfold putLinks Database.putLinks
  dsimp only
  rw [InPlace.run_get]
  cases cells.contents.missing? _ with
  | some error => rfl
  | none => rfl

/-- Every call in place is answered as a whole, by the writes. -/
theorem store_shows
    : store.Shows contents Database.store := by
  intro call cells
  cases call with
  | putType kind type canAddFields => exact putType_carries kind type canAddFields cells
  | putNodes kind nodes => exact putNodes_carries kind nodes cells
  | putEvents events => exact putEvents_carries events cells
  | putLinks attributions associations => exact putLinks_carries attributions associations cells
  | _ => rfl

end Cells

-----------------------------------------------------------------------------------------
-- Refused calls
-----------------------------------------------------------------------------------------

namespace Database

/-- A refused call leaves no trace in contents that any calls have led to: they stay as they are, so
that all later calls are answered as if it had not been made. The same holds of contents that change
in place, which are changed in part before some of the refusals.
-/
theorem answers_of_refused (before later : List Call) (call : Call) (error : StoreError)
    (refused : (serve call (empty.serveAll before)).1 = .error error)
    : let db := empty.serveAll before
      let cells := Cells.store.after before .empty
      (serve call db).2 = db
      ∧ store.answers (before ++ call :: later) .empty
          = store.answers before .empty ++ ⟨call, .error error⟩ :: store.answers later db
      ∧ store.answers (before ++ later) .empty
          = store.answers before .empty ++ store.answers later db
      ∧ (Cells.serve call cells).1 = .error error
      ∧ (Cells.serve call cells).2.contents = cells.contents
      ∧ Cells.store.answers later (Cells.serve call cells).2 = Cells.store.answers later cells
      ∧ ∀ calls, Cells.store.answers calls .empty = store.answers calls .empty := by
  intro db cells
  have kept : (serve call db).2 = db := serve_of_error refused
  have stands : cells.contents = db := Cells.store_shows.after before .empty
  have answer : (Cells.serve call cells).1 = (serve call cells.contents).1 :=
    Cells.store_shows.answer call cells
  have left : (Cells.serve call cells).2.contents = (serve call cells.contents).2 :=
    Cells.store_shows.state call cells
  have contents : (Cells.serve call cells).2.contents = cells.contents := by
    rw [left, stands, kept]
  refine ⟨kept, ?_, store.answers_append before later .empty, ?_, contents, ?_, fun calls => ?_⟩
  · have next : store.answers (call :: later) db
        = ⟨call, (serve call db).1⟩ :: store.answers later (serve call db).2 := rfl
    rw [kept, refused] at next
    exact (store.answers_append before (call :: later) .empty).trans (congrArg _ next)
  · rw [answer, stands]
    exact refused
  · rw [Cells.store_shows.answers, Cells.store_shows.answers, contents]
  · exact Cells.store_shows.answers calls .empty

/-- A dataset with a name. -/
def dataset (name : String) : Node where
  id := none
  typeId := 1
  typeName := ""
  name := some name
  properties := ∅
  customProperties := ∅

/-- A batch of two datasets is refused for the name of the second one, and the first one can still
be stored under the next id.
-/
theorem answers_of_takenName
    : let calls :=
        [.putType .artifact ⟨none, "Dataset", ∅⟩ false, .putNodes .artifact [dataset "a"]]
      let db := empty.serveAll calls
      (serve (.putNodes .artifact [dataset "b", dataset "a"]) db).1
          = .error (.takenName .artifact "a" "Dataset")
        ∧ (serve (.putNodes .artifact [dataset "b", dataset "a"]) db).2 = db
        ∧ store.answers [.putNodes .artifact [dataset "b"]] db
          = [⟨.putNodes .artifact [dataset "b"], .ok [2]⟩] := by
  have refused
      : (serve (.putNodes .artifact [dataset "b", dataset "a"]) (empty.serveAll
          [.putType .artifact ⟨none, "Dataset", ∅⟩ false, .putNodes .artifact [dataset "a"]])).1
        = .error (.takenName .artifact "a" "Dataset") := by
    rfl
  refine ⟨refused, (answers_of_refused _ [] _ _ refused).1, ?_⟩
  rfl

end Database

end LineageLoad
