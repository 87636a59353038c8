import LineageLoad.Random.Draw
import LineageLoad.Size
import LineageLoad.Workload.Note

/-!
What preparations are made of: calls to a store, draws from a source of words and notes, each of
which is kept when a later step fails.
-/

namespace LineageLoad

/-- A call to issue, and the size of what it is estimated to move. Each operation of a load is one
call to the store, so that the call itself is the request that the load synthesizes.
-/
structure WorkItem where
  call : Call
  bytes : Nat
  deriving DecidableEq, Inhabited

/-- Actions on a store. -/
abbrev BenchM (σ : Type) := ExceptT BenchError (StateM σ)

/-- Asks a store one call; a refusal ends what follows. -/
def Store.request {σ : Type} (store : Store σ) (call : Call) : BenchM σ call.Reply :=
  ExceptT.mk fun state =>
    let (reply, state) := store.serve call state
    (reply.mapError .store, state)

/-- Actions on a source of words. -/
abbrev DrawM (γ : Type) := ExceptT BenchError (StateM γ)

namespace DrawM

variable {γ α : Type}

def draw (f : γ → α × γ) : DrawM γ α := ExceptT.mk fun g => ((f g).map .ok id)

/-- A choice from a list, which must not be empty. -/
def choose [WordSource γ] (items : List α) : DrawM γ α :=
  ExceptT.mk fun g =>
    let (item, g) := Draw.element items g
    (item.elim (.error .nothingToDraw) .ok, g)

/-- A choice from a list, which must not be empty, and the list without it. -/
def chooseAndRemove [WordSource γ] (items : List α) : DrawM γ (α × List α) :=
  ExceptT.mk fun g =>
    let (item, g) := Draw.removed items g
    (item.elim (.error .nothingToDraw) .ok, g)

end DrawM

/-- What a preparation works on. -/
structure Preparation (σ γ : Type) where
  store : σ
  source : γ
  notes : List Note

/-- Actions of a preparation. -/
abbrev PrepareM (σ γ : Type) := ExceptT BenchError (StateM (Preparation σ γ))

namespace PrepareM

variable {σ γ α : Type}

def onStore (action : BenchM σ α) : PrepareM σ γ α :=
  ExceptT.mk fun p =>
    let (result, store) := action.run p.store
    (result, { p with store })

def onSource (action : DrawM γ α) : PrepareM σ γ α :=
  ExceptT.mk fun p =>
    let (result, source) := action.run p.source
    (result, { p with source })

def note (note : Note) : PrepareM σ γ Unit :=
  ExceptT.mk fun p => (.ok (), { p with notes := p.notes ++ [note] })

def request (store : Store σ) (call : Call) : PrepareM σ γ call.Reply :=
  onStore (store.request call)

/-- Issues a call; a refusal is noted and otherwise passed over. -/
def issue (store : Store σ) (failed : BenchError → Note) (call : Call) : PrepareM σ γ Unit :=
  ExceptT.mk fun p =>
    let (reply, state) := (store.request call).run p.store
    let notes := match reply with
      | .ok _ => p.notes
      | .error error => p.notes ++ [failed error]
    (.ok (), { p with store := state, notes })

end PrepareM

end LineageLoad
