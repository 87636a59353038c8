import LineageLoad.Store.Call

/-!
A store that is made to fail: a plan says which calls of each method are refused before they reach
the store behind it, and whether listed entities lose their ids.
-/

namespace LineageLoad

/-- Refuses the calls of a method from the one after (skip) on, (count) of them or all. -/
structure Fault where
  method : String
  skip : Nat
  count : Option Nat
  category : StoreError.Category
  deriving Repr, Inhabited

/-- Whether the call of the method with this number, from 0, is refused. -/
def Fault.covers (fault : Fault) (number : Nat) : Bool :=
  fault.skip ≤ number && fault.count.all (number < fault.skip + ·)

/-- Which calls are refused, and whether the lists of all types and all nodes come without ids. -/
structure FaultPlan where
  faults : List Fault := []
  hidesIds : Bool := false
  deriving Repr, Inhabited

/-- How often each method was called. -/
abbrev CallCounts := Std.ExtTreeMap String Nat compare

/-- Takes the ids from the replies that list all entities of a kind. -/
def Call.withoutIds : (call : Call) → call.Reply → call.Reply
  | .getTypes _, types => types.map ({ · with id := none })
  | .getNodes _, nodes => nodes.map ({ · with id := none })
  | _, reply => reply

/-- The first fault of a plan that refuses a call. -/
def FaultPlan.fault? (plan : FaultPlan) (method : String) (number : Nat) : Option Fault :=
  plan.faults.find? fun fault => fault.method == method && fault.covers number

def Store.withFaults {σ : Type} (store : Store σ) (plan : FaultPlan) : Store (CallCounts × σ) where
  serve call state :=
    let (counts, inner) := state
    let number := counts.getD call.method 0
    let counts := counts.insert call.method (number + 1)
    match plan.fault? call.method number with
    | some fault => (.error (.injected fault.category), counts, inner)
    | none =>
      let (reply, inner) := store.serve call inner
      (reply.map fun reply => if plan.hidesIds then call.withoutIds reply else reply,
        counts, inner)

end LineageLoad
