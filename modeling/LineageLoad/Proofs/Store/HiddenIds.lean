import LineageLoad.Proofs.Store.Failures
import LineageLoad.Proofs.Store.Listings

/-!
Stores that hide ids. Any of the types and nodes of a list of all may come without its id, and which
ones do may depend on the call and on the state of the store.
-/

namespace LineageLoad

/-- Takes the ids of some entities, told by their positions, from the replies that list all entities
of a kind.
-/
def Call.hideIds (hidden : Nat → Bool) : (call : Call) → call.Reply → call.Reply
  | .getTypes _, types =>
    types.mapIdx fun position type => if hidden position then { type with id := none } else type
  | .getNodes _, nodes =>
    nodes.mapIdx fun position node => if hidden position then { node with id := none } else node
  | _, reply => reply

/-- A store that hides the ids that (hides) names for its state and the call. -/
def Store.withHiddenIds {σ : Type} (store : Store σ) (hides : σ → Call → Nat → Bool) : Store σ where
  serve call state :=
    let (reply, next) := store.serve call state
    (reply.map (call.hideIds (hides state call)), next)

theorem Call.hideIds_none (call : Call) (reply : call.Reply)
    : call.hideIds (fun _ => false) reply = reply := by
  cases call with
  | getTypes => exact List.mapIdx_eq_iff.mpr fun _ => (congrFun Option.map_id _).symm
  | getNodes => exact List.mapIdx_eq_iff.mpr fun _ => (congrFun Option.map_id _).symm
  | _ => rfl

theorem Call.hideIds_all (call : Call) (reply : call.Reply)
    : call.hideIds (fun _ => true) reply = call.withoutIds reply := by
  cases call with
  | getTypes => exact List.mapIdx_eq_iff.mpr fun _ => List.getElem?_map
  | getNodes => exact List.mapIdx_eq_iff.mpr fun _ => List.getElem?_map
  | _ => rfl

/-- The ids that are still shown are among those that are there, in their order. By induction on the
nodes.
-/
theorem sublist_shownIds (hidden : Nat → Bool) (nodes : List Node)
    : ((nodes.mapIdx fun position node =>
          if hidden position then { node with id := none } else node).filterMap (·.id)).Sublist
        (nodes.filterMap (·.id)) := by
  induction nodes generalizing hidden with
  | nil => exact .slnil
  | cons node rest ih =>
      have others := ih fun position => hidden (position + 1)
      rw [List.mapIdx_cons]
      cases covered : hidden 0 with
      | false =>
          simp only [Bool.false_eq_true, if_false, List.filterMap_cons]
          cases node.id with
          | none => exact others
          | some id => exact others.cons_cons id
      | true =>
          simp only [if_true, List.filterMap_cons]
          cases node.id with
          | none => exact others
          | some id => exact others.cons id

/-- Any plan of faults is made of failures that depend on the number of the call, and of ids that
are all hidden or all shown.
-/
theorem Store.withHiddenIds_shows {σ : Type} (store : Store σ) (plan : FaultPlan)
    : ((store.withFailures plan.error?).withHiddenIds fun _ _ _ => plan.hidesIds).Shows
        (fun state => (countCalls state.2, state.1)) (store.withFaults plan) := by
  rintro call ⟨inner, answers⟩
  have shown : call.hideIds (fun _ => plan.hidesIds)
      = fun reply => if plan.hidesIds then call.withoutIds reply else reply := by
    funext reply
    cases plan.hidesIds with
    | false => exact call.hideIds_none reply
    | true => exact call.hideIds_all reply
  cases planned : plan.fault? call.method ((countCalls answers).getD call.method 0) with
  | some fault =>
      simp only [withHiddenIds, withFailures, withFaults, FaultPlan.error?, planned,
        Option.map_some, Prod.map, countCalls_concat, id]
      rfl
  | none =>
      simp only [withHiddenIds, withFailures, withFaults, FaultPlan.error?, planned,
        Option.map_none, Prod.map, countCalls_concat, id, shown]

end LineageLoad
