import LineageLoad.Proofs.Workload.Executions
import Mathlib.Data.List.Dedup

/-!
What a load that links nodes to contexts does: how many pairs are left to link, why the loop that
draws them always has one left to find, and what the store holds after they were linked.
-/

namespace LineageLoad
namespace FillLinks

variable {γ : Type} {db : Database} {link : LinkKind} {pairs : List (EntityId × EntityId)}

-----------------------------------------------------------------------------------------
-- Pairs that are left
-----------------------------------------------------------------------------------------

/-- The pairs of a stored node of the linked kind and a stored context. -/
def endPairs (db : Database) (link : LinkKind) : List (EntityId × EntityId) :=
  ((db.nodesOf link.nodeKind).filterMap (·.id)).product ((db.nodesOf .context).filterMap (·.id))

theorem nodup_endPairs (sound : db.Sound)
    : (endPairs db link).Nodup :=
  sound.nodup_ids.product sound.nodup_ids

theorem length_endPairs (sound : db.Sound)
    : (endPairs db link).length
        = (db.nodesOf link.nodeKind).length * (db.nodesOf .context).length := by
  refine (List.length_product _ _).trans ?_
  rw [sound.length_ids (List.Subset.refl _), sound.length_ids (List.Subset.refl _)]

theorem mem_endPairs_iff (sound : db.Sound) {pair : EntityId × EntityId}
    : pair ∈ endPairs db link ↔ db.Links link.nodeKind ⟨pair.1, pair.2⟩ := by
  refine List.mem_product.trans ?_
  rw [sound.mem_ids_iff, sound.mem_ids_iff]
  rfl

/-- The pairs that are not linked. -/
def unlinked (db : Database) (link : LinkKind) : List (EntityId × EntityId) :=
  (endPairs db link).filter fun pair => !(linkedPairs db link).contains pair

/-- Every link joins stored ends, so the links and the pairs that are left add up to all pairs. -/
theorem length_unlinked (sound : db.Sound) (link : LinkKind)
    : (unlinked db link).length + (db.linksOf link.nodeKind).size
        = (db.nodesOf link.nodeKind).length * (db.nodesOf .context).length := by
  have linked : ((endPairs db link).filter fun pair => (linkedPairs db link).contains pair).Perm
      (linkedPairs db link).toList := by
    refine (List.perm_ext_iff_of_nodup ((nodup_endPairs sound).filter _)
      (nodup_toList _)).mpr fun pair => ?_
    rw [List.mem_filter, Std.ExtTreeSet.contains_iff_mem, Std.ExtTreeSet.mem_toList]
    refine and_iff_right_of_imp fun stored => (mem_endPairs_iff sound).mpr ?_
    exact sound.linksOf _ (mem_linkedPairs.mp stored)
  have stored := linked.length_eq
  rw [Std.ExtTreeSet.length_toList, size_linkedPairs] at stored
  rw [← length_endPairs sound, Nat.add_comm, ← stored]
  exact (List.length_eq_length_filter_add _).symm

/-- The count of free pairs is that of the pairs that are left. -/
theorem free_eq_length_unlinked (sound : db.Sound) (link : LinkKind)
    : ((db.nodesOf link.nodeKind).filterMap (·.id)).length
          * ((db.nodesOf .context).filterMap (·.id)).length - (linkedPairs db link).size
        = (unlinked db link).length := by
  rw [sound.length_ids (List.Subset.refl _), sound.length_ids (List.Subset.refl _),
    size_linkedPairs, ← length_unlinked sound, Nat.add_sub_cancel]

-----------------------------------------------------------------------------------------
-- Pairs that are linked
-----------------------------------------------------------------------------------------

/-- The calls that link some pairs. -/
def linkCalls (link : LinkKind) (pairs : List (EntityId × EntityId)) : List Call :=
  pairs.map fun pair => (item link pair.1 pair.2).call

theorem calls_items (link : LinkKind) (pairs : List (EntityId × EntityId))
    : (pairs.map fun pair => item link pair.1 pair.2).map (·.call) = linkCalls link pairs :=
  List.map_map

variable [WordSource γ]

/-- The pairs that are left are counted before any is drawn. -/
theorem run_inserts (sound : db.Sound) (link : LinkKind) (count : Nat) (source : γ)
    (notes : List Note)
    : (inserts link Database.store count).run { store := db, source, notes }
        = if (unlinked db link).length < count then
            (.error (.tooFewFreePairs link.nodeKind (unlinked db link).length count),
              { store := db, source, notes })
          else
            let nodes := (db.nodesOf link.nodeKind).filterMap (·.id)
            let contexts := (db.nodesOf .context).filterMap (·.id)
            let drawn := (newItems link nodes contexts (patience nodes contexts) count
              (linkedPairs db link)).run source
            (drawn.1, { store := db, source := drawn.2, notes }) := by
  have ids (kind : Kind)
      : (Database.store.existingNodes kind).run db = (.ok (db.nodesOf kind), db) := rfl
  obtain ⟨next, known, same⟩ := linkedPairs_answers db.mirrors_self sound link db rfl
  rw [same] at known
  unfold inserts
  rw [run_bind_of_ok (PrepareM.run_onStore (ids _) source notes),
    run_bind_of_ok (PrepareM.run_onStore (ids _) source notes),
    run_bind_of_ok (PrepareM.run_onStore known source notes)]
  simp only [free_eq_length_unlinked sound]
  split
  · rfl
  · rfl

end FillLinks
end LineageLoad
