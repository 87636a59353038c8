import LineageLoad.Proofs.Store.Listings
import LineageLoad.Proofs.Workload.Requests
import LineageLoad.Proofs.Workload.Successes
import LineageLoad.Workload.FillLinks
import Mathlib.Data.List.Nodup
import Mathlib.Data.List.Perm.Subperm
import Mathlib.Data.List.ProdSigma
import Mathlib.Data.Prod.Basic

/-!
Pairs to link: exactly the stored links are known at first, and as long as there are more pairs than
known ones an unknown one is left. Requests to link pairs that are fresh are open.
-/

namespace LineageLoad
namespace FillLinks

variable {σ γ : Type} {store : Store σ} {before : σ → Prop} {db : Database} {link : LinkKind}
  {name : String} {connection : Connection} {nodes contexts : List EntityId} {known : PairSet}

-----------------------------------------------------------------------------------------
-- Known pairs
-----------------------------------------------------------------------------------------

/-- The pairs of a node and a context that are linked. -/
def linkedPairs (db : Database) (link : LinkKind) : PairSet :=
  .ofList ((db.linksOf link.nodeKind).toList.map Prod.swap) pairOrder

theorem mem_linkedPairs {pair : EntityId × EntityId}
    : pair ∈ linkedPairs db link ↔ (pair.2, pair.1) ∈ db.linksOf link.nodeKind := by
  rw [linkedPairs, Std.ExtTreeSet.mem_ofList, List.contains_iff_mem, List.mem_map]
  constructor
  · rintro ⟨stored, member, rfl⟩
    exact Std.ExtTreeSet.mem_toList.mp member
  · intro stored
    exact ⟨(pair.2, pair.1), Std.ExtTreeSet.mem_toList.mpr stored, rfl⟩

theorem nodup_toList (set : PairSet)
    : set.toList.Nodup :=
  set.distinct_toList.imp fun different same =>
    different (Std.LawfulEqCmp.compare_eq_iff_eq.mpr same)

/-- There are as many linked pairs as links. -/
theorem size_linkedPairs (db : Database) (link : LinkKind)
    : (linkedPairs db link).size = (db.linksOf link.nodeKind).size := by
  have apart : ((db.linksOf link.nodeKind).toList.map Prod.swap).Nodup :=
    (nodup_toList _).map Prod.swap_injective
  rw [linkedPairs, Std.ExtTreeSet.size_ofList, List.length_map, Std.ExtTreeSet.length_toList]
  exact apart.imp fun different same => different (Std.LawfulEqCmp.compare_eq_iff_eq.mp same)

/-- The nodes that are linked to a context are those of the contents. -/
theorem linkedNodes_answers (mirrors : store.Mirrors db before) (link : LinkKind)
    (context : EntityId)
    : Answers before (linkedNodes link store context)
        (db.nodesInContext link.nodeKind context) := by
  cases link with
  | attribution => exact mirrors.request rfl
  | association => exact mirrors.request rfl

/-- The nodes that are listed for a context are those that are linked to it. -/
theorem mem_linkedIds_iff (sound : db.Sound) {context : EntityId} {pair : EntityId × EntityId}
    : pair ∈ (db.nodesInContext link.nodeKind context).filterMap
          (fun node => node.id.map (·, context))
      ↔ pair.2 = context ∧ (pair.2, pair.1) ∈ db.linksOf link.nodeKind := by
  simp only [Database.nodesInContext, List.mem_filterMap, List.mem_filter,
    Std.ExtTreeSet.mem_toList, beq_iff_eq, Option.map_eq_some_iff]
  constructor
  · rintro ⟨row, ⟨stored, ⟨member, rfl⟩, found⟩, id, given, rfl⟩
    cases ((sound.nodes link.nodeKind).numbered _ row found).symm.trans given
    exact ⟨rfl, member⟩
  · rintro ⟨rfl, stored⟩
    obtain ⟨row, found⟩ := Database.hasNode_iff.mp (sound.linksOf _ stored).1
    exact ⟨row, ⟨_, ⟨stored, rfl⟩, found⟩, pair.1,
      (sound.nodes link.nodeKind).numbered _ row found, rfl⟩

/-- The linked pairs of the given contexts become known, by induction on the contexts. -/
theorem storedPairs_answers (mirrors : store.Mirrors db before) (sound : db.Sound)
    (link : LinkKind) (contexts : List EntityId) (known : PairSet)
    : ∃ all, Answers before (storedPairs link store contexts known) all
        ∧ ∀ pair, pair ∈ all
          ↔ pair ∈ known ∨ pair.2 ∈ contexts ∧ (pair.2, pair.1) ∈ db.linksOf link.nodeKind := by
  induction contexts generalizing known with
  | nil => exact ⟨known, .pure, fun pair => by simp⟩
  | cons context rest ih =>
      obtain ⟨all, answers, exactly⟩ := ih (known.insertMany
        ((db.nodesInContext link.nodeKind context).filterMap fun node => node.id.map (·, context)))
      refine ⟨all, (linkedNodes_answers mirrors link context).bind answers, fun pair => ?_⟩
      rw [exactly, Std.ExtTreeSet.mem_insertMany_list, List.contains_iff_mem,
        mem_linkedIds_iff sound, List.mem_cons, or_assoc, or_and_right]

/-- All contexts together show all links. -/
theorem linkedPairs_answers (mirrors : store.Mirrors db before) (sound : db.Sound)
    (link : LinkKind)
    : Answers before (storedPairs link store ((db.nodesOf .context).filterMap (·.id)) ∅)
        (linkedPairs db link) := by
  obtain ⟨all, answers, exactly⟩ := storedPairs_answers mirrors sound link
    ((db.nodesOf .context).filterMap (·.id)) ∅
  have same : all = linkedPairs db link := by
    refine Std.ExtTreeSet.ext_mem fun pair => ?_
    rw [exactly, mem_linkedPairs, or_iff_right Std.ExtTreeSet.not_mem_empty]
    exact and_iff_right_of_imp fun stored => sound.mem_ids_iff.mpr (sound.linksOf _ stored).2
  rwa [same] at answers

/-- There is an unknown pair if there are more pairs than known ones. -/
theorem exists_unknown (differ : nodes.Nodup) (apart : contexts.Nodup)
    (fewer : known.size < nodes.length * contexts.length)
    : ∃ pair ∈ nodes.product contexts, pair ∉ known := by
  by_contra absent
  have within : nodes.product contexts ⊆ known.toList := fun pair member =>
    Std.ExtTreeSet.mem_toList.mpr (by_contra fun unknown => absent ⟨pair, member, unknown⟩)
  have few := (List.subperm_of_subset (differ.product apart) within).length_le
  rw [List.length_product, Std.ExtTreeSet.length_toList] at few
  omega

/-- One more pair is known after an unknown one is generated. -/
theorem size_insert {pair : EntityId × EntityId} (free : pair ∉ known)
    : (known.insert pair).size = known.size + 1 := by
  rw [Std.ExtTreeSet.size_insert,
    if_neg fun held => free (Std.ExtTreeSet.contains_iff_mem.mp held)]

-----------------------------------------------------------------------------------------
-- New pairs
-----------------------------------------------------------------------------------------

theorem link_injective
    : Function.Injective fun pair : EntityId × EntityId => Target.link ⟨pair.1, pair.2⟩ := by
  intro first second same
  injection same with joined
  injection joined with node context
  exact Prod.ext node context

/-- Different pairs of a node and a context, none of which was known. -/
structure Fresh (nodes contexts : List EntityId) (known : PairSet)
    (pairs : List (EntityId × EntityId)) : Prop where
  apart : pairs.Nodup
  within : ∀ pair ∈ pairs, pair ∈ nodes.product contexts
  unknown : ∀ pair ∈ pairs, pair ∉ known

namespace Fresh

variable {pair : EntityId × EntityId} {pairs : List (EntityId × EntityId)}

theorem nil
    : Fresh nodes contexts known [] :=
  ⟨.nil, List.forall_mem_nil _, List.forall_mem_nil _⟩

/-- An unknown pair that was not generated may follow. -/
theorem concat (fresh : Fresh nodes contexts known pairs) (member : pair ∈ nodes.product contexts)
    (free : pair ∉ known) (other : pair ∉ pairs)
    : Fresh nodes contexts known (pairs ++ [pair]) where
  apart := fresh.apart.append (List.nodup_singleton pair) (List.disjoint_singleton.mpr other)
  within := List.forall_mem_append.mpr ⟨fresh.within, List.forall_mem_singleton.mpr member⟩
  unknown := List.forall_mem_append.mpr ⟨fresh.unknown, List.forall_mem_singleton.mpr free⟩

/-- Requests to link fresh pairs of stored ends are open. -/
theorem pending (sound : db.Sound)
    (fresh : Fresh ((db.nodesOf link.nodeKind).filterMap (·.id))
      ((db.nodesOf .context).filterMap (·.id)) (linkedPairs db link) pairs)
    : (Load.fillLinks link).Pending db
        ((pairs.map fun pair => item link pair.1 pair.2).map (·.call)) := by
  rw [List.map_map]
  refine ⟨fun call member => ?_, ?_⟩
  · obtain ⟨pair, listed, rfl⟩ := List.mem_map.mp member
    obtain ⟨left, right⟩ := List.mem_product.mp (fresh.within pair listed)
    have ends := And.intro (sound.mem_ids_iff.mp left) (sound.mem_ids_iff.mp right)
    exact @Load.Acceptable.newLink db link ⟨pair.1, pair.2⟩ ends
      fun old => fresh.unknown pair listed (mem_linkedPairs.mpr old)
  · have targets : (pairs.map ((·.call) ∘ fun pair => item link pair.1 pair.2)).filterMap
          Call.target?
        = pairs.map fun pair => Target.link ⟨pair.1, pair.2⟩ := by
      rw [List.filterMap_map, ← List.filterMap_eq_map]
      exact List.filterMap_congr fun pair _ => target?_item link ⟨pair.1, pair.2⟩
    rw [targets]
    exact fresh.apart.map link_injective

end Fresh

end FillLinks
end LineageLoad
