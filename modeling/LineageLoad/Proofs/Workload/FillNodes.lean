import LineageLoad.Proofs.Random.Texts
import LineageLoad.Proofs.Store.Listings
import LineageLoad.Proofs.Workload.MakeUp
import LineageLoad.Proofs.Workload.Names
import LineageLoad.Workload.FillNodes

/-!
The requests for nodes are open: new nodes have names that no node of their type has and properties
of the declared types, and updates keep every custom property of the node they extend.
-/

namespace LineageLoad
namespace FillNodes

variable {γ : Type} [WordSource γ] {db : Database} {kind : Kind}
  {numProperties stringBytes : Sampler} {name : String} {connection : Connection}

theorem drawValue_propertyType (stringBytes : Sampler) (type : PropertyType) (g : γ)
    : (drawValue stringBytes type g).1.propertyType = type := by
  cases type <;> rfl

/-- A value that is generated for a property of a type: if it is a text, its length was drawn. -/
structure IsValue (γ : Type) [WordSource γ] (stringBytes : Sampler) (type : PropertyType)
    (value : Value) : Prop where
  propertyType : value.propertyType = type
  text : ∀ text, value = .string text → stringBytes.IsText γ text

theorem drawText_isText (stringBytes : Sampler) (g : γ)
    : ∃ text, (drawText stringBytes g).1 = .string text ∧ stringBytes.IsText γ text :=
  ⟨_, rfl, stringBytes.isText g⟩

/-- By cases on the type that is asked for: only texts have a length. -/
theorem drawValue_isValue (stringBytes : Sampler) (type : PropertyType) (g : γ)
    : IsValue γ stringBytes type (drawValue stringBytes type g).1 := by
  refine ⟨drawValue_propertyType stringBytes type g, ?_⟩
  intro text drawn
  cases type with
  | int => cases drawn
  | double => cases drawn
  | string =>
      obtain ⟨other, same, isText⟩ := drawText_isText stringBytes g
      cases same.symm.trans drawn
      exact isText

/-- Each property that is drawn is generated for one that was asked for, by induction on these. -/
theorem isValue_of_mem_drawProperties {declared : List (String × PropertyType)} {g : γ}
    {name : String} {value : Value}
    (member : (name, value) ∈ (drawProperties stringBytes declared g).1)
    : ∃ type, (name, type) ∈ declared ∧ IsValue γ stringBytes type value := by
  induction declared generalizing g with
  | nil => cases member
  | cons first rest ih =>
      rcases List.mem_cons.mp member with same | later
      · have same : (name, value) = (first.1, (drawValue stringBytes first.2 g).1) := same
        obtain ⟨rfl, rfl⟩ := Prod.mk.inj same
        exact ⟨first.2, List.mem_cons_self, drawValue_isValue stringBytes first.2 g⟩
      · obtain ⟨type, listed, isValue⟩ := ih later
        exact ⟨type, List.mem_cons_of_mem _ listed, isValue⟩

/-- Properties are drawn under the names that are asked for, by induction on these. -/
theorem names_drawProperties (stringBytes : Sampler) (declared : List (String × PropertyType))
    (g : γ)
    : (drawProperties stringBytes declared g).1.map (·.1) = declared.map (·.1) := by
  induction declared generalizing g with
  | nil => rfl
  | cons first rest ih => exact congrArg (first.1 :: ·) (ih _)

/-- Properties with the given names and types, whose values are generated. -/
structure Fills (γ : Type) [WordSource γ] (stringBytes : Sampler)
    (declared : List (String × PropertyType)) (properties : PropertyMap Value) : Prop where
  names : ∀ name, name ∈ properties ↔ name ∈ declared.map (·.1)
  size : properties.size = declared.length
  values
    : ∀ (name : String) value, properties[name]? = some value →
      ∃ type, (name, type) ∈ declared ∧ IsValue γ stringBytes type value

/-- Properties that are drawn under different names fill what is asked for. -/
theorem fills_drawProperties {declared : List (String × PropertyType)}
    (apart : (declared.map (·.1)).Nodup) (g : γ)
    : Fills γ stringBytes declared (.ofList (drawProperties stringBytes declared g).1) := by
  have same := names_drawProperties stringBytes declared g
  rw [← same] at apart
  refine ⟨fun name => ?names, ?size, fun name value found => ?values⟩
  case names => rw [Std.ExtTreeMap.mem_ofList, List.contains_iff_mem, same]
  case size =>
    have length := congrArg List.length same
    rw [List.length_map, List.length_map] at length
    rw [Std.ExtTreeMap.size_ofList (pairwise_names apart), length]
  case values => exact isValue_of_mem_drawProperties ((getElem?_ofList_iff apart).mp found)

/-- No property of a type is listed twice. -/
theorem nodup_declared (type : EntityType) (wanted : Nat)
    : ((type.properties.toList.take wanted).map (·.1)).Nodup := by
  rw [List.map_take, Std.ExtTreeMap.map_fst_toList_eq_keys]
  exact Std.ExtTreeMap.nodup_keys.sublist (List.take_sublist _ _)

/-- A type admits properties that are drawn for some that it declares. -/
theorem admits_drawProperties (type : EntityType) (wanted : Nat) (g : γ) {node : Node}
    (properties : node.properties = .ofList
      (drawProperties stringBytes (type.properties.toList.take wanted) g).1)
    : type.Admits node := by
  intro name value found
  rw [properties] at found
  obtain ⟨declared, listed, isValue⟩ :=
    (fills_drawProperties (nodup_declared type wanted) g).values name value found
  rw [isValue.propertyType]
  exact Std.ExtTreeMap.mem_toList_iff_getElem?_eq_some.mp (List.mem_of_mem_take listed)

/-- Texts are added one after the other, by induction on their number. -/
theorem addsNumbered_addProperties (stringBytes : Sampler) (count next : Nat)
    (properties : PropertyMap Value) (g : γ)
    : ∃ numbers,
        numbers.length = count
        ∧ AddsNumbered "update_p-" (fun value => ∃ text, value = .string text
            ∧ stringBytes.IsText γ text) next properties numbers
          (addProperties stringBytes count next properties g).1 := by
  induction count generalizing next properties g with
  | zero => exact ⟨[], rfl, .nil⟩
  | succ count ih =>
      obtain ⟨number, here⟩ : ∃ number,
          firstFree (fun k => properties.contains (numbered "update_p-" k)) (properties.size + 1)
            next = number := ⟨_, rfl⟩
      obtain ⟨numbers, length, adds⟩ := ih (number + 1)
        (properties.insert (numbered "update_p-" number) (drawText stringBytes g).1)
        (drawText stringBytes g).2
      unfold addProperties
      dsimp only
      rw [here]
      exact ⟨number :: numbers, congrArg Nat.succ length, adds.cons here (drawText_isText _ g)⟩

/-- A new node of a stored type under a free name is accepted. -/
theorem accepts_new (sound : db.Sound) {typeId : EntityId} {type : EntityType} {node : Node}
    (typed : db.typeById? kind typeId = some type) (same : node.typeId = typeId)
    (unnumbered : node.id = none) (admits : type.Admits node) {name : String}
    (named : node.name = some name)
    (free : ∀ id other, db.nodeById? kind id = some other → other.typeId = typeId →
      other.name ≠ some name)
    : db.Accepts kind type node where
  typed := same ▸ typed
  stored id given := by cases unnumbered.symm.trans given
  admitted := admits
  named _ := by simp [named]
  free other owner given held := by
    obtain ⟨row, found, sameType, sameName⟩ :=
      ((sound.nodes kind).indexed node.typeId other owner).mp held
    cases named.symm.trans given
    exact absurd sameName (free owner row found (sameType.trans same))

/-- Items for new nodes are open and take none of the names in use, if all names of the kind are
among those. By induction on their number.
-/
theorem insertItems_creates (sound : db.Sound) {types : List (EntityId × EntityType)}
    (someType : types ≠ [])
    (stored : ∀ entry ∈ types, db.typeById? kind entry.1 = some entry.2)
    {taken : List (EntityId × String)}
    (known : ∀ id node name, db.nodeById? kind id = some node → node.name = some name →
      (node.typeId, name) ∈ taken) (count next : Nat)
    : Draws (insertItems kind numProperties stringBytes types count next taken : DrawM γ _)
        ((Load.fillNodes kind false numProperties stringBytes).Writes db
          (fun target => ∀ pair ∈ taken, target ≠ .name pair.1 (some pair.2)) count) := by
  induction count generalizing next taken with
  | zero => exact .pure .nil
  | succ count ih =>
      unfold insertItems
      refine .bind (.choose someType) fun (typeId, type) member => ?_
      have free
          : (typeId, numbered "node_" (firstFree
              (fun k => taken.contains (typeId, numbered "node_" k)) (taken.length + 1) next))
            ∉ taken :=
        firstFree_not_mem fun same => numbered_injective (Prod.mk.inj same).2
      dsimp only
      generalize firstFree _ (taken.length + 1) next = number at free ⊢
      -- A node of this type with the number that was found would be among the names in use.
      have absent (id : EntityId) (other : Node) (found : db.nodeById? kind id = some other)
          (same : other.typeId = typeId) : other.name ≠ some (numbered "node_" number) :=
        fun named => free (same ▸ known id other _ found named)
      refine .bind (.drawn _) fun wanted _ => ?_
      refine .bind (.drawn _) fun _ ⟨g, drawn⟩ => ?_
      subst drawn
      refine .bind (.drawn _) fun custom _ => ?_
      refine .bind (ih (fun id node name found named =>
        List.mem_cons_of_mem _ (known id node name found named)) _) fun rest creates => .pure ?_
      refine .cons (.newNode rfl (accepts_new sound (stored _ member) rfl rfl
        (admits_drawProperties type wanted g rfl) rfl absent)) rfl
        (fun (key, name) inUse same => ?_) (fun fresh => ?_) (fun other fresh pair inUse => ?_)
        creates
      · cases same
        exact free inUse
      · exact fresh _ List.mem_cons_self rfl
      · exact fresh pair (List.mem_cons_of_mem _ inUse)

theorem inserts_creates (sound : db.Sound) (count : Nat)
    : Ensures (Preparation.Reaches · name connection db)
        (inserts kind numProperties stringBytes (Server.store connection) count
          : PrepareM Server γ _)
        fun items p =>
          (∃ allowed,
            (Load.fillNodes kind false numProperties stringBytes).Writes db allowed count items)
          ∧ p.Reaches name connection db := by
  unfold inserts
  refine Answers.ensures (.onStore (.existingTypes _)) ?_
  refine Ensures.check rfl fun someType => ?_
  refine Answers.ensures (.onStore (.existingNodes _)) ?_
  refine ((insertItems_creates sound (mt List.isEmpty_iff.mpr someType) (fun entry member => ?_)
    (fun id node name found named => ?_) count _).weaken fun _ creates => ⟨_, creates⟩).onSource
  · rw [sound.entries_types] at member
    exact Std.ExtTreeMap.mem_toList_iff_getElem?_eq_some.mp member
  · exact Database.mem_namesInUse_iff.mpr
      ⟨node, Database.mem_nodesOf_iff.mpr ⟨id, found⟩, rfl, named⟩

/-- Items for versions of different stored nodes are open and write only these nodes. By induction
on the nodes.
-/
theorem updateItems_pending (sound : db.Sound) {nodes : List Node}
    (stored : ∀ node ∈ nodes, ∃ id, db.nodeById? kind id = some node)
    (apart : (nodes.filterMap (·.id)).Nodup)
    : Draws (updateItems kind numProperties stringBytes nodes : DrawM γ _)
        ((Load.fillNodes kind true numProperties stringBytes).Writes db
          (fun target => ∃ id ∈ nodes.filterMap (·.id), target = .node id) nodes.length) := by
  induction nodes with
  | nil => exact .pure .nil
  | cons node rest ih =>
      obtain ⟨⟨id, found⟩, others⟩ := List.forall_mem_cons.mp stored
      have numbered := (sound.nodes kind).numbered id node found
      rw [List.filterMap_cons_some numbered] at apart ⊢
      obtain ⟨different, apart⟩ := List.nodup_cons.mp apart
      refine .bind (.drawn _) fun sampled _ => ?_
      refine .bind (.drawn _) fun _ ⟨g, drawn⟩ => ?_
      subst drawn
      obtain ⟨_, _, adds⟩ := addsNumbered_addProperties stringBytes (max sampled 1)
        node.numProperties node.customProperties g
      have version : Node.Extends { node with
          customProperties := (addProperties stringBytes (max sampled 1) node.numProperties
            node.customProperties g).1 } node :=
        ⟨rfl, fun name value => adds.keeps⟩
      refine .bind (ih others apart) fun items pending => .pure ?_
      refine .cons (.nodeVersion found version) (version.target? found sound).2
        ⟨id, List.mem_cons_self, rfl⟩ (fun again => ?_) (fun other listed => ?_) pending
      · obtain ⟨key, listed, same⟩ := again
        cases same
        exact different listed
      · obtain ⟨key, listed, same⟩ := listed
        exact ⟨key, List.mem_cons_of_mem _ listed, same⟩

theorem makeUp_changes (sound : db.Sound) (missing : Nat)
    : Ensures (Preparation.Reaches · name connection db)
        (makeUp kind numProperties stringBytes (Server.store connection) missing
          : PrepareM Server γ Unit)
        fun _ p => ∃ next, p.Reaches name connection next ∧ next.Sound
          ∧ (Load.fillNodes kind true numProperties stringBytes).Changes missing 0 db next := by
  unfold makeUp
  refine .bind (note_keeps _) fun _ => ?_
  refine .bind (inserts_creates sound missing) fun items p ⟨⟨_, creates⟩, reaches⟩ => ?_
  refine ((forM_issue_changes sound creates.pending _).weaken fun _ p => ?_) p reaches
  rintro ⟨next, reaches, sound, created⟩
  exact ⟨next, reaches, sound, creates.length ▸ created.ofNewNodes⟩

/-- The requests for versions of nodes that are synthesized are open, once the missing nodes are
created.
-/
theorem updates_opens (sound : db.Sound) (count : Nat)
    : Ensures (Preparation.Reaches · name connection db)
        (updates kind numProperties stringBytes (Server.store connection) count
          : PrepareM Server γ _)
        ((Load.fillNodes kind true numProperties stringBytes).Opens
          (count - (db.nodesOf kind).length) db name connection) := by
  have goesOn {made : Nat} {next : Database} (sound : next.Sound)
      (changes : (Load.fillNodes kind true numProperties stringBytes).Changes made 0 db next)
      : Ensures (Preparation.Reaches · name connection next)
          (do
            if (next.nodesOf kind).length < count then
              throw (.tooFewNodes kind (next.nodesOf kind).length count)
            PrepareM.onSource
              (updateItems kind numProperties stringBytes ((next.nodesOf kind).take count))
            : PrepareM Server γ _)
          ((Load.fillNodes kind true numProperties stringBytes).Opens made db name connection) := by
    have stored (node : Node) (member : node ∈ (next.nodesOf kind).take count)
        : ∃ id, next.nodeById? kind id = some node :=
      Database.mem_nodesOf_iff.mp (List.mem_of_mem_take member)
    have apart := sound.nodup_ids.sublist
      ((List.take_sublist count (next.nodesOf kind)).filterMap (·.id))
    refine Ensures.check rfl fun _ => Load.opens_of_pending sound changes ?_
    exact ((updateItems_pending sound stored apart).weaken fun _ => (·.pending)).onSource
  unfold updates
  refine Answers.ensures (.onStore (.existingNodes _)) ?_
  refine .branch (fun few => ?_) (fun enough => ?_)
  · refine .bind (makeUp_changes sound _) fun _ p ⟨next, reaches, sound, changes⟩ => ?_
    exact Answers.ensures (.onStore (.existingNodes _)) (goesOn sound changes) p reaches
  · rw [Nat.sub_eq_zero_of_le (Nat.le_of_not_lt enough)]
    exact goesOn sound (.refl _ db)

end FillNodes
end LineageLoad
