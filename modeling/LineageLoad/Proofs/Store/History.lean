import LineageLoad.Proofs.Store.Listings
import LineageLoad.Proofs.Store.Numbering
import LineageLoad.Proofs.Store.Refusals

/-!
What the history of a store tells about its contents: which types and nodes were created in which
order, and which events and links were stored. Refused calls tell nothing.
-/

namespace LineageLoad

-----------------------------------------------------------------------------------------
-- Histories
-----------------------------------------------------------------------------------------

/-- The kind and the name of the type that an accepted call stores. -/
def Answer.types : Answer → List (Kind × String)
  | ⟨.putType kind type _, .ok _⟩ => [(kind, type.name)]
  | _ => []

/-- The type ids of the nodes of a kind that an accepted call creates: these come without an id. -/
def Answer.nodes (kind : Kind) : Answer → List EntityId
  | ⟨.putNodes other nodes, .ok _⟩ =>
    if other = kind then (nodes.filter (·.id.isNone)).map (·.typeId) else []
  | _ => []

/-- The types that a history created: of all accepted calls for a kind and a name the first one
creates the type, and the others give versions of it.
-/
def createdTypes (log : List Answer) : List (Kind × String) :=
  (log.flatMap Answer.types).eraseDups

/-- The type ids of the nodes of a kind that a history created. -/
def createdNodes (kind : Kind) (log : List Answer) : List EntityId :=
  log.flatMap (Answer.nodes kind)

/-- The events that an accepted call stores. -/
def Answer.events : Answer → List Event
  | ⟨.putEvents events, .ok _⟩ => events
  | _ => []

/-- The links of the nodes of a kind that an accepted call stores. -/
def Answer.links (kind : Kind) : Answer → List Link
  | ⟨.putLinks attributions associations, .ok _⟩ =>
    match kind with
    | .artifact => attributions
    | .execution => associations
    | .context => []
  | _ => []

/-- All events that a history stored, in this order. -/
def writtenEvents (log : List Answer) : List Event := log.flatMap Answer.events

/-- All links of the nodes of a kind that a history stored, with repetitions. -/
def writtenLinks (kind : Kind) (log : List Answer) : List Link := log.flatMap (Answer.links kind)

section

variable {log : List Answer} {answer : Answer} {entry : Kind × String}

theorem mem_createdTypes
    : entry ∈ createdTypes log ↔ entry ∈ log.flatMap Answer.types :=
  List.mem_eraseDups

theorem createdTypes_append (log more : List Answer)
    : createdTypes log <+: createdTypes (log ++ more) := by
  rw [createdTypes, createdTypes, List.flatMap_append, List.eraseDups_append]
  exact List.prefix_append _ _

/-- A type that was created before is not created again. -/
theorem createdTypes_concat_old (stores : answer.types = [entry]) (old : entry ∈ createdTypes log)
    : createdTypes (log ++ [answer]) = createdTypes log := by
  have held := mem_createdTypes.mp old
  rw [createdTypes, List.flatMap_append, List.eraseDups_append, List.flatMap_singleton, stores]
  simp [List.removeAll, held, createdTypes]

theorem createdTypes_concat_new (stores : answer.types = [entry]) (new : entry ∉ createdTypes log)
    : createdTypes (log ++ [answer]) = createdTypes log ++ [entry] := by
  have held := mt mem_createdTypes.mpr new
  rw [createdTypes, List.flatMap_append, List.eraseDups_append, List.flatMap_singleton, stores]
  simp [List.removeAll, held, createdTypes, List.eraseDups_cons]

theorem createdTypes_concat_none (stores : answer.types = [])
    : createdTypes (log ++ [answer]) = createdTypes log := by
  rw [createdTypes, List.flatMap_append, List.flatMap_singleton, stores, List.append_nil]
  rfl

theorem createdNodes_concat (kind : Kind) (log : List Answer) (answer : Answer)
    : createdNodes kind (log ++ [answer]) = createdNodes kind log ++ answer.nodes kind := by
  rw [createdNodes, List.flatMap_append, List.flatMap_singleton]
  rfl

theorem createdNodes_append (kind : Kind) (log more : List Answer)
    : createdNodes kind (log ++ more) = createdNodes kind log ++ createdNodes kind more :=
  List.flatMap_append

theorem writtenEvents_concat (log : List Answer) (answer : Answer)
    : writtenEvents (log ++ [answer]) = writtenEvents log ++ answer.events := by
  rw [writtenEvents, List.flatMap_append, List.flatMap_singleton]
  rfl

theorem writtenLinks_concat (kind : Kind) (log : List Answer) (answer : Answer)
    : writtenLinks kind (log ++ [answer]) = writtenLinks kind log ++ answer.links kind := by
  rw [writtenLinks, List.flatMap_append, List.flatMap_singleton]
  rfl

end

-----------------------------------------------------------------------------------------
-- Successive ids
-----------------------------------------------------------------------------------------

section

variable {α β : Type} {last id : EntityId} {items more : List α} {item : α}

theorem successive_append (last : EntityId) (items more : List α) (id : EntityId)
    : successive last (items ++ more) id
      = (successive last items id).or (successive (last + items.length) more id) := by
  induction items generalizing last with
  | nil => simp [successive]
  | cons first rest ih =>
      rw [List.cons_append, successive, successive, ih, List.length_cons]
      have shifted : last + 1 + (rest.length : EntityId)
          = last + ((rest.length + 1 : Nat) : EntityId) := by
        simp only [EntityId]
        omega
      rw [shifted]
      split
      · rfl
      · rfl

/-- What stands under an id stays there when further items follow. -/
theorem successive_mono (first : items <+: more) (found : successive last items id = some item)
    : successive last more id = some item := by
  obtain ⟨rest, rfl⟩ := first
  rw [successive_append, found, Option.some_or]

/-- Something stands under each id after (last) that is not beyond the items. -/
theorem exists_successive_iff
    : (∃ item, successive last items id = some item) ↔ last < id ∧ id ≤ last + items.length := by
  refine ⟨fun ⟨item, found⟩ => successive_bounds found, fun bounds => ?_⟩
  induction items generalizing last with
  | nil =>
      simp only [EntityId, List.length_nil] at bounds
      omega
  | cons first rest ih =>
      rw [successive]
      split
      · exact ⟨first, rfl⟩
      · refine ih ?_
        simp only [EntityId, List.length_cons] at *
        omega

theorem mem_iff_exists_successive (last : EntityId)
    : item ∈ items ↔ ∃ id, successive last items id = some item := by
  induction items generalizing last with
  | nil => simp [successive]
  | cons first rest ih =>
      rw [List.mem_cons]
      constructor
      · rintro (rfl | later)
        · exact ⟨last + 1, if_pos rfl⟩
        · obtain ⟨id, found⟩ := (ih (last + 1)).mp later
          exact ⟨id, (if_neg (Int.ne_of_gt (successive_bounds found).1)).trans found⟩
      · rintro ⟨id, found⟩
        rw [successive] at found
        split at found
        · exact .inl (Option.some.inj found).symm
        · exact .inr ((ih (last + 1)).mpr ⟨id, found⟩)

end

-----------------------------------------------------------------------------------------
-- Tables of nodes
-----------------------------------------------------------------------------------------

namespace NodeTable

variable {types : EntityId → Option EntityType} {kind : Kind} {table : NodeTable}

theorem put_lastId (table : NodeTable) (node : Node)
    : (table.put node).2.lastId = if node.id.isNone then table.lastId + 1 else table.lastId := by
  cases given : node.id <;> simp [put, given]

/-- By induction on the nodes. -/
theorem putAll_lastId (table : NodeTable) (nodes : List Node)
    : (table.putAll nodes).2.lastId = table.lastId + (nodes.filter (·.id.isNone)).length := by
  induction nodes generalizing table with
  | nil => simp [putAll]
  | cons node rest ih =>
      rw [putAll]
      dsimp only
      rw [ih, put_lastId, List.filter_cons]
      cases node.id.isNone with
      | false => simp
      | true =>
          simp only [if_true, List.length_cons, EntityId]
          omega

/-- What is put under an id is of the type that stood there, or of the type of the new node. -/
theorem Ready.put_typeIds {node : Node} (ready : table.Ready types kind node) (id : EntityId)
    : ((table.put node).2.rows[id]?).map (·.typeId)
      = (successive table.lastId (if node.id.isNone then [node.typeId] else []) id).or
        (table.rows[id]?.map (·.typeId)) := by
  rw [put_rows]
  cases given : node.id with
  | none =>
      have key : (table.put node).1 = table.lastId + 1 := by rw [put_fst, given]; rfl
      simp only [key, Option.isNone_none, if_true, successive]
      split
      · rfl
      · rfl
  | some own =>
      obtain ⟨old, found, same⟩ := ready.stored own given
      have key : (table.put node).1 = own := by rw [put_fst, given]; rfl
      simp only [key, Option.isNone_some, Bool.false_eq_true, if_false, successive, Option.none_or]
      split
      · next here =>
          rw [here, found]
          exact congrArg some same.symm
      · rfl

/-- After a batch the new nodes stand under the next ids with their types, and the old ones have
kept theirs. By induction on the batch.
-/
theorem Sound.putAll_typeIds {nodes : List Node} (sound : table.Sound types kind)
    (ready : ∀ node ∈ nodes, table.Ready types kind node) (apart : nodes.Pairwise Database.Apart)
    (id : EntityId)
    : ((table.putAll nodes).2.rows[id]?).map (·.typeId)
      = (successive table.lastId ((nodes.filter (·.id.isNone)).map (·.typeId)) id).or
        (table.rows[id]?.map (·.typeId)) := by
  induction nodes generalizing table with
  | nil => rfl
  | cons node rest ih =>
      obtain ⟨separate, apart⟩ := List.pairwise_cons.mp apart
      have first := ready node List.mem_cons_self
      have later := ih (sound.put first) (fun other member =>
        (ready other (List.mem_cons_of_mem _ member)).put (separate other member) sound) apart
      rw [NodeTable.putAll]
      dsimp only
      rw [later, first.put_typeIds, put_lastId, List.filter_cons]
      cases node.id.isNone with
      | false => simp [successive]
      | true =>
          simp only [if_true, List.map_cons, successive]
          split
          · next here => rw [successive_eq_none (Int.le_of_eq here)]; rfl
          · simp

end NodeTable

-----------------------------------------------------------------------------------------
-- Contents
-----------------------------------------------------------------------------------------

/-- The nodes of a table are of the given types, under the ids from 1 on in this order. -/
structure NodeTable.HoldsNodes (typeIds : List EntityId) (table : NodeTable) : Prop where
  lastId : table.lastId = typeIds.length
  rows : ∀ id : EntityId, table.rows[id]?.map (·.typeId) = successive 0 typeIds id

/-- The ids of the nodes are those from 1 to their number. -/
theorem NodeTable.HoldsNodes.isSome_iff {typeIds : List EntityId} {table : NodeTable}
    (holds : table.HoldsNodes typeIds) {id : EntityId}
    : table.rows[id]?.isSome ↔ 1 ≤ id ∧ id ≤ typeIds.length := by
  rw [← Option.isSome_map, holds.rows, Option.isSome_iff_exists, exists_successive_iff,
    Int.zero_add]
  rfl

/-- A batch that passes its checks adds the nodes that come without an id. -/
theorem NodeTable.HoldsNodes.putAll {types : EntityId → Option EntityType} {kind : Kind}
    {table : NodeTable} {typeIds : List EntityId} {nodes : List Node}
    (holds : table.HoldsNodes typeIds) (sound : table.Sound types kind)
    (ready : ∀ node ∈ nodes, table.Ready types kind node) (apart : nodes.Pairwise Database.Apart)
    : (table.putAll nodes).2.HoldsNodes
        (typeIds ++ (nodes.filter (·.id.isNone)).map (·.typeId)) where
  lastId := by
    rw [putAll_lastId, holds.lastId, List.length_append, List.length_map]
    simp
  rows id := by
    rw [sound.putAll_typeIds ready apart, holds.rows, holds.lastId, successive_append, Int.zero_add]
    -- The ids of the new nodes are beyond those of the old ones.
    cases new : successive (typeIds.length : EntityId) _ id with
    | none => rw [Option.none_or, Option.or_none]
    | some typeId =>
        cases old : successive 0 typeIds id with
        | none => rfl
        | some other =>
            have beyond := (successive_bounds new).1
            have within := (successive_bounds old).2
            simp only [EntityId] at *
            omega

namespace Database

variable {db next : Database} {kind : Kind} {log : List Answer} {answer : Answer}
  {entries : List (Kind × String)}

/-- The types are of the given kinds and names, under the ids from 1 on in this order. -/
structure HoldsTypes (entries : List (Kind × String)) (db : Database) : Prop where
  lastTypeId : db.lastTypeId = entries.length
  rows
    : ∀ kind id name, successive 0 entries id = some (kind, name)
      ↔ ∃ type, db.typeById? kind id = some type ∧ type.name = name

theorem HoldsTypes.mem_iff (holds : db.HoldsTypes entries) {name : String}
    : (kind, name) ∈ entries ↔ ∃ id type, db.typeById? kind id = some type ∧ type.name = name := by
  rw [mem_iff_exists_successive 0]
  exact exists_congr fun id => holds.rows kind id name

/-- A type that is added is the last one. -/
theorem HoldsTypes.addType (holds : db.HoldsTypes entries) (type : EntityType)
    : (db.addType kind type).2.HoldsTypes (entries ++ [(kind, type.name)]) where
  lastTypeId := by
    have added : (db.addType kind type).2.lastTypeId = db.lastTypeId + 1 := rfl
    rw [added, holds.lastTypeId]
    simp
  rows other id name := by
    rw [successive_append, typeById?_addType, Int.zero_add, ← holds.lastTypeId]
    by_cases here : id = db.lastTypeId + 1
    · have beyond : successive 0 entries id = none := by
        cases old : successive 0 entries id with
        | none => rfl
        | some entry =>
            have within := (successive_bounds old).2
            rw [here, holds.lastTypeId] at within
            simp only [EntityId] at within
            omega
      have free : ¬∃ type, db.typeById? other id = some type ∧ type.name = name := by
        rw [← holds.rows, beyond]
        rintro ⟨⟩
      rw [beyond, Option.none_or, successive, if_pos here]
      by_cases same : other = kind
      · simp [same, here]
      · simp [same, free, Ne.symm same]
    · rw [if_neg fun both => here both.2, ← holds.rows, successive, if_neg here, successive,
        Option.or_none]

/-- A version of a type keeps its kind, its id and its name. -/
theorem HoldsTypes.setType (holds : db.HoldsTypes entries) {id : EntityId}
    {stored version : EntityType} (found : db.typeById? kind id = some stored)
    (sameName : version.name = stored.name)
    : (db.setType kind id version).HoldsTypes entries where
  lastTypeId := holds.lastTypeId
  rows other key name := by
    rw [holds.rows, typeById?_setType]
    split
    · next here =>
        obtain ⟨rfl, rfl⟩ := here
        simp [found, sameName]
    · rfl

/-- The contents are exactly what a history tells: the types and nodes that it created stand under
the ids from 1 on in this order, and the events and links are those that it stored.
-/
structure ToldBy (log : List Answer) (db : Database) : Prop where
  types : db.HoldsTypes (createdTypes log)
  nodes : ∀ kind, (db.nodes.get kind).HoldsNodes (createdNodes kind log)
  events : db.events = writtenEvents log
  links
    : ∀ kind (pair : EntityId × EntityId),
      pair ∈ db.linksOf kind ↔ (⟨pair.2, pair.1⟩ : Link) ∈ writtenLinks kind log

theorem empty_toldBy
    : empty.ToldBy [] where
  types := ⟨rfl, fun kind id name => by simp [createdTypes, successive, typeById?, empty]⟩
  nodes kind := by
    refine ⟨?_, fun id => ?_⟩
    · simp [createdNodes, empty]
    · simp [createdNodes, successive, empty]
  events := rfl
  links kind pair := by cases kind <;> simp [linksOf, empty, writtenLinks]

/-- A history goes on with types only if the contents keep everything else. -/
theorem ToldBy.withTypes (told : db.ToldBy log)
    (types : next.HoldsTypes (createdTypes (log ++ [answer]))) (nodes : next.nodes = db.nodes)
    (events : next.events = db.events) (links : ∀ kind, next.linksOf kind = db.linksOf kind)
    (noNode : ∀ kind, answer.nodes kind = []) (noEvent : answer.events = [])
    (noLink : ∀ kind, answer.links kind = [])
    : next.ToldBy (log ++ [answer]) where
  types := types
  nodes kind := by
    rw [createdNodes_concat, noNode, List.append_nil, nodes]
    exact told.nodes kind
  events := by rw [writtenEvents_concat, noEvent, List.append_nil, events, told.events]
  links kind pair := by rw [writtenLinks_concat, noLink, List.append_nil, links, told.links]

/-- Calls that tell nothing leave what was told. -/
theorem ToldBy.idle (told : db.ToldBy log) (noType : answer.types = [])
    (noNode : ∀ kind, answer.nodes kind = []) (noEvent : answer.events = [])
    (noLink : ∀ kind, answer.links kind = [])
    : db.ToldBy (log ++ [answer]) := by
  refine told.withTypes ?_ rfl rfl (fun _ => rfl) noNode noEvent noLink
  rw [createdTypes_concat_none noType]
  exact told.types

/-- An accepted type is created if none was before with its kind and its name. -/
theorem ToldBy.typeStored (told : db.ToldBy log) {type : EntityType} {id : EntityId}
    (stored : db.TypeStored kind type id next) (canAddFields : Bool)
    : next.ToldBy (log ++ [⟨.putType kind type canAddFields, .ok id⟩]) := by
  have sameLinks {types : PerKind (Table EntityType)} {last : EntityId} (other : Kind)
      : linksOf { db with types, lastTypeId := last } other = db.linksOf other := by
    cases other <;> rfl
  cases stored with
  | created absent unnumbered =>
      have new : (kind, type.name) ∉ createdTypes log := by
        rw [told.types.mem_iff]
        rintro ⟨_, _, found, named⟩
        exact name_ne_of_typeEntry?_eq_none absent found named
      refine told.withTypes ?_ rfl rfl sameLinks (fun _ => rfl) rfl fun _ => rfl
      rw [createdTypes_concat_new rfl new]
      exact told.types.addType type
  | @extended _ row found =>
      obtain ⟨found, named⟩ := typeById?_of_entry found
      have old : (kind, type.name) ∈ createdTypes log :=
        told.types.mem_iff.mpr ⟨id, row, found, named⟩
      refine told.withTypes ?_ rfl rfl sameLinks (fun _ => rfl) rfl fun _ => rfl
      rw [createdTypes_concat_old rfl old]
      exact told.types.setType found rfl

/-- The nodes of an accepted batch that come without an id are created. -/
theorem ToldBy.putNodes (told : db.ToldBy log) (sound : db.Sound) {nodes : List Node}
    {ids : List EntityId} (stored : db.putNodes kind nodes = .ok (ids, next))
    : next.ToldBy (log ++ [⟨.putNodes kind nodes, .ok ids⟩]) := by
  obtain ⟨accepts, apart, _, rfl⟩ := putNodes_eq_ok_iff.mp stored
  have noEvent : Answer.events ⟨.putNodes kind nodes, .ok ids⟩ = [] := rfl
  have noLink (other : Kind) : Answer.links other ⟨.putNodes kind nodes, .ok ids⟩ = [] := rfl
  refine ⟨?types, fun other => ?nodes, ?events, fun other pair => ?links⟩
  case types =>
    rw [createdTypes_concat_none rfl]
    exact ⟨told.types.lastTypeId, told.types.rows⟩
  case nodes =>
    rw [createdNodes_concat, Answer.nodes]
    by_cases here : other = kind
    · subst here
      rw [if_pos rfl, PerKind.get_set_self]
      have holds := (told.nodes other).putAll (sound.nodes other) (ready_withTypeName accepts)
        (apart_withTypeName apart)
      rw [List.filter_map, List.map_map] at holds
      exact holds
    · rw [if_neg (Ne.symm here), List.append_nil, PerKind.get_set_of_ne _ _ here]
      exact told.nodes other
  case events =>
    rw [writtenEvents_concat, noEvent, List.append_nil]
    exact told.events
  case links =>
    rw [writtenLinks_concat, noLink, List.append_nil, ← told.links]
    cases other <;> rfl

/-- Accepted events follow those that were there. -/
theorem ToldBy.putEvents (told : db.ToldBy log) {events : List Event}
    (stored : db.putEvents events = .ok next)
    : next.ToldBy (log ++ [⟨.putEvents events, .ok ()⟩]) := by
  obtain ⟨_, rfl⟩ := putEvents_eq_ok_iff.mp stored
  have noNode (kind : Kind) : Answer.nodes kind ⟨.putEvents events, .ok ()⟩ = [] := rfl
  have noLink (kind : Kind) : Answer.links kind ⟨.putEvents events, .ok ()⟩ = [] := rfl
  refine ⟨?types, fun kind => ?nodes, ?events, fun kind pair => ?links⟩
  case types =>
    rw [createdTypes_concat_none rfl]
    exact ⟨told.types.lastTypeId, told.types.rows⟩
  case nodes =>
    rw [createdNodes_concat, noNode, List.append_nil]
    exact told.nodes kind
  case events =>
    rw [writtenEvents_concat, ← told.events]
    rfl
  case links =>
    rw [writtenLinks_concat, noLink, List.append_nil, ← told.links]
    cases kind <;> rfl

/-- Accepted links join those that were there. -/
theorem ToldBy.putLinks (told : db.ToldBy log) {attributions associations : List Link}
    (stored : db.putLinks attributions associations = .ok next)
    : next.ToldBy (log ++ [⟨.putLinks attributions associations, .ok ()⟩]) := by
  obtain ⟨_, rfl⟩ := putLinks_eq_ok_iff.mp stored
  have noNode (kind : Kind)
      : Answer.nodes kind ⟨.putLinks attributions associations, .ok ()⟩ = [] := rfl
  have noEvent : Answer.events ⟨.putLinks attributions associations, .ok ()⟩ = [] := rfl
  refine ⟨?types, fun kind => ?nodes, ?events, fun kind pair => ?links⟩
  case types =>
    rw [createdTypes_concat_none rfl]
    exact ⟨told.types.lastTypeId, told.types.rows⟩
  case nodes =>
    rw [createdNodes_concat, noNode, List.append_nil]
    exact told.nodes kind
  case events =>
    rw [writtenEvents_concat, noEvent, List.append_nil]
    exact told.events
  case links =>
    rw [writtenLinks_concat, List.mem_append, ← told.links]
    cases kind with
    | artifact => exact mem_insertMany_links
    | execution => exact mem_insertMany_links
    | context => simp [linksOf, Answer.links]

/-- The contents after a call are told by the history that goes on with its answer. By cases on the
call: only accepted writes tell anything.
-/
theorem ToldBy.serve (told : db.ToldBy log) (sound : db.Sound) (call : Call)
    : (serve call db).2.ToldBy (log ++ [⟨call, (serve call db).1⟩]) := by
  cases call with
  | putType kind type canAddFields =>
      rw [Database.serve]
      cases outcome : db.putType kind type canAddFields with
      | error error => exact told.idle rfl (fun _ => rfl) rfl fun _ => rfl
      | ok stored => exact told.typeStored (putType_eq_ok outcome).2 canAddFields
  | putNodes kind nodes =>
      rw [Database.serve]
      cases outcome : db.putNodes kind nodes with
      | error error => exact told.idle rfl (fun _ => rfl) rfl fun _ => rfl
      | ok stored => exact told.putNodes sound outcome
  | putEvents events =>
      rw [Database.serve]
      cases outcome : db.putEvents events with
      | error error => exact told.idle rfl (fun _ => rfl) rfl fun _ => rfl
      | ok next => exact told.putEvents outcome
  | putLinks attributions associations =>
      rw [Database.serve]
      cases outcome : db.putLinks attributions associations with
      | error error => exact told.idle rfl (fun _ => rfl) rfl fun _ => rfl
      | ok next => exact told.putLinks outcome
  | _ => exact told.idle rfl (fun _ => rfl) rfl fun _ => rfl

/-- By induction on the calls. -/
theorem ToldBy.serveAll (told : db.ToldBy log) (sound : db.Sound) (calls : List Call)
    : (db.serveAll calls).ToldBy (log ++ store.answers calls db) := by
  induction calls generalizing db log with
  | nil => rwa [Store.answers, List.append_nil]
  | cons call rest ih =>
      have later := ih (told.serve sound call) (sound.serve call)
      rwa [List.append_assoc] at later

end Database

end LineageLoad
