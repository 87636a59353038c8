import LineageLoad.Store.Call

/-!
The calls of a store on contents that change in place, one part after the other. What was changed
before a refusal stays changed; contents are compared by what they stand for.
-/

namespace LineageLoad

/-- The values of a function on kinds. -/
def PerKind.ofFn {α : Type} (f : Kind → α) : PerKind α := ⟨f .artifact, f .execution, f .context⟩

@[simp] theorem PerKind.get_ofFn {α : Type} (f : Kind → α) (kind : Kind)
    : (ofFn f).get kind = f kind := by
  cases kind <;> rfl

/-- Contents that change in place. A kind has tables only once it was written to. -/
structure Cells where
  lastTypeId : EntityId := 0
  types : PerKind (Option (Table EntityType)) := .const none
  lastNodeIds : PerKind (Option EntityId) := .const none
  nodes : PerKind (Option (Table Node)) := .const none
  names : PerKind (Std.ExtTreeMap (EntityId × String) EntityId pairOrder) := .const ∅
  events : List Event := []
  attributions : LinkSet := ∅
  associations : LinkSet := ∅

/-- Writes that change contents in place; a refusal keeps the changes before it. -/
abbrev InPlace := ExceptT StoreError (StateM Cells)

/-- Ends a write if there is a reason to. -/
def InPlace.refuse : (reason : Option StoreError) → InPlace Unit
  | none => return ()
  | some error => throw error

namespace Cells

def empty : Cells := {}

/-- What the contents stand for: a kind without a table has no rows. -/
def contents (cells : Cells) : Database where
  lastTypeId := cells.lastTypeId
  types := .ofFn fun kind => (cells.types.get kind).getD ∅
  nodes := .ofFn fun kind =>
    { lastId := (cells.lastNodeIds.get kind).getD 0
      rows := (cells.nodes.get kind).getD ∅
      names := cells.names.get kind }
  events := cells.events
  attributions := cells.attributions
  associations := cells.associations

-----------------------------------------------------------------------------------------
-- Single changes
-----------------------------------------------------------------------------------------

/-- Makes the table of the types of a kind, unless there is one. -/
def openTypes (kind : Kind) (cells : Cells) : Cells :=
  { cells with types := cells.types.set kind (some ((cells.types.get kind).getD ∅)) }

def countType (cells : Cells) : Cells := { cells with lastTypeId := cells.lastTypeId + 1 }

def insertType (kind : Kind) (id : EntityId) (type : EntityType) (cells : Cells) : Cells :=
  { cells with
    types := cells.types.set kind (some (((cells.types.get kind).getD ∅).insert id type)) }

def countNode (kind : Kind) (cells : Cells) : Cells :=
  { cells with
    lastNodeIds := cells.lastNodeIds.set kind (some ((cells.lastNodeIds.get kind).getD 0 + 1)) }

def insertNode (kind : Kind) (id : EntityId) (node : Node) (cells : Cells) : Cells :=
  { cells with
    nodes := cells.nodes.set kind (some (((cells.nodes.get kind).getD ∅).insert id node)) }

/-- Takes a name from its node, if there is a name. -/
def releaseName (kind : Kind) (typeId : EntityId) (name : Option String) (cells : Cells) : Cells :=
  match name with
  | none => cells
  | some name =>
    { cells with names := cells.names.set kind ((cells.names.get kind).erase (typeId, name)) }

/-- Gives a name to a node, if there is a name. -/
def insertName (kind : Kind) (typeId : EntityId) (name : Option String) (id : EntityId)
    (cells : Cells) : Cells :=
  match name with
  | none => cells
  | some name =>
    { cells with names := cells.names.set kind ((cells.names.get kind).insert (typeId, name) id) }

-----------------------------------------------------------------------------------------
-- Writes
-----------------------------------------------------------------------------------------

/-- Stores a type. The table of its kind is made before the type is looked for. -/
def putType (kind : Kind) (type : EntityType) (canAddFields : Bool) : InPlace EntityId := do
  InPlace.refuse (if type.name = "" then some .emptyTypeName else none)
  modify (openTypes kind)
  match (← get).contents.typeEntry? kind type.name with
  | none =>
    InPlace.refuse (type.id.map (.unknownType kind))
    modify countType
    let id := (← get).lastTypeId
    modify (insertType kind id { type with id := some id })
    return id
  | some (id, stored) =>
    InPlace.refuse (EntityType.wrongIdError? kind id type)
    InPlace.refuse (EntityType.conflictError? kind stored type)
    if stored.hasFurther type then
      InPlace.refuse (if canAddFields then none else some (.furtherProperties kind type.name))
      modify (insertType kind id { stored with properties := stored.properties ∪ type.properties })
    return id

/-- The id under which a node is stored: its own, or the next one, which is used up. -/
def idFor (kind : Kind) (node : Node) : InPlace EntityId := do
  match node.id with
  | some id => return id
  | none =>
    modify (countNode kind)
    return ((← get).lastNodeIds.get kind).getD 0

/-- Stores a node that was checked, and then moves its name in the index. -/
def putNode (kind : Kind) (node : Node) : InPlace EntityId := do
  let id ← idFor kind node
  let previous := ((← get).contents.nodeById? kind id).bind (·.name)
  modify (insertNode kind id { node with id := some id })
  modify (releaseName kind node.typeId previous)
  modify (insertName kind node.typeId node.name id)
  return id

/-- Stores nodes that were checked, one after the other. -/
def putEach (kind : Kind) : List Node → InPlace (List EntityId)
  | [] => return []
  | node :: rest => return (← putNode kind node) :: (← putEach kind rest)

/-- Checks a batch of nodes in order and then stores them one after the other. -/
def putNodes (kind : Kind) (nodes : List Node) : InPlace (List EntityId) := do
  match (← get).contents.checkBatch kind [] [] nodes with
  | .error error => throw error
  | .ok checked => putEach kind checked

/-- Checks the ends of events in order and then adds all events. -/
def putEvents (events : List Event) : InPlace Unit := do
  let endpoints := events.flatMap fun event =>
    [(.artifact, event.artifact), (.execution, event.execution)]
  InPlace.refuse ((← get).contents.missing? endpoints)
  modify fun cells => { cells with events := cells.events ++ events }

/-- Checks the ends of links in order and then adds those of artifacts before the others. -/
def putLinks (attributions associations : List Link) : InPlace Unit := do
  let endpoints (kind : Kind) (links : List Link) := links.flatMap fun link =>
    [(kind, link.node), (.context, link.context)]
  let pairs (links : List Link) := links.map fun link => (link.context, link.node)
  InPlace.refuse ((← get).contents.missing?
    (endpoints .artifact attributions ++ endpoints .execution associations))
  modify fun cells =>
    { cells with attributions := cells.attributions.insertMany (pairs attributions) }
  modify fun cells =>
    { cells with associations := cells.associations.insertMany (pairs associations) }

/-- Serves a call: writes change the contents in place, and everything else reads them. -/
def serve : (call : Call) → Cells → Except StoreError call.Reply × Cells
  | .putType kind type canAddFields, cells => (putType kind type canAddFields).run cells
  | .putNodes kind nodes, cells => (putNodes kind nodes).run cells
  | .putEvents events, cells => (putEvents events).run cells
  | .putLinks attributions associations, cells => (putLinks attributions associations).run cells
  | call, cells => ((Database.serve call cells.contents).1, cells)

/-- The store that serves every call in place. -/
def store : Store Cells := ⟨serve⟩

end Cells

end LineageLoad
