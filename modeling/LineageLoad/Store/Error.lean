import LineageLoad.Entity

/-!
Why a store refuses a call: one constructor for each cause, with the category and the text that a
caller sees.
-/

namespace LineageLoad

/-- The five categories of refusals. -/
inductive StoreError.Category where
  | notFound
  | alreadyExists
  | invalidArgument
  | failedPrecondition
  | unavailable
  deriving DecidableEq, Repr, Inhabited

/-- The cause of a refused call. -/
inductive StoreError where
  /-- A type without a name. -/
  | emptyTypeName
  /-- No type of the kind has the id. -/
  | unknownType (kind : Kind) (id : EntityId)
  /-- No node of the kind has the id. -/
  | unknownNode (kind : Kind) (id : EntityId)
  /-- The named type is stored under another id than the given one. -/
  | wrongTypeId (kind : Kind) (name : String) (stored given : EntityId)
  /-- A stored property is missing from the new version of its type. -/
  | omittedProperty (kind : Kind) (typeName property : String)
  /-- A stored property has another type in the new version of its type. -/
  | retypedProperty (kind : Kind) (typeName property : String)
  /-- A type has further properties, which the call does not allow. -/
  | furtherProperties (kind : Kind) (typeName : String)
  /-- An update moves a node to another type. -/
  | changedType (kind : Kind) (id : EntityId)
  /-- A property that the type of the node does not declare. -/
  | undeclaredProperty (property typeName : String)
  /-- A value of another type than the declared one. -/
  | mismatchedValue (property typeName : String) (declared : PropertyType)
  /-- A context without a name. -/
  | unnamedContext
  /-- Another node of the type holds the name. -/
  | takenName (kind : Kind) (name typeName : String)
  /-- Two nodes of a batch have the same type and name. -/
  | repeatedName (kind : Kind) (name : String)
  /-- Two nodes of a batch have the same id. -/
  | repeatedId (kind : Kind) (id : EntityId)
  /-- The call was made to fail. -/
  | injected (category : StoreError.Category)
  deriving DecidableEq, Repr, Inhabited

namespace StoreError

/-- The category of a cause. -/
def category : StoreError → Category
  | emptyTypeName => .invalidArgument
  | unknownType .. => .notFound
  | unknownNode .. => .notFound
  | wrongTypeId .. => .invalidArgument
  | omittedProperty .. => .failedPrecondition
  | retypedProperty .. => .failedPrecondition
  | furtherProperties .. => .alreadyExists
  | changedType .. => .invalidArgument
  | undeclaredProperty .. => .invalidArgument
  | mismatchedValue .. => .invalidArgument
  | unnamedContext => .invalidArgument
  | takenName .. => .alreadyExists
  | repeatedName .. => .alreadyExists
  | repeatedId .. => .invalidArgument
  | injected category => category

/-- The words that every text of a category begins with. -/
def Category.heading : Category → String
  | notFound => "not found"
  | alreadyExists => "already exists"
  | invalidArgument => "invalid argument"
  | failedPrecondition => "failed precondition"
  | unavailable => "unavailable"

/-- The text of a cause after its heading. -/
def detail : StoreError → String
  | emptyTypeName => "type name is empty"
  | unknownType kind id => s!"{kind.typeLabel} with id {id}"
  | unknownNode kind id => s!"{kind.label} with id {id}"
  | wrongTypeId kind name stored given =>
    s!"{kind.typeLabel} `{name}` has id {stored}, not Some({given})"
  | omittedProperty kind typeName property =>
    s!"{kind.typeLabel} `{typeName}` cannot omit property `{property}`"
  | retypedProperty kind typeName property =>
    s!"{kind.typeLabel} `{typeName}` cannot change the type of property `{property}`"
  | furtherProperties kind typeName =>
    s!"{kind.typeLabel} `{typeName}` exists with different properties"
  | changedType kind id => s!"{kind.label} {id} cannot change its type"
  | undeclaredProperty property typeName =>
    s!"property `{property}` is not declared by `{typeName}`"
  | mismatchedValue property typeName declared =>
    s!"property `{property}` of `{typeName}` expects {declared.title}"
  | unnamedContext => "contexts must be named"
  | takenName kind name typeName => s!"{kind.label} `{name}` of type `{typeName}`"
  | repeatedName kind name => s!"{kind.label} `{name}` appears twice in the batch"
  | repeatedId kind id => s!"{kind.label} {id} appears twice in the batch"
  | injected _ => "injected"

def message (error : StoreError) : String :=
  error.category.heading ++ ": " ++ error.detail

end StoreError

end LineageLoad
