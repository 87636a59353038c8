import LineageLoad.Double

/-!
Property values and the types that properties are declared with.
-/

namespace LineageLoad

/-- The declared type of a property. -/
inductive PropertyType where
  | int
  | double
  | string
  deriving DecidableEq, Repr, Inhabited

namespace PropertyType

/-- All property types, in the order of their declaration. -/
def all : List PropertyType := [int, double, string]

/-- The name of the type in requests. -/
def label : PropertyType → String
  | int => "int"
  | double => "double"
  | string => "string"

/-- The name of the type in messages. -/
def title : PropertyType → String
  | int => "Int"
  | double => "Double"
  | string => "String"

end PropertyType

/-- The value of a property. -/
inductive Value where
  | int (value : Int64)
  | double (value : Double)
  | string (value : String)
  deriving DecidableEq, Repr, Inhabited

/-- The type that declares properties with this value. -/
def Value.propertyType : Value → PropertyType
  | .int _ => .int
  | .double _ => .double
  | .string _ => .string

end LineageLoad
