import LineageLoad.Double

/-!
JSON values as they are written: fields keep their order and repetitions, and integers are told
apart from other numbers. Sources other than JSON text tell two more forms apart, a single character
and a zero with a minus.
-/

namespace LineageLoad

/-- A JSON value. -/
inductive Json where
  | null
  | bool (value : Bool)
  /-- A literal without fraction and exponent that fits 64 bits with or without a sign. -/
  | integer (value : Int)
  /-- An integer zero that is written with a minus. -/
  | minusZero
  /-- Any other number. -/
  | float (value : Double)
  | string (value : String)
  /-- A text of one character in quotes of its own. -/
  | character (value : Char)
  | array (items : List Json)
  | object (fields : List (String × Json))
  /-- A literal of the right form that stands for nothing: a number out of range, a text that holds
  half of a character, or an object with such a name. It may be skipped but not read. -/
  | unreadable
  deriving Inhabited

namespace Json

def fields? : Json → Option (List (String × Json))
  | object fields => some fields
  | _ => none

def items? : Json → Option (List Json)
  | array items => some items
  | _ => none

def text? : Json → Option String
  | string text => some text
  | _ => none

def integer? : Json → Option Int
  | integer value => some value
  | _ => none

def nat? : Json → Option Nat
  | integer value => if 0 ≤ value then some value.toNat else none
  | _ => none

/-- A value at the end of a path of names, in an object for each of them. -/
def nested (json : Json) (path : List String) : Json :=
  path.foldr (fun name json => object [(name, json)]) json

/-- The value of the first field with a name; a field that is null counts as absent. -/
def field? (json : Json) (name : String) : Option Json :=
  match json.fields?.bind (·.lookup name) with
  | some null => none
  | found => found

end Json

end LineageLoad
