import LineageLoad.Json.Basic

/-!
Compact JSON text. Only quotes, backslashes and control characters are escaped.
-/

namespace LineageLoad
namespace Json

/-- A number below sixteen as a hexadecimal digit. -/
def hexCharacter (digit : Nat) : Char :=
  if digit < 10 then Char.ofNat ('0'.toNat + digit) else Char.ofNat ('a'.toNat + (digit - 10))

/-- The hexadecimal digits of a number, a given count of them. -/
def hexText (count number : Nat) : String :=
  String.ofList ((List.range count).reverse.map fun place =>
    hexCharacter (number >>> (4 * place) % 16))

def escape (c : Char) : String :=
  match c with
  | '"' => "\\\""
  | '\\' => "\\\\"
  | '\x08' => "\\b"
  | '\x0c' => "\\f"
  | '\n' => "\\n"
  | '\r' => "\\r"
  | '\t' => "\\t"
  | _ => if c.toNat < 0x20 then "\\u" ++ hexText 4 c.toNat else c.toString

def quote (text : String) : String :=
  "\"" ++ String.join (text.toList.map escape) ++ "\""

mutual

/-- The compact text of a value. A number that is no integer is written as its bits in
hexadecimal digits, as a string.
-/
def render : Json → String
  | null => "null"
  | bool value => if value then "true" else "false"
  | integer value => toString value
  | minusZero => "0"
  | float value => quote (hexText 16 value.bits.toNat)
  | string value => quote value
  | character value => quote value.toString
  | array found => "[" ++ ",".intercalate (renderItems found) ++ "]"
  | object found => "\x7b" ++ ",".intercalate (renderFields found) ++ "\x7d"
  | unreadable => "null"

def renderItems : List Json → List String
  | [] => []
  | item :: rest => render item :: renderItems rest

def renderFields : List (String × Json) → List String
  | [] => []
  | (name, item) :: rest => (quote name ++ ":" ++ render item) :: renderFields rest

end

end Json
end LineageLoad
