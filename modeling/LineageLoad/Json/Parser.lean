import LineageLoad.Json.Number
import LineageLoad.Text.Natural

/-!
Reading JSON text. Every step hands on what is left of the text, and a budget as long as the text
bounds the nesting of the steps. Arrays and objects have room for a limited number of others inside
each other; those beyond it are scanned but cannot be read.
-/

namespace LineageLoad
namespace Json

def isBlank (c : Char) : Bool := c = ' ' || c = '\n' || c = '\t' || c = '\r'

def skipBlanks (text : List Char) : List Char := text.dropWhile isBlank

/-- Four hexadecimal digits at the front of a text. -/
def hexQuad? : List Char → Option (Nat × List Char)
  | a :: b :: c :: d :: rest => do
    let a ← Text.hexDigit? a
    let b ← Text.hexDigit? b
    let c ← Text.hexDigit? c
    let d ← Text.hexDigit? d
    return (((a * 16 + b) * 16 + c) * 16 + d, rest)
  | _ => none

/-- The character that a letter after a backslash stands for. -/
def escaped? : Char → Option Char
  | '"' => some '"'
  | '\\' => some '\\'
  | '/' => some '/'
  | 'b' => some '\x08'
  | 'f' => some '\x0c'
  | 'n' => some '\n'
  | 'r' => some '\r'
  | 't' => some '\t'
  | _ => none

/-- The text after an opening quote, up to the closing one. The characters are missing if an escape
names half of a character without the other half.
-/
def quoted? (budget : Nat) (text : List Char) : Option (Option (List Char) × List Char) :=
  match budget, text with
  | 0, _ => none
  | _, [] => none
  | _ + 1, '"' :: rest => some (some [], rest)
  | budget + 1, '\\' :: 'u' :: rest => do
    let (unit, rest) ← hexQuad? rest
    if unit < 0xd800 ∨ 0xdfff < unit then
      let (tail, rest) ← quoted? budget rest
      return (tail.map (Char.ofNat unit :: ·), rest)
    else
      let pair := match rest with
        | '\\' :: 'u' :: after =>
          (hexQuad? after).filter fun (low, _) => unit < 0xdc00 ∧ 0xdc00 ≤ low ∧ low ≤ 0xdfff
        | _ => none
      match pair with
      | some (low, rest) =>
        let code := 0x10000 + (unit - 0xd800) * 0x400 + (low - 0xdc00)
        let (tail, rest) ← quoted? budget rest
        return (tail.map (Char.ofNat code :: ·), rest)
      | none =>
        let (_, rest) ← quoted? budget rest
        return (none, rest)
  | budget + 1, '\\' :: c :: rest => do
    let c ← escaped? c
    let (tail, rest) ← quoted? budget rest
    return (tail.map (c :: ·), rest)
  | budget + 1, c :: rest => do
    guard (0x20 ≤ c.toNat)
    let (tail, rest) ← quoted? budget rest
    return (tail.map (c :: ·), rest)

/-- How many arrays and objects can stand inside each other, the outermost one included. -/
def nestingLimit : Nat := 127

/-- A value for which there is room. -/
def within (room : Nat) (json : Json) : Json := if room = 0 then unreadable else json

mutual

/-- Reads a value after blanks, with room for some arrays and objects inside each other. -/
def readValue? (room budget : Nat) (text : List Char) : Option (Json × List Char) :=
  match budget with
  | 0 => none
  | budget + 1 =>
    match skipBlanks text with
    | 'n' :: 'u' :: 'l' :: 'l' :: rest => some (null, rest)
    | 't' :: 'r' :: 'u' :: 'e' :: rest => some (bool true, rest)
    | 'f' :: 'a' :: 'l' :: 's' :: 'e' :: rest => some (bool false, rest)
    | '"' :: rest => (quoted? (rest.length + 1) rest).map fun (characters, rest) =>
      ((characters.map (string <| String.ofList ·)).getD unreadable, rest)
    | '[' :: rest =>
      match skipBlanks rest with
      | ']' :: rest => some (within room (array []), rest)
      | rest => (readItems? (room - 1) budget rest).map fun (found, rest) =>
        (within room (array found), rest)
    | '\x7b' :: rest =>
      match skipBlanks rest with
      | '\x7d' :: rest => some (within room (object []), rest)
      | rest => (readFields? (room - 1) budget rest).map fun (found, rest) =>
        (within room ((found.map object).getD unreadable), rest)
    | text => (NumberLiteral.scan? text).map fun (literal, rest) => (literal.value, rest)

/-- Reads the items of an array and its closing bracket. -/
def readItems? (room budget : Nat) (text : List Char) : Option (List Json × List Char) :=
  match budget with
  | 0 => none
  | budget + 1 => do
    let (item, rest) ← readValue? room budget text
    match skipBlanks rest with
    | ',' :: rest =>
      let (found, rest) ← readItems? room budget rest
      return (item :: found, rest)
    | ']' :: rest => return ([item], rest)
    | _ => none

/-- Reads the fields of an object and its closing brace. The fields are missing if the characters of
a name are.
-/
def readFields? (room budget : Nat) (text : List Char)
    : Option (Option (List (String × Json)) × List Char) :=
  match budget with
  | 0 => none
  | budget + 1 =>
    match skipBlanks text with
    | '"' :: rest => do
      let (name, rest) ← quoted? (rest.length + 1) rest
      match skipBlanks rest with
      | ':' :: rest =>
        let (item, rest) ← readValue? room budget rest
        let field := name.map fun name => (String.ofList name, item)
        match skipBlanks rest with
        | ',' :: rest =>
          let (found, rest) ← readFields? room budget rest
          return (field.bind fun field => found.map (field :: ·), rest)
        | '\x7d' :: rest => return (field.map ([·]), rest)
        | _ => none
      | _ => none
    | _ => none

end

/-- Reads a text that holds one value and nothing else. -/
def parse? (text : String) : Option Json :=
  let characters := text.toList
  match readValue? nestingLimit (2 * characters.length + 1) characters with
  | some (json, rest) => if skipBlanks rest = [] then some json else none
  | none => none

end Json
end LineageLoad
