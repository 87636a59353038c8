import LineageLoad.Config.Layers
import LineageLoad.Text.Bytes
import LineageLoad.Text.Natural
import LineageLoad.Text.Scientific
import LineageLoad.Text.Whitespace

/-!
Settings from environment variables: names are paths into the settings, and values are written in a
short syntax of their own.
-/

namespace LineageLoad

namespace Inline

/-- Whether a character delimits values. -/
def isDelimiter (c : Char) : Bool := ",[]\x7b\x7d".toList.contains c

/-- Whether a character may stand in a key without quotes. -/
def isKeyCharacter (c : Char) : Bool := c.isAlphanum || c = '_' || c = '-'

/-- The text after white space. -/
def skip (text : List Char) : List Char := text.dropWhile Text.isAsciiWhitespace

/-- The integer that a word writes, if it fits 64 bits. -/
def integer? (word : List Char) : Option Json :=
  match word with
  | '-' :: digits => (Text.natural? 10 digits).bind fun n =>
    if n = 0 then some .minusZero else if n ≤ 1 <<< 63 then some (.integer (-n)) else none
  | word => (Text.natural? 10 (Text.afterPlus word)).bind fun n =>
    if n < UInt64.size then some (.integer n) else none

/-- What a word without quotes is: a number, of which one with a point is no integer, or its own
text.
-/
def word (characters : List Char) : Json :=
  let float? := if characters.contains '.' then Text.decimal? characters else none
  match float?, integer? characters with
  | some number, _ => .float number
  | none, some number => number
  | none, none => .string (String.ofList characters)

/-- The character that a letter after a backslash stands for. -/
def escaped? : Char → Option Char
  | '"' => some '"'
  | '\\' => some '\\'
  | 'b' => some '\x08'
  | 'f' => some '\x0c'
  | 'n' => some '\n'
  | 'r' => some '\r'
  | 't' => some '\t'
  | _ => none

/-- What stands between quotes, up to the first one without a backslash in front, and the text after
it.
-/
def enclosed? : List Char → Option (List Char × List Char)
  | [] => none
  | '"' :: rest => some ([], rest)
  | '\\' :: c :: rest => (enclosed? rest).map fun (front, back) => ('\\' :: c :: front, back)
  | c :: rest => (enclosed? rest).map fun (front, back) => (c :: front, back)

/-- Whether a character may stand between quotes. -/
def isTextCharacter (c : Char) : Bool := c = '\t' || (0x20 ≤ c.toNat && c.toNat ≠ 0x7f)

/-- The characters that stand between quotes, with the meaning of all escapes. -/
def unescaped? : List Char → Option (List Char)
  | [] => some []
  | '\\' :: 'u' :: a :: b :: c :: d :: rest => do
    return (← Text.codePoint? [a, b, c, d]) :: (← unescaped? rest)
  | '\\' :: 'U' :: a :: b :: c :: d :: e :: f :: g :: h :: rest => do
    return (← Text.codePoint? [a, b, c, d, e, f, g, h]) :: (← unescaped? rest)
  | '\\' :: letter :: rest => do return (← escaped? letter) :: (← unescaped? rest)
  | c :: rest => do
    guard (isTextCharacter c && c ≠ '\\')
    return c :: (← unescaped? rest)

/-- The text after an opening quote, up to the closing one. If it has escapes, what stands before
the first one is kept up to as many bytes as it has characters.
-/
def quoted? (text : List Char) : Option (List Char × List Char) := do
  let (inner, rest) ← enclosed? text
  let plain := inner.takeWhile (· ≠ '\\')
  guard (plain.all isTextCharacter)
  if inner.contains '\\' then
    let (kept, _) ← Text.splitBytes? plain.length plain
    return (kept ++ (← unescaped? (inner.dropWhile (· ≠ '\\'))), rest)
  else return (inner, rest)

/-- The key at the front of a text, and the text after its equals sign. -/
def key? (text : List Char) : Option (String × List Char) := do
  let (key, rest) ← match skip text with
    | '"' :: rest => quoted? rest
    | text => some (text.takeWhile isKeyCharacter, text.dropWhile isKeyCharacter)
  guard (key ≠ [] ∨ (skip text).head? = some '"')
  match skip rest with
  | '=' :: rest => return (String.ofList key, rest)
  | _ => none

mutual

/-- Reads a value and the white space around it. -/
def value? (budget : Nat) (text : List Char) : Option (Json × List Char) :=
  match budget with
  | 0 => none
  | budget + 1 =>
    let found : Option (Json × List Char) := match skip text with
      | 't' :: 'r' :: 'u' :: 'e' :: rest => some (.bool true, rest)
      | 'f' :: 'a' :: 'l' :: 's' :: 'e' :: rest => some (.bool false, rest)
      | '\x7b' :: rest => (fields? budget rest).map fun (found, rest) => (.object found, rest)
      | '[' :: rest => (items? budget rest).map fun (found, rest) => (.array found, rest)
      | '"' :: rest => (quoted? rest).map fun (found, rest) => (.string (String.ofList found), rest)
      | '\'' :: c :: '\'' :: rest => some (.character c, rest)
      | '\'' :: _ => none
      | text => some (word (Text.trimmed (text.takeWhile (!isDelimiter ·))),
        text.dropWhile (!isDelimiter ·))
    found.map fun (json, rest) => (json, skip rest)

/-- Reads the items of an array and its closing bracket. -/
def items? (budget : Nat) (text : List Char) : Option (List Json × List Char) :=
  match budget with
  | 0 => none
  | budget + 1 =>
    match text with
    | ']' :: rest => some ([], rest)
    | text => do
      let (item, rest) ← value? budget text
      match rest with
      | ',' :: rest =>
        let (found, rest) ← items? budget rest
        return (item :: found, rest)
      | ']' :: rest => return ([item], rest)
      | _ => none

/-- Reads the fields of a dictionary and its closing brace. -/
def fields? (budget : Nat) (text : List Char) : Option (List (String × Json) × List Char) :=
  match budget with
  | 0 => none
  | budget + 1 =>
    match text with
    | '\x7d' :: rest => some ([], rest)
    | text => do
      let (key, rest) ← key? text
      let (item, rest) ← value? budget rest
      match rest with
      | ',' :: rest =>
        let (found, rest) ← fields? budget rest
        return ((key, item) :: found, rest)
      | '\x7d' :: rest => return ([(key, item)], rest)
      | _ => none

end

/-- What a text is; one that does not follow the syntax stands for itself. -/
def parse (text : String) : Json :=
  let characters := text.toList
  match value? (2 * characters.length + 2) characters with
  | some (json, []) => json
  | _ => .string text

end Inline

namespace Environment

/-- What the names of all settings begin with, in any case. -/
def heading : List Char := "mlmd_bench__".toList

/-- The characters of a name with a point for each pair of underscores. -/
def withPoints : List Char → List Char
  | '_' :: '_' :: rest => '.' :: withPoints rest
  | c :: rest => c :: withPoints rest
  | [] => []

/-- The path that a variable names, in lower case; there is none if the variable is no setting or a
part of the path is empty.
-/
def path? (name : String) : Option (List String) :=
  let name := (Text.trimmed name.toList).map Char.toLower
  if name.take heading.length = heading then
    let rest := Text.trimmed (withPoints (name.drop heading.length))
    let path := (String.ofList rest).splitToList (· = '.')
    if path.contains "" then none else some path
  else none

/-- The layer of settings that variables give, the later ones over the earlier ones. -/
def layer (environment : List (String × String)) : Json :=
  environment.foldl (fun layer (name, text) =>
    match path? name with
    | none => layer
    | some path => ((Inline.parse text).sorted.nested path).overlay layer) (.object [])

end Environment

end LineageLoad
