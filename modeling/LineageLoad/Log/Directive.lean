import LineageLoad.Log.Level
import LineageLoad.Log.Pattern
import LineageLoad.Text.Bytes
import LineageLoad.Text.Scientific
import LineageLoad.Text.Shortest

/-!
Directives, which give levels to parts of the program: to those with a target, in a span, with a
field or with a value of it. The text of a directive is `target[span{field=value}]=level`, of which
most may be missing.
-/

namespace LineageLoad

/-- What the value of a field is compared with. -/
inductive LogValue where
  | bool (value : Bool)
  | natural (value : Nat)
  | integer (value : Int)
  | number (value : Double)
  | notANumber
  /-- A regular expression. -/
  | pattern (text : String)
  deriving DecidableEq, Repr, Inhabited

namespace LogValue

/-- The integer that a text writes, if it fits 64 bits. -/
def integer? (text : String) : Option LogValue :=
  match text.toList with
  | '-' :: digits => (Text.natural? 10 digits).bind fun n =>
    if n ≤ 1 <<< 63 then some (.integer (-n)) else none
  | _ => (Text.decimalNatural? text).bind fun n =>
    if n < UInt64.size then some (.natural n) else none

/-- The number that a text writes and that is no integer. It may have a name in any case. -/
def number? (text : String) : Option LogValue :=
  let (negative, name) := NumberLiteral.sign (LogLevel.lowerCase text).toList
  if ["inf", "infinity"].contains (String.ofList name) then
    let infinity : Double := ⟨Double.infinityBits.toUInt64⟩
    some (.number (if negative then infinity.negate else infinity))
  else if String.ofList name = "nan" then some .notANumber
  else (Text.decimal? text.toList).map .number

/-- Reads a value: a truth value or a number if the text writes one, and a pattern otherwise. -/
def parse? (text : String) : Option LogValue :=
  if text = "true" then some (.bool true)
  else if text = "false" then some (.bool false)
  else ((integer? text).or (number? text)).or
    (if Pattern.isValid text then some (.pattern text) else none)

def text : LogValue → String
  | bool value => if value then "true" else "false"
  | natural value => toString value
  | integer value => toString value
  | number value => Text.shortestText value
  | notANumber => "NaN"
  | pattern text => text

/-- Whether two values are compared with in the same way; zeros are, whatever their signs. -/
def isSame : LogValue → LogValue → Bool
  | number x, number y => x = y || (x.bits <<< 1 = 0 && y.bits <<< 1 = 0)
  | value, other => value = other

end LogValue

/-- A field that must be there, with a certain value if one is given. -/
structure LogField where
  name : String
  value : Option LogValue := none
  deriving DecidableEq, Repr, Inhabited

namespace LogField

/-- Reads a field: its name and perhaps, after an equals sign, a value. -/
def parse? (text : String) : Option LogField :=
  match text.splitToList (· = '=') with
  | name :: value :: _ => (LogValue.parse? value).map fun value => ⟨name, some value⟩
  | [name] => some ⟨name, none⟩
  | [] => none

def text (field : LogField) : String :=
  field.name ++ field.value.elim "" fun value => "=" ++ value.text

def isSame (field other : LogField) : Bool :=
  field.name = other.name && match field.value, other.value with
    | none, none => true
    | some value, some other => value.isSame other
    | _, _ => false

end LogField

/-- A level for the parts of the program whose names begin with a target, or for all of them. -/
structure LogDirective where
  target : Option String := none
  /-- It holds within spans of this name only. -/
  span : Option String := none
  /-- It holds only where this field is. -/
  field : Option LogField := none
  level : LogLevel := .trace
  deriving DecidableEq, Repr, Inhabited

namespace LogDirective

/-- Whether a directive may begin with a character. -/
def isStart (c : Char) : Bool := c = '-' || c = ':' || c = '_' || Text.isAlphanumeric c

/-- The part of a text between two places, counted in bytes. -/
def cut? (whole : List Char) (start stop : Nat) : Option String := do
  let (_, back) ← Text.splitBytes? start whole
  let (found, _) ← Text.splitBytes? (stop - start) back
  return String.ofList found

/-- The part of a text from a place on, counted in bytes. -/
def cutFrom? (whole : List Char) (start : Nat) : Option String :=
  (Text.splitBytes? start whole).map fun (_, back) => String.ofList back

/-- The level that begins at a place; nothing stands for the one that logs most. -/
def levelAt? (whole : List Char) (start : Nat) : Option LogLevel := do
  let text ← cutFrom? whole start
  if text = "" then some .trace else LogLevel.parse? text

/-- A directive whose level is all that is left to read, at a place. -/
def ofLevel? (whole : List Char) (directive : LogDirective) (place : Nat)
    : List Char → Option LogDirective
  | [] => some directive
  | '=' :: _ => (levelAt? whole (place + 1)).map fun level => { directive with level }
  | _ => none

/-- A directive whose field begins at a place, in a span that may have no name. -/
def ofField? (whole : List Char) (directive : LogDirective) (place : Nat) (visible : List Char)
    : Option LogDirective := do
  let stop := place + Text.byteCount (visible.takeWhile (· ≠ '\x7d'))
  match visible.dropWhile (· ≠ '\x7d') with
  | '\x7d' :: ']' :: rest =>
    let text ← cut? whole place stop
    guard (text ≠ "")
    let field ← LogField.parse? text
    ofLevel? whole { directive with field := some field } (stop + 2) rest
  | _ => none

/-- A directive for a target whose span begins at a place. -/
def ofSpan? (whole : List Char) (target : Option String) (place : Nat) (visible : List Char)
    : Option LogDirective := do
  let isName (c : Char) : Bool := c ≠ ']' && c ≠ '\x7b'
  let stop := place + Text.byteCount (visible.takeWhile isName)
  let span ← cut? whole place stop
  match visible.dropWhile isName with
  | ']' :: rest => ofLevel? whole { target, span := some span } (stop + 1) rest
  | '\x7b' :: rest =>
    ofField? whole { target, span := if span = "" then none else some span } (stop + 1) rest
  | _ => none

/-- Reads a directive. Its places are found without the white space around it, but its parts are cut
from the whole text, at the same numbers of bytes.
-/
def parse? (text : String) : Option LogDirective := do
  let whole := text.toList
  let visible := Text.trimmed whole
  let isName (c : Char) : Bool := c ≠ '=' && c ≠ '['
  let place := Text.byteCount (visible.takeWhile isName)
  if visible.head? = some '[' then ofSpan? whole none 1 visible.tail
  else
    guard (visible.head?.any isStart)
    match visible.dropWhile isName with
    | '=' :: _ =>
      let target ← cut? whole 0 place
      let level ← levelAt? whole (place + 1)
      return { target := some target, level }
    | '[' :: rest =>
      let target ← cut? whole 0 place
      ofSpan? whole (some target) (place + 1) rest
    | _ =>
      match LogLevel.parse? text with
      | some level => return { level }
      | none => return { target := some text }

/-- What a directive says beside its target: its span and its field. -/
def scopeText (directive : LogDirective) : String :=
  if directive.span.isNone && directive.field.isNone then ""
  else "[" ++ directive.span.getD ""
    ++ directive.field.elim "" (fun field => "\x7b" ++ field.text ++ "\x7d") ++ "]"

def text (directive : LogDirective) : String :=
  let scope := directive.target.getD "" ++ directive.scopeText
  if directive.target.isNone && directive.scopeText = "" then directive.level.label
  else scope ++ "=" ++ directive.level.label

/-- Whether two directives hold for the same lines. -/
def sameScope (directive other : LogDirective) : Bool :=
  directive.target = other.target && directive.span = other.span
    && match directive.field, other.field with
      | none, none => true
      | some field, some other => field.isSame other
      | _, _ => false

/-- Whether the lines for which a directive holds are known before they are written. -/
def isStatic (directive : LogDirective) : Bool :=
  directive.span.isNone && directive.field.all (·.value.isNone)

/-- Whether a directive looks at the spans around a line. -/
def isDynamic (directive : LogDirective) : Bool :=
  directive.span.isSome || directive.field.isSome

/-- How specific a directive is, compared with another one: by the length of its target, by having a
field, and then by the texts of both.
-/
def specificity (directive other : LogDirective) : Ordering :=
  let length (directive : LogDirective) : Nat := directive.target.elim 0 (·.utf8ByteSize + 1)
  let name (directive : LogDirective) : String := directive.field.elim "" (·.name)
  (compare (length directive) (length other)).then
    ((compare directive.field.isSome other.field.isSome).then
      ((compare (directive.target.getD "") (other.target.getD "")).then
        (compare (name directive) (name other))))

end LogDirective

end LineageLoad
