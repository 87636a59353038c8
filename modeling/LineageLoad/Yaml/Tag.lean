import LineageLoad.Text.Natural
import LineageLoad.Yaml.Cursor

/-!
What stands beside YAML nodes: names of nodes, tags, which have a handle and a suffix, and
directives, which set up a document. Each function hands on the place after what it reads.
-/

namespace LineageLoad
namespace Yaml

/-- The name of a node; a gap or one of a few marks must follow. -/
def nodeName? (cursor : Cursor) : Option (String × Cursor) :=
  let name := cursor.run isNameCharacter
  let after := cursor.skipRun isNameCharacter
  let ends := startsOrEnds (fun c => isSpace c || "?:,]\x7d%@`".toList.contains c) after.rest
  if !name.isEmpty && ends then some (String.ofList name, after) else none

/-- A tag before its handle is replaced by what the handle stands for. -/
structure Tag where
  handle : List Char
  suffix : List Char
  deriving DecidableEq, Repr, Inhabited

/-- How many bytes the first byte of a character announces. -/
def encodedLength? (byte : Nat) : Option Nat :=
  if byte < 0x80 then some 1
  else if 0xc0 ≤ byte ∧ byte < 0xe0 then some 2
  else if 0xe0 ≤ byte ∧ byte < 0xf0 then some 3
  else if 0xf0 ≤ byte ∧ byte < 0xf8 then some 4
  else none

/-- A byte that is written as a percent sign and two digits. -/
def escapedByte? (cursor : Cursor) : Option (Nat × Cursor) :=
  match cursor.rest with
  | '%' :: high :: low :: _ => (Text.natural? 16 [high, low]).map (·, cursor.skip 3)
  | _ => none

/-- The further bytes of a character, a number of them. -/
def furtherBytes? (count : Nat) (cursor : Cursor) : Option (List Char × Cursor) :=
  match count with
  | 0 => some ([], cursor)
  | count + 1 => do
    let (byte, cursor) ← escapedByte? cursor
    guard (0x80 ≤ byte ∧ byte < 0xc0)
    let (found, cursor) ← furtherBytes? count cursor
    return (Char.ofNat byte :: found, cursor)

/-- The bytes of a character that is written byte by byte, each one as the character with its code.
-/
def escapedBytes? (cursor : Cursor) : Option (List Char × Cursor) := do
  let (byte, cursor) ← escapedByte? cursor
  let length ← encodedLength? byte
  let (found, cursor) ← furtherBytes? (length - 1) cursor
  return (Char.ofNat byte :: found, cursor)

/-- Whether a character may stand in a tag; some may only do so in a verbatim one. -/
def isTagCharacter (verbatim : Bool) (c : Char) : Bool :=
  isNameCharacter c || ";/?:@&=+$.%!~*'()".toList.contains c
    || (verbatim && ",[]".toList.contains c)

def tagText? (verbatim : Bool) (budget : Nat) (cursor : Cursor) : Option (List Char × Cursor) :=
  match budget, cursor.rest with
  | 0, _ => none
  | _ + 1, [] => some ([], cursor)
  | budget + 1, c :: _ =>
    if !isTagCharacter verbatim c then some ([], cursor)
    else do
      let (found, cursor) ← if c = '%' then escapedBytes? cursor else some ([c], cursor.next)
      let (more, cursor) ← tagText? verbatim budget cursor
      return (found ++ more, cursor)

/-- What counts of the characters of a tag: those before a zero. -/
def beforeZero (characters : List Char) : List Char := characters.takeWhile (· ≠ '\x00')

/-- The characters of a tag, of which there must be one. -/
def someTagText? (verbatim : Bool) (cursor : Cursor) : Option (List Char × Cursor) := do
  let (found, cursor) ← tagText? verbatim (cursor.rest.length + 1) cursor
  guard (!found.isEmpty)
  return (beforeZero found, cursor)

/-- A handle: a name between exclamation marks, the last of which may be missing. -/
def handle? (cursor : Cursor) : Option (List Char × Cursor) :=
  if cursor.sees '!' then
    let name := cursor.next.run isNameCharacter
    let after := cursor.next.skipRun isNameCharacter
    if after.sees '!' then some ('!' :: name ++ ['!'], after.next) else some ('!' :: name, after)
  else none

/-- A tag between angle brackets, after the exclamation mark. It has no handle. -/
def verbatimTag? (cursor : Cursor) : Option (Tag × Cursor) := do
  let (suffix, cursor) ← someTagText? true cursor.next
  guard (cursor.sees '>')
  return (⟨[], suffix⟩, cursor.next)

/-- A tag that has a handle, or is a suffix after an exclamation mark. The mark alone is a tag
without a handle.
-/
def shortTag? (cursor : Cursor) : Option (Tag × Cursor) := do
  let (handle, cursor) ← handle? cursor
  if 1 < handle.length && handle.getLast? = some '!' then
    let (suffix, cursor) ← someTagText? false cursor
    return (⟨handle, suffix⟩, cursor)
  else
    let (more, cursor) ← tagText? false (cursor.rest.length + 1) cursor
    let suffix := handle.drop 1 ++ beforeZero more
    return (if suffix.isEmpty then ⟨[], ['!']⟩ else ⟨['!'], suffix⟩, cursor)

/-- A tag; a gap must follow, or a comma between brackets. -/
def tag? (flow : Bool) (cursor : Cursor) : Option (Tag × Cursor) := do
  let (tag, cursor) ← if cursor.next.sees '<' then verbatimTag? cursor.next else shortTag? cursor
  guard ((flow && cursor.sees ',') || cursor.endsWord)
  return (tag, cursor)

/-- What is set up for a document. -/
inductive Directive where
  | version (major minor : Nat)
  /-- A handle stands for the beginning of a tag. -/
  | handle (handle beginning : List Char)
  deriving DecidableEq, Repr, Inhabited

/-- A part of a version, of nine digits at most. -/
def versionPart? (cursor : Cursor) : Option (Nat × Cursor) := do
  let digits := cursor.run Char.isDigit
  guard (digits.length ≤ 9)
  return (← Text.natural? 10 digits, cursor.skip digits.length)

/-- The version after the name of its directive. -/
def version? (cursor : Cursor) : Option (Directive × Cursor) := do
  let (major, cursor) ← versionPart? cursor
  guard (cursor.sees '.')
  let (minor, cursor) ← versionPart? cursor.next
  return (.version major minor, cursor)

/-- The handle and what it stands for, after the name of the directive. -/
def handleMeaning? (cursor : Cursor) : Option (Directive × Cursor) := do
  let (handle, cursor) ← handle? cursor
  guard (handle.length = 1 || handle.getLast? = some '!')
  guard (cursor.rest.head?.any isBlank)
  let (beginning, cursor) ← someTagText? true (cursor.skipRun isBlank)
  guard cursor.endsWord
  return (.handle handle beginning, cursor)

/-- A directive, which has a line of its own, after its percent sign. -/
def directive? (cursor : Cursor) : Option (Directive × Cursor) := do
  let name := String.ofList (cursor.run isNameCharacter)
  let after := cursor.skipRun isNameCharacter
  guard after.endsWord
  let start := after.skipRun isBlank
  let (directive, cursor) ← if name = "YAML" then version? start
    else if name = "TAG" then handleMeaning? start else none
  return (directive, ← cursor.lineRest?)

end Yaml
end LineageLoad
