/-!
Places in YAML text. A cursor knows what follows it and where it stands: its line, its column, and
how many characters lie before it.
-/

namespace LineageLoad
namespace Yaml

/-- Whether a character is a blank within a line. -/
def isBlank (c : Char) : Bool := c = ' ' || c = '\t'

def isBreak (c : Char) : Bool :=
  c = '\n' || c = '\r' || c.toNat = 0x85 || c.toNat = 0x2028 || c.toNat = 0x2029

/-- Whether a character is a blank or ends a line. -/
def isSpace (c : Char) : Bool := isBlank c || isBreak c

/-- Whether a character may stand in a name. -/
def isNameCharacter (c : Char) : Bool := c.isAlphanum || c = '_' || c = '-'

def isFlowIndicator (c : Char) : Bool := ",[]\x7b\x7d".toList.contains c

/-- Whether a character has a meaning of its own where a node begins. -/
def isIndicator (c : Char) : Bool := "-?:,[]\x7b\x7d#&*!|>'\"%@`".toList.contains c

/-- Whether a character may stand in a text at all. -/
def isAllowed (c : Char) : Bool :=
  let code := c.toNat
  c = '\t' || c = '\n' || c = '\r' || (0x20 ≤ code && code ≤ 0x7e) || code = 0x85
    || (0xa0 ≤ code && code ≠ 0xfffe && code ≠ 0xffff)

/-- Whether a text begins with a character of a kind, or ends here. -/
def startsOrEnds (isKind : Char → Bool) : List Char → Bool
  | [] => true
  | c :: _ => isKind c

/-- Whether a text begins with a mark and a gap after it. -/
def startsMark (mark : List Char) (text : List Char) : Bool :=
  mark.isPrefixOf text && startsOrEnds isSpace (text.drop mark.length)

/-- What a line end is in a value: a line feed, unless it is a separator of its own kind. -/
def lineEnd (c : Char) : Char := if c.toNat = 0x2028 || c.toNat = 0x2029 then c else '\n'

/-- The line ends in a text. A carriage return and a line feed together are one. -/
def lineEnds : List Char → List Char
  | [] => []
  | '\r' :: '\n' :: rest => '\n' :: lineEnds rest
  | c :: rest => if isBreak c then lineEnd c :: lineEnds rest else lineEnds rest

/-- What a gap within a value stands for: blanks for themselves, a single line feed for a blank, and
of several line ends the first one is left out if it is a line feed.
-/
def folded (gap : List Char) : List Char :=
  match lineEnds gap with
  | [] => gap
  | ['\n'] => [' ']
  | '\n' :: more => more
  | ends => ends

/-- A place in a text. -/
structure Cursor where
  rest : List Char
  index : Nat := 0
  line : Nat := 0
  column : Nat := 0
  deriving DecidableEq, Repr, Inhabited

namespace Cursor

/-- The place after the next character. A line ends with the last character of its line end. -/
def next (cursor : Cursor) : Cursor :=
  match cursor.rest with
  | [] => cursor
  | c :: rest =>
    if isBreak c && !(c = '\r' && rest.head? = some '\n')
    then ⟨rest, cursor.index + 1, cursor.line + 1, 0⟩
    else ⟨rest, cursor.index + 1, cursor.line, cursor.column + 1⟩

/-- The place after a number of characters. -/
def skip : Nat → Cursor → Cursor
  | 0, cursor => cursor
  | count + 1, cursor => skip count cursor.next

/-- The characters of a kind from here on. -/
def run (isKind : Char → Bool) (cursor : Cursor) : List Char := cursor.rest.takeWhile isKind

/-- The place after the characters of a kind. -/
def skipRun (isKind : Char → Bool) (cursor : Cursor) : Cursor :=
  cursor.skip (cursor.run isKind).length

/-- The place after a line end, if there is one here. -/
def skipBreak (cursor : Cursor) : Cursor :=
  match cursor.rest with
  | '\r' :: '\n' :: _ => cursor.skip 2
  | c :: _ => if isBreak c then cursor.next else cursor
  | [] => cursor

/-- Whether the next character is a certain one. -/
def sees (cursor : Cursor) (c : Char) : Bool := cursor.rest.head? = some c

/-- Whether a line end follows, or the text ends. -/
def endsLine (cursor : Cursor) : Bool := startsOrEnds isBreak cursor.rest

/-- Whether a blank or a line end follows, or the text ends. -/
def endsWord (cursor : Cursor) : Bool := startsOrEnds isSpace cursor.rest

def startsDocument (cursor : Cursor) : Bool :=
  cursor.column = 0 && startsMark "---".toList cursor.rest

def endsDocument (cursor : Cursor) : Bool :=
  cursor.column = 0 && startsMark "...".toList cursor.rest

def atMark (cursor : Cursor) : Bool := cursor.startsDocument || cursor.endsDocument

/-- The place at the end of the line, after blanks and a comment; nothing else may stand there. -/
def lineRest? (cursor : Cursor) : Option Cursor :=
  let cursor := cursor.skipRun isBlank
  let cursor := if cursor.sees '#' then cursor.skipRun (!isBreak ·) else cursor
  if cursor.endsLine then some cursor.skipBreak else none

end Cursor
end Yaml
end LineageLoad
