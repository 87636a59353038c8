import LineageLoad.Log.Nesting
import LineageLoad.Text.Alphanumeric
import LineageLoad.Text.Natural
import LineageLoad.Text.Whitespace

/-!
Regular expressions that texts can be compared with: which of them are well formed. There are groups
with names and flags, classes with ranges and set operations, and repetitions without counts.
Looking around and references back are refused, and so is all that needs tables of Unicode: kinds of
characters, bounds of words, and comparison without regard to case. Patterns over bytes must not
match a byte beyond ASCII. Parts may only stand so deeply inside each other.
-/

namespace LineageLoad
namespace Pattern

-----------------------------------------------------------------------------------------
-- Flags
-----------------------------------------------------------------------------------------

/-- The flags that decide what a pattern may hold. -/
structure Flags where
  /-- White space and comments stand for nothing. -/
  spacing : Bool := false
  /-- Characters are those of Unicode, and not bytes. -/
  unicode : Bool := true
  /-- Upper and lower case count as the same. -/
  caseless : Bool := false
  deriving DecidableEq, Repr, Inhabited

/-- Whether characters may stand in a pattern; without regard to case only bytes may. -/
def Flags.allowsLiterals (flags : Flags) : Bool := !(flags.caseless && flags.unicode)

/-- The letters of all flags, and the mark in front of those that are taken away. -/
def flagLetters : List Char := "imsUuxR-".toList

/-- Whether letters stand for flags: each of them once, and some after the mark. -/
def areFlags (letters : List Char) : Bool :=
  letters.all (flagLetters.contains ·) && decide letters.Nodup && letters.getLast? ≠ some '-'

/-- A flag after letters are applied to it. -/
def applied (letters : List Char) (flag : Char) (before : Bool) : Bool :=
  if letters.contains flag then (letters.takeWhile (· ≠ '-')).contains flag else before

/-- The flags after letters are applied to them. -/
def Flags.apply (flags : Flags) (letters : List Char) : Flags :=
  ⟨applied letters 'x' flags.spacing, applied letters 'u' flags.unicode,
    applied letters 'i' flags.caseless⟩

/-- The text after white space and comments, each up to the end of its line; (comment) tells whether
the text begins within one.
-/
def afterSpacing (comment : Bool) : List Char → List Char
  | [] => []
  | c :: rest =>
    if comment then afterSpacing (c ≠ '\n') rest
    else if Text.isWhitespace c then afterSpacing false rest
    else if c = '#' then afterSpacing true rest
    else c :: rest

/-- The text after what stands for nothing. -/
def Flags.skip (flags : Flags) (text : List Char) : List Char :=
  if flags.spacing then afterSpacing false text else text

/-- The character after a hyphen that white space may follow. A comment mark is passed over once. -/
def Flags.afterHyphen? (flags : Flags) (text : List Char) : Option Char :=
  if flags.spacing then
    match text.dropWhile Text.isWhitespace with
    | '#' :: rest => (rest.dropWhile Text.isWhitespace).head?
    | rest => rest.head?
  else text.head?

-----------------------------------------------------------------------------------------
-- Single characters
-----------------------------------------------------------------------------------------

/-- What a single character or an escape stands for. -/
inductive Item where
  | literal (c : Char)
  /-- Any character of a kind. -/
  | anyOf
  /-- A place between characters. -/
  | place
  deriving DecidableEq, Repr, Inhabited

def Item.literal? : Item → Option Char
  | .literal c => some c
  | _ => none

/-- A number of hexadecimal digits at the front of a text, in the order of their places. -/
def digits? (flags : Flags) (count : Nat) (text : List Char) : Option (List Char × List Char) :=
  match count, flags.skip text with
  | 0, rest => some ([], rest)
  | _ + 1, [] => none
  | count + 1, c :: rest => (digits? flags count rest).map fun (found, rest) => (c :: found, rest)

/-- The character with a code of some digits. In patterns over bytes a code of two digits must not
stand for a byte beyond ASCII.
-/
def coded? (flags : Flags) (count : Nat) (text : List Char) : Option (Item × List Char) := do
  let (digits, rest) ← digits? flags count text
  let c ← Text.codePoint? digits
  guard (flags.unicode || count ≠ 2 || c.toNat < 0x80)
  return (.literal c, rest)

def escape? (flags : Flags) : List Char → Option (Item × List Char)
  | [] => none
  | c :: rest =>
    if c = 'x' then coded? flags 2 rest
    else if c = 'u' then coded? flags 4 rest
    else if c = 'U' then coded? flags 8 rest
    else if "dsw".toList.contains c then if flags.unicode then none else some (.anyOf, rest)
    else if "Az".toList.contains c then some (.place, rest)
    else if "bB<>".toList.contains c then if flags.unicode then none else some (.place, rest)
    else match "aftnrv".toList.zip ['\x07', '\x0c', '\t', '\n', '\r', '\x0b'] |>.lookup c with
      | some control => some (.literal control, rest)
      | none => if c.toNat < 0x80 && !c.isAlphanum then some (.literal c, rest) else none

-----------------------------------------------------------------------------------------
-- Classes
-----------------------------------------------------------------------------------------

/-- The members of a class and a further one that is a character or a kind of them. -/
def Flags.pushMember? (flags : Flags) (members : Members) : Option Members :=
  if flags.allowsLiterals then some (members.push 0) else none

/-- Hyphens at the front of a class, which are members, and the text after them. -/
def leadingHyphens? (flags : Flags) (budget : Nat) (members : Members) (text : List Char)
    : Option (Members × List Char) :=
  match budget, text with
  | budget + 1, '-' :: rest => do
    leadingHyphens? flags budget (← flags.pushMember? members) (flags.skip rest)
  | _, text => some (members, text)

/-- The members at the beginning of a class, and the text after them: perhaps a mark that negates
the class, hyphens, or a bracket that does not close it. Over bytes no class is negated.
-/
def openClass? (flags : Flags) (text : List Char) : Option (Members × List Char) := do
  let text ← match flags.skip text with
    | '^' :: rest => if flags.unicode then some (flags.skip rest) else none
    | text => some text
  match text with
  | ']' :: rest => return (← flags.pushMember? {}, flags.skip rest)
  | text => leadingHyphens? flags text.length {} text

/-- The names of kinds of characters in ASCII. -/
def kindNames : List String :=
  ["alnum", "alpha", "ascii", "blank", "cntrl", "digit", "graph", "lower", "print", "punct",
    "space", "upper", "word", "xdigit"]

/-- The name of a kind between colons after a bracket, and the text after the bracket that follows.
The result tells whether a mark negates the kind.
-/
def kind? : List Char → Option (Bool × List Char)
  | ':' :: rest =>
    let negated := rest.head? = some '^'
    let name := if negated then rest.tail else rest
    match name.dropWhile (· ≠ ':') with
    | ':' :: ']' :: rest =>
      if kindNames.contains (String.ofList (name.takeWhile (· ≠ ':'))) then some (negated, rest)
      else none
    | _ => none
  | _ => none

/-- A single character or an escape in a class. -/
def classItem? (flags : Flags) : List Char → Option (Item × List Char)
  | [] => none
  | '\\' :: rest => escape? flags rest
  | c :: rest => some (.literal c, rest)

/-- Whether an item may stand in a class. Over bytes it must be in ASCII. -/
def Item.isMember (flags : Flags) : Item → Bool
  | .literal c => flags.unicode || c.toNat < 0x80
  | .anyOf => true
  | .place => false

/-- An item of a class or a range, and the text after it. -/
def classRange? (flags : Flags) (text : List Char) : Option (List Char) := do
  let (first, rest) ← classItem? flags text
  guard (first.isMember flags)
  match flags.skip rest with
  | '-' :: after =>
    let next := flags.afterHyphen? after
    if next = some ']' || next = some '-' then some ('-' :: after)
    else
      let (last, rest) ← classItem? flags (flags.skip after)
      guard (last.isMember flags)
      match first, last with
      | .literal low, .literal high => if low ≤ high then some rest else none
      | _, _ => none
  | rest => some rest

/-- The depth of a class with some members, within open ones (outer), and the text after the bracket
that closes the outermost one.
-/
def class? (flags : Flags) (budget : Nat) (members : Members) (outer : List Members)
    (text : List Char) : Option (Nat × List Char) :=
  match budget with
  | 0 => none
  | budget + 1 =>
    match flags.skip text with
    | [] => none
    | '[' :: rest =>
      match kind? rest with
      | some (negated, rest) => do
        guard (flags.unicode || !negated)
        class? flags budget (← flags.pushMember? members) outer rest
      | none => do
        let (inner, rest) ← openClass? flags rest
        class? flags budget inner (members :: outer) rest
    | ']' :: rest =>
      let depth := members.wholeDepth + 1
      match outer with
      | [] => some (depth, rest)
      | members :: outer => class? flags budget (members.push depth) outer rest
    | '&' :: '&' :: rest => class? flags budget members.operated outer rest
    | '-' :: '-' :: rest => class? flags budget members.operated outer rest
    | '~' :: '~' :: rest => class? flags budget members.operated outer rest
    | text => do
      let rest ← classRange? flags text
      class? flags budget (← flags.pushMember? members) outer rest

-----------------------------------------------------------------------------------------
-- Groups
-----------------------------------------------------------------------------------------

/-- Whether a character may stand in the name of a group. -/
def isNameCharacter (c : Char) : Bool :=
  c = '_' || c = '.' || c = '[' || c = ']' || Text.isAlphanumeric c

/-- Whether characters are the name of a group. -/
def isName : List Char → Bool
  | [] => false
  | c :: rest => (c = '_' || Text.isAlphabetic c) && rest.all isNameCharacter

/-- How a group begins, after its parenthesis. -/
inductive Opening where
  | group
  | named (name : List Char)
  /-- A group with letters for flags. -/
  | flagged (letters : List Char)
  /-- Letters for flags that hold up to the end of the group around them. -/
  | setting (letters : List Char)
  deriving DecidableEq, Repr, Inhabited

/-- The name of a group up to its closing bracket. -/
def name? (text : List Char) : Option (Opening × List Char) :=
  let name := text.takeWhile (· ≠ '>')
  match text.dropWhile (· ≠ '>') with
  | _ :: rest => if isName name then some (.named name, rest) else none
  | [] => none

/-- How a group begins, and the text after it. -/
def opening? (flags : Flags) (text : List Char) : Option (Opening × List Char) :=
  match flags.skip text with
  | '?' :: 'P' :: '<' :: rest => name? rest
  | '?' :: '<' :: rest => name? rest
  | '?' :: rest =>
    let letters := rest.takeWhile fun c => c ≠ ':' && c ≠ ')'
    match rest.dropWhile fun c => c ≠ ':' && c ≠ ')' with
    | ':' :: rest => if areFlags letters then some (.flagged letters, rest) else none
    | _ :: rest =>
      if areFlags letters && !letters.isEmpty then some (.setting letters, rest) else none
    | [] => none
  | rest => some (.group, rest)

-----------------------------------------------------------------------------------------
-- Whole patterns
-----------------------------------------------------------------------------------------

/-- What has been read of a pattern. -/
structure State where
  flags : Flags := {}
  /-- What has been read of the innermost group. -/
  branches : Branches := {}
  /-- The flags and what has been read around the open groups, the innermost one first. -/
  outer : List (Flags × Branches) := []
  names : List (List Char) := []
  deriving Inhabited

namespace State

/-- The state after a part that can be repeated. -/
def push (state : State) (depth : Nat) : State :=
  { state with branches := state.branches.push depth }

/-- The state within a group with flags. -/
def within (state : State) (flags : Flags) : State :=
  { state with flags, branches := {}, outer := (state.flags, state.branches) :: state.outer }

/-- The state after the beginning of a group; each name belongs to one group. -/
def opened? (state : State) : Opening → Option State
  | .group => some (state.within state.flags)
  | .named name =>
    if state.names.contains name then none
    else some { state.within state.flags with names := name :: state.names }
  | .flagged letters => some (state.within (state.flags.apply letters))
  | .setting letters =>
    some { state with
      flags := state.flags.apply letters
      branches := state.branches.pushSetting }

/-- The state after the end of a group. -/
def closed? (state : State) : Option State :=
  match state.outer with
  | [] => none
  | (flags, branches) :: outer =>
    some { state with flags, branches := branches.push (state.branches.wholeDepth + 1), outer }

/-- The state when the last part is repeated. -/
def repeated? (state : State) : Option State :=
  state.branches.repeated?.map fun branches => { state with branches }

end State

/-- Reads the next part of a pattern, whose text is not empty. -/
def step? (state : State) (c : Char) (rest : List Char) : Option (State × List Char) :=
  match c with
  | '(' => do
    let (opening, rest) ← opening? state.flags rest
    return (← state.opened? opening, rest)
  | ')' => state.closed?.map (·, rest)
  | '|' => some ({ state with branches := state.branches.next }, rest)
  | '[' => do
    let (members, inner) ← openClass? state.flags rest
    let (depth, rest) ← class? state.flags (rest.length + 1) members [] inner
    return (state.push depth, rest)
  | '\\' => do
    let (item, rest) ← escape? state.flags rest
    guard (state.flags.allowsLiterals || item.literal?.isNone)
    return (state.push 0, rest)
  | '.' => if state.flags.unicode then some (state.push 0, rest) else none
  | '\x7b' => none
  | c =>
    if c = '*' || c = '+' || c = '?' then
      state.repeated?.map fun state =>
        match rest with
        | '?' :: rest => (state, rest)
        | rest => (state, rest)
    else if state.flags.allowsLiterals || c = '^' || c = '$' then some (state.push 0, rest)
    else none

/-- How deeply the parts of a pattern may stand inside each other. -/
def nestingLimit : Nat := 250

/-- Whether the rest of a pattern is well formed. -/
def isValidFrom (budget : Nat) (state : State) (text : List Char) : Bool :=
  match budget with
  | 0 => false
  | budget + 1 =>
    match state.flags.skip text with
    | [] => state.outer.isEmpty && state.branches.wholeDepth ≤ nestingLimit
    | c :: rest =>
      match step? state c rest with
      | some (state, rest) => isValidFrom budget state rest
      | none => false

/-- Whether a pattern is well formed. Each part has a character at least. -/
def isValid (text : String) : Bool := isValidFrom (text.length + 1) {} text.toList

end Pattern
end LineageLoad
