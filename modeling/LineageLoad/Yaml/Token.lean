import LineageLoad.Yaml.Scalar
import LineageLoad.Yaml.Tag

/-!
The tokens of YAML text. Indentation shows in tokens at the beginning and the end of blocks. What
stands before a colon is known to be a key only when the colon comes, so the token that announces
the key is put in front of it afterwards.
-/

namespace LineageLoad
namespace Yaml

/-- A token. -/
inductive Token where
  | directive (directive : Directive)
  | documentStart
  | documentEnd
  | blockSequence
  | blockMapping
  | blockEnd
  | flowSequence
  | flowSequenceEnd
  | flowMapping
  | flowMappingEnd
  /-- A hyphen in front of an item. -/
  | blockEntry
  /-- A comma. -/
  | flowEntry
  | key
  | value
  | alias (name : String)
  | anchor (name : String)
  | tag (tag : Tag)
  | scalar (text : String) (isPlain : Bool)
  deriving DecidableEq, Repr, Inhabited

/-- A place where a key may have begun. -/
structure PendingKey where
  cursor : Cursor
  /-- How many tokens come before it. -/
  position : Nat
  /-- Whether it must turn out to be a key, as nothing else can stand there. -/
  required : Bool
  deriving Repr, Inhabited

/-- How far a text has been read. -/
structure Reading where
  cursor : Cursor
  /-- The tokens so far, the last one first. -/
  tokens : List Token := []
  /-- The column of the innermost block, and of those around it; outside of all it is -1. -/
  indent : Int := -1
  outerIndents : List Int := []
  /-- The key that may have begun, and those outside of the open brackets. -/
  pending : Option PendingKey := none
  outerPending : List (Option PendingKey) := []
  /-- Whether a key may begin here. -/
  allowsKey : Bool := true
  deriving Inhabited

namespace Reading

def inFlow (reading : Reading) : Bool := !reading.outerPending.isEmpty

def push (token : Token) (reading : Reading) : Reading :=
  { reading with tokens := token :: reading.tokens }

/-- Puts a token behind a number of others. -/
def insertAt (position : Nat) (token : Token) (reading : Reading) : Reading :=
  let later := reading.tokens.length - position
  { reading with tokens := reading.tokens.take later ++ token :: reading.tokens.drop later }

def moveTo (cursor : Cursor) (reading : Reading) : Reading := { reading with cursor }

def allow (allowsKey : Bool) (reading : Reading) : Reading := { reading with allowsKey }

/-- Adds a token of a number of characters. -/
def take (count : Nat) (token : Token) (reading : Reading) : Reading :=
  (reading.push token).moveTo (reading.cursor.skip count)

/-- Gives up the key that may have begun. -/
def dropKey? (reading : Reading) : Option Reading :=
  if reading.pending.any (·.required) then none else some { reading with pending := none }

def saveKey? (reading : Reading) : Option Reading :=
  if reading.allowsKey then do
    let required := !reading.inFlow && reading.indent = reading.cursor.column
    let reading ← reading.dropKey?
    return { reading with
      pending := some ⟨reading.cursor, reading.tokens.length, required⟩ }
  else some reading

/-- How many characters a key may have at most before its colon. -/
def keyLimit : Nat := 1024

/-- Whether a key that may have begun can no longer have its colon at a place: it must stand on the
same line and not too far away.
-/
def isStale (cursor : Cursor) (key : PendingKey) : Bool :=
  key.cursor.line < cursor.line || key.cursor.index + keyLimit < cursor.index

/-- Gives up all keys that can no longer have a colon. -/
def dropStale? (reading : Reading) : Option Reading :=
  let stale (pending : Option PendingKey) : Bool := pending.any (isStale reading.cursor)
  let isBad (pending : Option PendingKey) : Bool := stale pending && pending.any (·.required)
  let kept (pending : Option PendingKey) : Option PendingKey :=
    if stale pending then none else pending
  if isBad reading.pending || reading.outerPending.any isBad then none
  else some { reading with
    pending := kept reading.pending
    outerPending := reading.outerPending.map kept }

/-- Begins a block at a column, unless one is open there; its token goes behind a number of others.
-/
def openBlock (column position : Nat) (token : Token) (reading : Reading) : Reading :=
  if !reading.inFlow && reading.indent < column then
    { reading.insertAt position token with
      indent := column
      outerIndents := reading.indent :: reading.outerIndents }
  else reading

/-- The innermost block that begins no further to the right than a column, with those around it, and
how many blocks end before.
-/
def enclosing (column indent : Int) (outer : List Int) : Int × List Int × Nat :=
  if indent ≤ column then (indent, outer, 0)
  else match outer with
    | [] => (indent, [], 0)
    | next :: outer =>
      let (indent, outer, count) := enclosing column next outer
      (indent, outer, count + 1)

/-- Ends the blocks to the right of a column. -/
def closeBlocks (column : Int) (reading : Reading) : Reading :=
  if reading.inFlow then reading
  else
    let (indent, outerIndents, count) := enclosing column reading.indent reading.outerIndents
    { reading with
      indent
      outerIndents
      tokens := List.replicate count .blockEnd ++ reading.tokens }

/-- Moves over blanks, comments and line ends, and over a byte order mark in front of a line, which
takes a column. After a line end outside of brackets a key may begin; where one may, a tab is no
blank.
-/
def skipGap (budget : Nat) (reading : Reading) : Reading :=
  match budget with
  | 0 => reading
  | budget + 1 =>
    let cursor := reading.cursor
    let cursor := if cursor.column = 0 && cursor.sees '\ufeff' then cursor.next else cursor
    let tabs := reading.inFlow || !reading.allowsKey
    let cursor := cursor.skipRun fun c => c = ' ' || (c = '\t' && tabs)
    let cursor := if cursor.sees '#' then cursor.skipRun (!isBreak ·) else cursor
    if cursor.rest.head?.any isBreak then
      skipGap budget { reading with
        cursor := cursor.skipBreak
        allowsKey := reading.allowsKey || !reading.inFlow }
    else reading.moveTo cursor

/-- Takes a token at which all blocks end. -/
def atMargin? (reading : Reading) : Option Reading :=
  ((reading.closeBlocks (-1)).dropKey?).map (·.allow false)

def openFlow? (token : Token) (reading : Reading) : Option Reading := do
  let reading ← reading.saveKey?
  return { (reading.take 1 token).allow true with
    pending := none
    outerPending := reading.pending :: reading.outerPending }

def closeFlow? (token : Token) (reading : Reading) : Option Reading := do
  let reading ← reading.dropKey?
  let reading := (reading.take 1 token).allow false
  match reading.outerPending with
  | [] => return reading
  | pending :: outerPending => return { reading with pending, outerPending }

/-- Takes a hyphen or a question mark. In a block it needs a place where a key may begin, and the
block (opening) may begin with it.
-/
def entry? (opening token : Token) (allowsKey : Bool) (reading : Reading) : Option Reading := do
  guard (reading.inFlow || reading.allowsKey)
  let reading := reading.openBlock reading.cursor.column reading.tokens.length opening
  return ((← reading.dropKey?).take 1 token).allow allowsKey

/-- Takes a colon: what may have been a key is one, or else the key is missing. -/
def value? (reading : Reading) : Option Reading :=
  match reading.pending with
  | some key =>
    let reading := reading.insertAt key.position .key
    let reading := reading.openBlock key.cursor.column key.position .blockMapping
    some ({ reading.take 1 .value with pending := none }.allow false)
  | none => do
    guard (reading.inFlow || reading.allowsKey)
    let reading := reading.openBlock reading.cursor.column reading.tokens.length .blockMapping
    return (reading.take 1 .value).allow !reading.inFlow

/-- Takes a token that a key may begin with and that has a text of its own. -/
def keyed? (read : Cursor → Option (Token × Cursor)) (reading : Reading) : Option Reading := do
  let reading ← reading.saveKey?
  let (token, cursor) ← read reading.cursor
  return ((reading.push token).moveTo cursor).allow false

def quoted? (double : Bool) (reading : Reading) : Option Reading :=
  reading.keyed? fun cursor =>
    (Yaml.quoted? double (cursor.rest.length + 1) cursor.next).map fun (text, cursor) =>
      (.scalar (String.ofList text) false, cursor)

/-- Takes a plain scalar. After its last line a key may begin. -/
def plain? (reading : Reading) : Option Reading := do
  let reading ← reading.saveKey?
  let budget := reading.cursor.rest.length + 1
  let plain ← Yaml.plain? reading.inFlow (reading.indent + 1) budget reading.cursor
  let token : Token := .scalar (String.ofList plain.text) true
  return ((reading.push token).moveTo plain.cursor).allow plain.endsLine

def block? (literal : Bool) (reading : Reading) : Option Reading := do
  let reading ← reading.dropKey?
  let (text, cursor) ← Yaml.block? literal reading.indent reading.cursor.next
  return ((reading.push (.scalar (String.ofList text) false)).moveTo cursor).allow true

/-- Whether a plain scalar begins with a character and what follows it. -/
def startsPlain (reading : Reading) (c : Char) (rest : List Char) : Bool :=
  if c = '-' then !rest.head?.any isBlank
  else if c = '?' || c = ':' then !reading.inFlow && !startsOrEnds isSpace rest
  else !isIndicator c && !isSpace c

/-- Takes the token that begins with a character and what follows it. -/
def token? (reading : Reading) (c : Char) (rest : List Char) : Option Reading :=
  let cursor := reading.cursor
  let flow := reading.inFlow
  let ends := startsOrEnds isSpace rest
  if cursor.column = 0 && c = '%' then do
    let reading ← reading.atMargin?
    let (directive, cursor) ← directive? cursor.next
    return (reading.push (.directive directive)).moveTo cursor
  else if cursor.startsDocument then reading.atMargin?.map (·.take 3 .documentStart)
  else if cursor.endsDocument then reading.atMargin?.map (·.take 3 .documentEnd)
  else if c = '[' then reading.openFlow? .flowSequence
  else if c = '\x7b' then reading.openFlow? .flowMapping
  else if c = ']' then reading.closeFlow? .flowSequenceEnd
  else if c = '\x7d' then reading.closeFlow? .flowMappingEnd
  else if c = ',' then reading.dropKey?.map fun reading => (reading.take 1 .flowEntry).allow true
  else if c = '-' && ends then reading.entry? .blockSequence .blockEntry true
  else if c = '?' && (flow || ends) then reading.entry? .blockMapping .key !flow
  else if c = ':' && (flow || ends) then reading.value?
  else if c = '*' then reading.keyed? fun cursor =>
    (nodeName? cursor.next).map fun (name, cursor) => (.alias name, cursor)
  else if c = '&' then reading.keyed? fun cursor =>
    (nodeName? cursor.next).map fun (name, cursor) => (.anchor name, cursor)
  else if c = '!' then reading.keyed? fun cursor =>
    (tag? flow cursor).map fun (tag, cursor) => (.tag tag, cursor)
  else if c = '|' && !flow then reading.block? true
  else if c = '>' && !flow then reading.block? false
  else if c = '\'' then reading.quoted? false
  else if c = '"' then reading.quoted? true
  else if reading.startsPlain c rest then reading.plain?
  else none

/-- Takes the tokens that are left. Each step takes a character at least. -/
def tokens? (budget : Nat) (reading : Reading) : Option (List Token) :=
  match budget with
  | 0 => none
  | budget + 1 => do
    let reading ← (reading.skipGap (reading.cursor.rest.length + 1)).dropStale?
    let reading := reading.closeBlocks reading.cursor.column
    match reading.cursor.rest with
    | [] => return (← reading.atMargin?).tokens.reverse
    | c :: rest => (← reading.token? c rest).tokens? budget

end Reading

def Token.ofText? (text : List Char) : Option (List Token) :=
  ({ cursor := ⟨text, 0, 0, 0⟩ } : Reading).tokens? (text.length + 1)

end Yaml
end LineageLoad
