import LineageLoad.Text.Natural
import LineageLoad.Yaml.Cursor

/-!
The texts of YAML scalars: plain ones, quoted ones, and blocks of lines. Each function hands on the
place after the scalar.
-/

namespace LineageLoad
namespace Yaml

/-- The characters of a plain scalar up to the next gap, or up to where it ends: at a colon before a
gap, or between brackets (flow) at a delimiter, before which there must be no colon.
-/
def plainRun? (flow : Bool) : List Char → Option (List Char)
  | [] => some []
  | c :: rest =>
    if isSpace c then some []
    else if flow && c = ':' && rest.head?.any (fun d => d = '?' || isFlowIndicator d) then none
    else if c = ':' && startsOrEnds isSpace rest then some []
    else if flow && isFlowIndicator c then some []
    else (plainRun? flow rest).map (c :: ·)

/-- Whether a gap has a tab before a column of a line that begins in the gap; (column) is where the
gap has come to in such a line.
-/
def hasTabBefore (indent : Int) (column : Option Nat) : List Char → Bool
  | [] => false
  | c :: rest =>
    if isBreak c then hasTabBefore indent (some 0) rest
    else (c = '\t' && column.any (· < indent)) || hasTabBefore indent (column.map (· + 1)) rest

/-- A plain scalar. -/
structure Plain where
  text : List Char
  /-- Whether the gap after it, which is taken too, has a line end. -/
  endsLine : Bool
  cursor : Cursor

/-- Reads a plain scalar; its further lines stand at the column (indent) at least, unless it stands
between brackets.
-/
def plain? (flow : Bool) (indent : Int) (budget : Nat) (cursor : Cursor) : Option Plain :=
  match budget with
  | 0 => none
  | budget + 1 => do
    let run ← plainRun? flow cursor.rest
    let after := cursor.skip run.length
    let gap := after.run isSpace
    guard (!hasTabBefore indent none gap)
    let next := after.skip gap.length
    let endsLine := gap.any isBreak
    let ended := gap.isEmpty || (!flow && next.column < indent) || next.atMark || next.sees '#'
    if ended then return ⟨run, endsLine, next⟩
    else
      let more ← plain? flow indent budget next
      if more.text.isEmpty then return ⟨run, endsLine, more.cursor⟩
      else return { more with text := run ++ folded gap ++ more.text }

/-- The character that a letter after a backslash stands for. -/
def escaped? : Char → Option Char
  | '0' => some '\x00'
  | 'a' => some '\x07'
  | 'b' => some '\x08'
  | 't' => some '\t'
  | '\t' => some '\t'
  | 'n' => some '\n'
  | 'v' => some '\x0b'
  | 'f' => some '\x0c'
  | 'r' => some '\r'
  | 'e' => some '\x1b'
  | ' ' => some ' '
  | '"' => some '"'
  | '/' => some '/'
  | '\\' => some '\\'
  | 'N' => some (Char.ofNat 0x85)
  | '_' => some (Char.ofNat 0xa0)
  | 'L' => some (Char.ofNat 0x2028)
  | 'P' => some (Char.ofNat 0x2029)
  | _ => none

/-- The number of hexadecimal digits after a letter that announces them. -/
def codeLength? : Char → Option Nat
  | 'x' => some 2
  | 'u' => some 4
  | 'U' => some 8
  | _ => none

/-- What an escape stands for, and the place after it. An escaped line end joins two lines, and only
the line ends after it remain.
-/
def escape? (cursor : Cursor) : Option (List Char × Cursor) :=
  match cursor.rest with
  | [] => none
  | letter :: rest =>
    if isBreak letter then
      let next := cursor.skipBreak
      let gap := next.run isSpace
      some (lineEnds gap, next.skip gap.length)
    else match codeLength? letter with
      | some length => do
        let digits := rest.take length
        guard (digits.length = length)
        return ([← Text.codePoint? digits], cursor.skip (length + 1))
      | none => (escaped? letter).map fun c => ([c], cursor.next)

/-- The text after an opening quote, double or single, up to the closing one. -/
def quoted? (double : Bool) (budget : Nat) (cursor : Cursor) : Option (List Char × Cursor) :=
  match budget with
  | 0 => none
  | budget + 1 =>
    let before (found : List Char) (cursor : Cursor) : Option (List Char × Cursor) :=
      (quoted? double budget cursor).map fun (tail, cursor) => (found ++ tail, cursor)
    if cursor.atMark then none
    else match cursor.rest with
      | [] => none
      | c :: rest =>
        if isSpace c then
          let gap := cursor.run isSpace
          before (folded gap) (cursor.skip gap.length)
        else if double then
          if c = '"' then some ([], cursor.next)
          else if c = '\\' then
            (escape? cursor.next).bind fun (found, cursor) => before found cursor
          else before [c] cursor.next
        else if c = '\'' then
          if rest.head? = some '\'' then before ['\''] (cursor.skip 2)
          else some ([], cursor.next)
        else before [c] cursor.next

/-- What becomes of the line ends after the last line. -/
inductive Chomping where
  | strip
  | clip
  | keep
  deriving DecidableEq, Repr, Inhabited

def chomping? (cursor : Cursor) : Option Chomping :=
  if cursor.sees '+' then some .keep else if cursor.sees '-' then some .strip else none

/-- The indentation that a digit asks for, more than the node around the block has; it is missing
where no digit stands.
-/
def increment? (cursor : Cursor) : Option (Option Nat × Cursor) :=
  match cursor.rest with
  | c :: _ =>
    if c = '0' then none
    else if c.isDigit then some (some (c.toNat - '0'.toNat), cursor.next)
    else some (none, cursor)
  | [] => some (none, cursor)

/-- What follows the mark of a block: a sign and a digit in either order, and the rest of the line.
-/
def blockHeader? (cursor : Cursor) : Option (Chomping × Option Nat × Cursor) :=
  match chomping? cursor with
  | some chomping => do
    let (increment, cursor) ← increment? cursor.next
    return (chomping, increment, ← cursor.lineRest?)
  | none => do
    let (increment, cursor) ← increment? cursor
    match increment, chomping? cursor with
    | some _, some chomping => return (chomping, increment, ← cursor.next.lineRest?)
    | _, _ => return (.clip, increment, ← cursor.lineRest?)

/-- The line ends and the indentation in front of a line of a block. -/
structure Margin where
  ends : List Char
  /-- The greatest column that an indentation reaches. -/
  greatest : Nat
  cursor : Cursor

/-- Moves over empty lines and the indentation after them, which is limited if the columns of the
block are known. There must be no tab in it.
-/
def margin? (indent : Option Nat) (budget : Nat) (cursor : Cursor) : Option Margin :=
  match budget with
  | 0 => none
  | budget + 1 => do
    let blanks := (cursor.run (· = ' ')).length
    let cursor := cursor.skip (indent.elim blanks fun indent => min blanks (indent - cursor.column))
    guard (!(cursor.sees '\t' && indent.all (cursor.column < ·)))
    match cursor.rest with
    | [] => return ⟨[], cursor.column, cursor⟩
    | c :: _ =>
      if isBreak c then
        let more ← margin? indent budget cursor.skipBreak
        return { more with
          ends := lineEnd c :: more.ends
          greatest := max cursor.column more.greatest }
      else return ⟨[], cursor.column, cursor⟩

/-- What has been read of a block when it ends: its text without the line ends that follow it. -/
structure Block where
  text : List Char
  lastEnd : List Char
  emptyEnds : List Char
  cursor : Cursor

/-- Reads the lines of a block at a column. A folded block joins two lines that do not begin with a
blank; (lastEnd) is the end of the line before, (emptyEnds) are those of empty lines after it, and
(blank) tells whether it began with a blank.
-/
def blockLines? (literal : Bool) (indent budget : Nat) (lastEnd emptyEnds : List Char)
    (blank : Bool) (cursor : Cursor) : Option Block :=
  match budget, cursor.rest with
  | 0, _ => none
  | _ + 1, [] => some ⟨[], lastEnd, emptyEnds, cursor⟩
  | budget + 1, c :: _ =>
    if cursor.column ≠ indent then some ⟨[], lastEnd, emptyEnds, cursor⟩
    else do
      let joins := !literal && lastEnd = ['\n'] && !blank && !isBlank c
      let front := if joins then (if emptyEnds.isEmpty then [' '] else []) else lastEnd
      let line := cursor.run (!isBreak ·)
      let stop := cursor.skip line.length
      let margin ← margin? (some indent) (stop.rest.length + 1) stop.skipBreak
      let more ← blockLines? literal indent budget (lineEnds (stop.rest.take 1)) margin.ends
        (isBlank c) margin.cursor
      return { more with text := front ++ emptyEnds ++ line ++ more.text }

/-- Reads a block after its mark, within a node at the column (parent). Without a digit the
indentation is that of the first lines.
-/
def block? (literal : Bool) (parent : Int) (cursor : Cursor) : Option (List Char × Cursor) := do
  let (chomping, increment, cursor) ← blockHeader? cursor
  let known := increment.map fun increment => (max parent 0).toNat + increment
  let budget := cursor.rest.length + 1
  let margin ← margin? known budget cursor
  let indent := known.getD (max margin.greatest (max (parent + 1).toNat 1))
  let block ← blockLines? literal indent budget [] margin.ends false margin.cursor
  let tail := match chomping with
    | .strip => []
    | .clip => block.lastEnd
    | .keep => block.lastEnd ++ block.emptyEnds
  return (block.text ++ tail, block.cursor)

end Yaml
end LineageLoad
