import LineageLoad.Json.Basic
import LineageLoad.Text.Natural
import LineageLoad.Text.Scientific
import LineageLoad.Yaml.Node

/-!
The values of YAML nodes. The form of a plain scalar decides what it is unless a tag does; a tag
with a meaning of its own puts the value under a name. One field of an inner mapping can stand for
all of it. A node that refers to another one has the value of that one.
-/

namespace LineageLoad
namespace Yaml

-----------------------------------------------------------------------------------------
-- Scalars
-----------------------------------------------------------------------------------------

/-- Digits in a base, which a mark after the first zero gives. -/
def marked? : List Char → Option Nat
  | '0' :: 'x' :: rest => Text.natural? 16 rest
  | '0' :: 'o' :: rest => Text.natural? 8 rest
  | '0' :: 'b' :: rest => Text.natural? 2 rest
  | _ => none

/-- Whether a text consists of digits that begin with a needless zero, after a sign. -/
def hasNeedlessZero (text : List Char) : Bool :=
  let digits := match text with
    | '-' :: rest => rest
    | rest => Text.afterPlus rest
  match digits with
  | '0' :: d :: rest => (d :: rest).all Char.isDigit
  | _ => false

/-- A magnitude that is written without a sign. -/
def magnitude? (text : List Char) : Option Nat :=
  (marked? text).or (if hasNeedlessZero text then none else Text.natural? 10 text)

/-- The integer that a scalar writes. It may have 128 bits, but one of more than 64 has no meaning.
-/
def integer? (text : String) : Option Json :=
  match text.toList with
  | '-' :: rest => (magnitude? rest).bind fun n =>
    if n = 0 then some .minusZero
    else if n ≤ 1 <<< 63 then some (.integer (-n))
    else if n ≤ 1 <<< 127 then some .unreadable
    else none
  | text => (magnitude? (Text.afterPlus text)).bind fun n =>
    if n < UInt64.size then some (.integer n)
    else if n < 1 <<< 128 then some .unreadable
    else none

/-- The names of what is no finite number. -/
def specials : List (String × Nat) :=
  [".inf", ".Inf", ".INF", "+.inf", "+.Inf", "+.INF"].map (·, 0x7ff0000000000000)
    ++ ["-.inf", "-.Inf", "-.INF"].map (·, 0xfff0000000000000)
    ++ [".nan", ".NaN", ".NAN"].map (·, 0x7ff8000000000000)

/-- The number that a scalar writes, of which an integer is one. -/
def number? (text : String) : Option Json :=
  match specials.lookup text with
  | some bits => some (.float ⟨bits.toUInt64⟩)
  | none => ((Text.decimal? text.toList).filter (!·.isSpecial)).map .float

def truth? (text : String) : Option Json :=
  if ["true", "True", "TRUE"].contains text then some (.bool true)
  else if ["false", "False", "FALSE"].contains text then some (.bool false)
  else none

/-- Null, if a scalar writes it. -/
def null? (text : String) : Option Json :=
  if ["~", "null", "Null", "NULL"].contains text then some .null else none

/-- What a plain scalar is: null, a truth value, a number, or its own text. -/
def plainValue (text : String) : Json :=
  let number := if hasNeedlessZero text.toList then none else number? text
  if text = "" then .null
  else ((((null? text).or (truth? text)).or (integer? text)).or number).getD (.string text)

/-- Whether a tag has a meaning of its own in each text. -/
def isLocal (tag : String) : Bool := tag.startsWith "!"

/-- What a scalar with a tag is: of a type that the tag names, or else its own text. -/
def taggedValue? (tag text : String) : Option Json :=
  if tag = "tag:yaml.org,2002:bool" then truth? text
  else if tag = "tag:yaml.org,2002:int" then integer? text
  else if tag = "tag:yaml.org,2002:float" then number? text
  else if tag = "tag:yaml.org,2002:null" then null? text
  else some (.string text)

/-- What a scalar is, apart from the meaning of a local tag. -/
def scalarValue? (tag : Option String) (text : String) (isPlain : Bool) : Option Json :=
  match tag.filter (!isLocal ·) with
  | some tag => taggedValue? tag text
  | none => some (if isPlain then plainValue text else .string text)

-----------------------------------------------------------------------------------------
-- Local tags
-----------------------------------------------------------------------------------------

/-- The name that a local tag gives to a value: what follows the mark, or the mark if nothing does.
The characters of a tag are bytes, which must encode a text.
-/
def localName? (tag : String) : Option String :=
  match tag.toList with
  | '!' :: rest =>
    let name := if rest.isEmpty then ['!'] else rest
    String.fromUTF8? (name.map (·.toNat.toUInt8)).toByteArray
  | _ => none

/-- The names under which a value with some properties stands: those between the points of the name
that its tag gives, up to an empty one.
-/
def Properties.path {ν : Type} (properties : Properties ν) : List String :=
  match properties.tag.bind localName? with
  | some name => (name.splitToList (· = '.')).takeWhile (· ≠ "")
  | none => []

-----------------------------------------------------------------------------------------
-- Mappings
-----------------------------------------------------------------------------------------

/-- The field whose value stands for the whole mapping. -/
def wholeField : String := "___figment_value_value"

/-- The field that numbers the value of the mapping, which makes no difference to it. -/
def numberField : String := "___figment_value_id"

/-- The value of a mapping with some fields: that of the last one for the whole mapping, or else an
object.
-/
def mappingValue (fields : List (String × Json)) : Json :=
  (fields.reverse.lookup wholeField).getD (.object fields)

-----------------------------------------------------------------------------------------
-- Names
-----------------------------------------------------------------------------------------

/-- The numbers of names that have been given so far. -/
abbrev Names := List (String × Nat)

/-- Gives a node its name. A name gets the count of different names before, and a later node may
take it over.
-/
def Properties.numbered (properties : Properties String) (names : Names)
    : Properties Nat × Names :=
  match properties.name with
  | none => (⟨none, properties.tag⟩, names)
  | some name =>
    (⟨some names.length, properties.tag⟩,
      (name, names.length) :: names.filter (·.1 ≠ name))

namespace Node

mutual

/-- The node with numbers for names, in the order in which nodes begin. Names that are referred to
must have been given before.
-/
def numbered? (names : Names) : Node String → Option (Node Nat × Names)
  | .alias name => (names.lookup name).map fun number => (.alias number, names)
  | .scalar properties text isPlain =>
    let (properties, names) := properties.numbered names
    some (.scalar properties text isPlain, names)
  | .sequence properties items => do
    let (properties, names) := properties.numbered names
    let (items, names) ← numberedItems? names items
    return (.sequence properties items, names)
  | .mapping properties fields => do
    let (properties, names) := properties.numbered names
    let (fields, names) ← numberedFields? names fields
    return (.mapping properties fields, names)

def numberedItems? (names : Names) : List (Node String) → Option (List (Node Nat) × Names)
  | [] => some ([], names)
  | item :: rest => do
    let (item, names) ← numbered? names item
    let (rest, names) ← numberedItems? names rest
    return (item :: rest, names)

def numberedFields? (names : Names)
    : List (Node String × Node String) → Option (List (Node Nat × Node Nat) × Names)
  | [] => some ([], names)
  | (key, value) :: rest => do
    let (key, names) ← numbered? names key
    let (value, names) ← numbered? names value
    let (rest, names) ← numberedFields? names rest
    return ((key, value) :: rest, names)

end

mutual

/-- The nodes with names, those that begin last first; (later) are those after the node. -/
def named (later : List (Nat × Node Nat)) : Node Nat → List (Nat × Node Nat)
  | .alias _ => later
  | .scalar properties text isPlain =>
    later ++ properties.name.toList.map (·, .scalar properties text isPlain)
  | .sequence properties items =>
    namedItems later items ++ properties.name.toList.map (·, .sequence properties items)
  | .mapping properties fields =>
    namedFields later fields ++ properties.name.toList.map (·, .mapping properties fields)

def namedItems (later : List (Nat × Node Nat)) : List (Node Nat) → List (Nat × Node Nat)
  | [] => later
  | item :: rest => named (namedItems later rest) item

def namedFields (later : List (Nat × Node Nat))
    : List (Node Nat × Node Nat) → List (Nat × Node Nat)
  | [] => later
  | (key, value) :: rest => named (named (namedFields later rest) value) key

end

mutual

/-- How large a node is: a collection counts twice, where it begins and where it ends. -/
def size {ν : Type} : Node ν → Nat
  | .alias _ => 1
  | .scalar .. => 1
  | .sequence _ items => sizeOfItems items + 2
  | .mapping _ fields => sizeOfFields fields + 2

def sizeOfItems {ν : Type} : List (Node ν) → Nat
  | [] => 0
  | item :: rest => size item + sizeOfItems rest

def sizeOfFields {ν : Type} : List (Node ν × Node ν) → Nat
  | [] => 0
  | (key, value) :: rest => size key + size value + sizeOfFields rest

end

end Node

-----------------------------------------------------------------------------------------
-- Values
-----------------------------------------------------------------------------------------

/-- What values of a document are made with. -/
structure Document where
  /-- The nodes that others refer to. -/
  named : List (Nat × Node Nat)
  /-- How often a node may be found by its name. -/
  limit : Nat

namespace Document

/-- The node that another one stands for; the state counts how often one was found by its name. -/
def target (document : Document) : Node Nat → StateT Nat Option (Node Nat)
  | .alias name => do
    let found := (← get) + 1
    guard (found ≤ document.limit)
    set found
    document.named.lookup name
  | node => pure node

/-- The text of a key, which must be a scalar. -/
def key (document : Document) (node : Node Nat) : StateT Nat Option String := do
  match ← document.target node with
  | .scalar _ text _ => return text
  | _ => failure

/-- Reads a node that numbers a value: a natural number of 64 bits, which no tag puts elsewhere. -/
def number (document : Document) (node : Node Nat) : StateT Nat Option Unit := do
  match ← document.target node with
  | .scalar properties text isPlain =>
    guard (properties.tag.bind localName?).isNone
    guard (((scalarValue? properties.tag text isPlain).bind (·.nat?)).isSome)
  | _ => failure

/-- The value of a node, with room for some collections inside each other. -/
def value (document : Document) (room : Nat) (node : Node Nat) : StateT Nat Option Json := do
  match ← document.target node with
  | .scalar properties text isPlain =>
    return (← scalarValue? properties.tag text isPlain).nested properties.path
  | .sequence properties items =>
    match room with
    | 0 => failure
    | room + 1 =>
      return (Json.array (← items.mapM (value document room))).nested properties.path
  | .mapping properties fields =>
    match room with
    | 0 => failure
    | room + 1 =>
      let fields ← fields.mapM fun (key, item) => do
        let key ← document.key key
        if key = numberField then
          document.number item
          return none
        else return some (key, ← value document room item)
      return (mappingValue (fields.filterMap id)).nested properties.path
  | .alias _ => failure

/-- How many collections can stand inside each other, the outermost one included. -/
def nestingLimit : Nat := 128

/-- How often a node may be found by its name, for each unit of size. -/
def repetitionLimit : Nat := 100

/-- The fields of the outermost mapping, which all count as fields; nothing at all, or an empty text
without quotes, stands for an empty one.
-/
def fields? : Option (Node Nat) → Option (List (String × Json))
  | none => some []
  | some (.scalar _ text isPlain) => if text = "" && isPlain then some [] else none
  | some (.mapping properties fields) =>
    let node := Node.mapping properties fields
    let document : Document := ⟨node.named [], repetitionLimit * node.size⟩
    let read := fields.mapM fun (key, item) => do
      return (← document.key key, ← document.value (nestingLimit - 1) item)
    (read.run 0).map (·.1)
  | some _ => none

end Document

/-- Reads the mapping that the one document of a text holds. -/
def parse? (text : String) : Option (List (String × Json)) := do
  let characters := text.toList
  guard (characters.all isAllowed)
  let node ← document? (← Token.ofText? characters)
  let node ← node.elim (some none) fun node => (node.numbered? []).map fun (node, _) => some node
  Document.fields? node

end Yaml
end LineageLoad
