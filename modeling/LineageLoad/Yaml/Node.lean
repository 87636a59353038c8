import LineageLoad.Yaml.Token

/-!
YAML nodes and the document that tokens make up. A node may be named, and another one may refer to
it by its name.
-/

namespace LineageLoad
namespace Yaml

/-- What a node has beside its content. -/
structure Properties (ν : Type) where
  name : Option ν := none
  /-- The tag with the meaning of its handle. -/
  tag : Option String := none
  deriving DecidableEq, Repr, Inhabited

/-- A node whose name is of a type (ν). -/
inductive Node (ν : Type) where
  | alias (name : ν)
  | scalar (properties : Properties ν) (text : String) (isPlain : Bool)
  | sequence (properties : Properties ν) (items : List (Node ν))
  | mapping (properties : Properties ν) (fields : List (Node ν × Node ν))
  deriving Inhabited

def Node.absent : Node String := .scalar {} "" true

-----------------------------------------------------------------------------------------
-- Properties
-----------------------------------------------------------------------------------------

/-- What handles stand for. -/
abbrev Handles := List (List Char × List Char)

/-- The whole tag; its handle must have a meaning. -/
def Tag.resolve? (handles : Handles) (tag : Tag) : Option String :=
  if tag.handle.isEmpty then some (String.ofList tag.suffix)
  else (handles.lookup tag.handle).map fun beginning => String.ofList (beginning ++ tag.suffix)

/-- The name and the tag of a node, in either order. -/
def properties? (handles : Handles) : List Token → Option (Properties String × List Token)
  | .anchor name :: .tag tag :: rest =>
    (tag.resolve? handles).map fun tag => (⟨some name, some tag⟩, rest)
  | .tag tag :: .anchor name :: rest =>
    (tag.resolve? handles).map fun tag => (⟨some name, some tag⟩, rest)
  | .anchor name :: rest => some (⟨some name, none⟩, rest)
  | .tag tag :: rest => (tag.resolve? handles).map fun tag => (⟨none, some tag⟩, rest)
  | rest => some ({}, rest)

-----------------------------------------------------------------------------------------
-- Nodes
-----------------------------------------------------------------------------------------

/-- Whether the first token is one of some, or there is none. -/
def startsWithAny (tokens : List Token) (any : List Token) : Bool :=
  tokens.head?.any (any.contains ·)

mutual

/-- Reads a node. Blocks may stand here if (block) holds, and items of a sequence without a block of
their own if (items) holds.
-/
def node? (handles : Handles) (block items : Bool) (budget : Nat) (tokens : List Token)
    : Option (Node String × List Token) :=
  match budget with
  | 0 => none
  | budget + 1 =>
    match tokens with
    | .alias name :: rest => some (.alias name, rest)
    | tokens => do
      let (properties, rest) ← properties? handles tokens
      match rest with
      | .scalar text isPlain :: rest => return (.scalar properties text isPlain, rest)
      | .flowSequence :: rest =>
        let (found, rest) ← flowItems? handles true budget rest
        return (.sequence properties found, rest)
      | .flowMapping :: rest =>
        let (found, rest) ← flowFields? handles true budget rest
        return (.mapping properties found, rest)
      | rest =>
        if items && rest.head? = some .blockEntry then
          let (found, rest) ← indentlessItems? handles budget rest
          return (.sequence properties found, rest)
        else match block, rest with
          | true, .blockSequence :: rest =>
            let (found, rest) ← blockItems? handles budget rest
            return (.sequence properties found, rest)
          | true, .blockMapping :: rest =>
            let (found, rest) ← blockFields? handles budget rest
            return (.mapping properties found, rest)
          | _, rest =>
            if properties.name.isSome || properties.tag.isSome
            then return (.scalar properties "" true, rest) else none

/-- Reads a node of a block, unless one of some tokens comes first: then there is none. -/
def blockNode? (handles : Handles) (items : Bool) (ends : List Token) (budget : Nat)
    (tokens : List Token) : Option (Node String × List Token) :=
  match budget with
  | 0 => none
  | budget + 1 =>
    if startsWithAny tokens ends then some (.absent, tokens)
    else node? handles true items budget tokens

/-- Reads a node between brackets, unless one of some tokens comes first. -/
def flowNode? (handles : Handles) (ends : List Token) (budget : Nat) (tokens : List Token)
    : Option (Node String × List Token) :=
  match budget with
  | 0 => none
  | budget + 1 =>
    if startsWithAny tokens ends then some (.absent, tokens)
    else node? handles false false budget tokens

/-- Reads the items of a block up to its end. -/
def blockItems? (handles : Handles) (budget : Nat) (tokens : List Token)
    : Option (List (Node String) × List Token) :=
  match budget with
  | 0 => none
  | budget + 1 =>
    match tokens with
    | .blockEntry :: rest => do
      let (item, rest) ← blockNode? handles false [.blockEntry, .blockEnd] budget rest
      let (found, rest) ← blockItems? handles budget rest
      return (item :: found, rest)
    | .blockEnd :: rest => some ([], rest)
    | _ => none

/-- Reads items that stand at the column of the fields around them. -/
def indentlessItems? (handles : Handles) (budget : Nat) (tokens : List Token)
    : Option (List (Node String) × List Token) :=
  match budget with
  | 0 => none
  | budget + 1 =>
    match tokens with
    | .blockEntry :: rest => do
      let (item, rest) ←
        blockNode? handles false [.blockEntry, .key, .value, .blockEnd] budget rest
      let (found, rest) ← indentlessItems? handles budget rest
      return (item :: found, rest)
    | tokens => some ([], tokens)

/-- Reads the fields of a block up to its end. -/
def blockFields? (handles : Handles) (budget : Nat) (tokens : List Token)
    : Option (List (Node String × Node String) × List Token) :=
  match budget with
  | 0 => none
  | budget + 1 =>
    let ends : List Token := [.key, .value, .blockEnd]
    match tokens with
    | .key :: rest => do
      let (key, rest) ← blockNode? handles true ends budget rest
      let (value, rest) ← match rest with
        | .value :: rest => blockNode? handles true ends budget rest
        | rest => some (.absent, rest)
      let (found, rest) ← blockFields? handles budget rest
      return ((key, value) :: found, rest)
    | .blockEnd :: rest => some ([], rest)
    | _ => none

/-- Reads the value after a key between brackets, if there is one. -/
def flowValue? (handles : Handles) (closing : Token) (budget : Nat) (tokens : List Token)
    : Option (Node String × List Token) :=
  match budget with
  | 0 => none
  | budget + 1 =>
    match tokens with
    | .value :: rest => flowNode? handles [.flowEntry, closing] budget rest
    | tokens => some (.absent, tokens)

/-- Reads the items of a sequence up to its bracket; (first) tells whether none came before. -/
def flowItems? (handles : Handles) (first : Bool) (budget : Nat) (tokens : List Token)
    : Option (List (Node String) × List Token) :=
  match budget with
  | 0 => none
  | budget + 1 => do
    let tokens ← match first, tokens with
      | true, tokens => some tokens
      | false, .flowEntry :: rest => some rest
      | false, .flowSequenceEnd :: rest => some (.flowSequenceEnd :: rest)
      | false, _ => none
    match tokens with
    | .flowSequenceEnd :: rest => return ([], rest)
    | .key :: rest =>
      let (field, rest) ← flowPair? handles budget rest
      let (found, rest) ← flowItems? handles false budget rest
      return (.mapping {} [field] :: found, rest)
    | tokens =>
      let (item, rest) ← node? handles false false budget tokens
      let (found, rest) ← flowItems? handles false budget rest
      return (item :: found, rest)

/-- Reads the one field of an item that is a mapping without braces. If its key is missing, the
token in its place is passed over.
-/
def flowPair? (handles : Handles) (budget : Nat) (tokens : List Token)
    : Option ((Node String × Node String) × List Token) :=
  match budget with
  | 0 => none
  | budget + 1 => do
    let (key, rest) ←
      if startsWithAny tokens [.value, .flowEntry, .flowSequenceEnd]
      then some (.absent, tokens.tail)
      else node? handles false false budget tokens
    let (value, rest) ← flowValue? handles .flowSequenceEnd budget rest
    return ((key, value), rest)

/-- Reads the fields of a mapping up to its brace; (first) tells whether none came before. -/
def flowFields? (handles : Handles) (first : Bool) (budget : Nat) (tokens : List Token)
    : Option (List (Node String × Node String) × List Token) :=
  match budget with
  | 0 => none
  | budget + 1 => do
    let tokens ← match first, tokens with
      | true, tokens => some tokens
      | false, .flowEntry :: rest => some rest
      | false, .flowMappingEnd :: rest => some (.flowMappingEnd :: rest)
      | false, _ => none
    match tokens with
    | .flowMappingEnd :: rest => return ([], rest)
    | .key :: rest =>
      let (key, rest) ← flowNode? handles [.value, .flowEntry, .flowMappingEnd] budget rest
      let (value, rest) ← flowValue? handles .flowMappingEnd budget rest
      let (found, rest) ← flowFields? handles false budget rest
      return ((key, value) :: found, rest)
    | tokens =>
      let (key, rest) ← node? handles false false budget tokens
      let (found, rest) ← flowFields? handles false budget rest
      return ((key, .absent) :: found, rest)

end

-----------------------------------------------------------------------------------------
-- Documents
-----------------------------------------------------------------------------------------

/-- What handles stand for unless a directive says otherwise. -/
def defaultHandles : Handles :=
  [(['!'], ['!']), (['!', '!'], "tag:yaml.org,2002:".toList)]

/-- The meanings that directives give to handles, each handle at most once. There may be one
version, which must be a known one.
-/
def directives? (versioned : Bool) (handles : Handles) : List Token → Option (Handles × List Token)
  | .directive (.version major minor) :: rest =>
    if !versioned && major = 1 && (minor = 1 || minor = 2) then directives? true handles rest
    else none
  | .directive (.handle handle beginning) :: rest =>
    if (handles.lookup handle).isSome then none
    else directives? versioned ((handle, beginning) :: handles) rest
  | rest => some (handles, rest)

/-- Whether a token begins a document or its directives, or ends one. -/
def Token.isMargin : Token → Bool
  | .directive _ => true
  | .documentStart => true
  | .documentEnd => true
  | _ => false

/-- Reads the mark of a document's beginning and the node after it, which may be missing. -/
def markedNode? (handles : Handles) (budget : Nat) : List Token → Option (Node String × List Token)
  | .documentStart :: rest =>
    if rest.head?.all (·.isMargin) then some (.absent, rest)
    else node? handles true false budget rest
  | _ => none

/-- Reads the node of a document. Without directives and a mark in front of it there must be one. -/
def documentNode? (tokens : List Token) : Option (Node String × List Token) :=
  let budget := 4 * tokens.length + 4
  match tokens with
  | .directive _ :: _ => do
    let (handles, rest) ← directives? false [] tokens
    markedNode? (handles ++ defaultHandles) budget rest
  | .documentStart :: _ => markedNode? defaultHandles budget tokens
  | tokens => node? defaultHandles true false budget tokens

/-- Reads the one document that tokens make up; there may be none at all. -/
def document? (tokens : List Token) : Option (Option (Node String)) :=
  if tokens.isEmpty then some none
  else do
    let (node, rest) ← documentNode? tokens
    guard (rest.all (· = .documentEnd))
    return some node

end Yaml
end LineageLoad
