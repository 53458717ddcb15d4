import Gatehouse.CallDepth
import Gatehouse.Yaml.Tag
import Gatehouse.Yaml.Token

namespace Gatehouse

namespace Yaml

/-- A part of a document: what it stands for, and the numbers of the parts that it holds. -/
inductive Node where
  | scalar (tag : Tag) (text : String)
  | sequence (tag : Tag) (items : List Nat)
  | mapping (tag : Tag) (entries : List (Nat × Nat))

namespace Node

/-- What stands where nothing is written. -/
def empty : Node := scalar .null ""

def tag : Node → Tag
  | scalar tag _ | sequence tag _ | mapping tag _ => tag

def withTag (tag : Tag) : Node → Node
  | scalar _ text => scalar tag text
  | sequence _ items => sequence tag items
  | mapping _ entries => mapping tag entries

def isScalar : Node → Bool
  | scalar _ _ => true
  | _ => false

end Node

/-- The parts of a document by their numbers, and the part that holds the others; a part may hold
itself. -/
structure Document where
  nodes : Array Node
  root : Nat

namespace Document

def empty : Document := ⟨#[.empty], 0⟩

def node (d : Document) (n : Nat) : Node := d.nodes.getD n .empty

/-- More than there are parts on a way that meets none twice. -/
def steps (d : Document) : Nat := d.nodes.size + 1

end Document

/-- The tokens that are left, the tag handles that are defined, the parts that have a name, the
parts that have been met, and the number of lists and maps around the place. -/
structure NodeReader where
  tokens : List Token
  handles : List (String × String)
  anchors : List (String × Nat)
  nodes : Array Node
  depth : Nat

abbrev ReadNode := StateT NodeReader (Except Fault)

/-- What follows a step that succeeds goes on from the state that it leaves. -/
theorem bind_of_ok {σ α β : Type} {first : StateT σ (Except Fault) α}
    {next : α → StateT σ (Except Fault) β} {s after : σ} {a : α} (h : first s = .ok (a, after)) :
    (first >>= next) s = next a after := by
  show (first s).bind _ = _
  rw [h]
  rfl

namespace NodeReader

/-- The fault of a token that may not stand where it stands. -/
def faultAt : List Token → Fault
  | .broken fault :: _ => fault
  | _ => .malformed

def refuse {α : Type} : ReadNode α := fun r => .error (faultAt r.tokens)

def peek : ReadNode (Option Token) := fun r => .ok (r.tokens.head?, r)

def advance : ReadNode Unit := fun r => .ok ((), { r with tokens := r.tokens.drop 1 })

/-- Takes the token if it is the next one, and tells whether it was. -/
def accept (t : Token) : ReadNode Bool := do
  if (← peek) == some t then
    advance
    return true
  else return false

def expect (t : Token) : ReadNode Unit := do
  if !(← accept t) then refuse

/-- The number for a part that begins; it stands for an empty one until it is filled. -/
def reserve : ReadNode Nat := fun r =>
  .ok (r.nodes.size, { r with nodes := r.nodes.push .empty })

def fill (n : Nat) (node : Node) : ReadNode Unit := fun r =>
  .ok ((), { r with nodes := r.nodes.setIfInBounds n node })

/-- How deep lists and maps may stand inside one another: one call reads a part and one what the
part holds, from the command line and the loader down. -/
def mostDepth : Nat := levelsWithin 32 2

/-- Reads what a list or map holds. -/
def inside {α : Type} (read : ReadNode α) : ReadNode α := fun r =>
  if mostDepth ≤ r.depth then .error .tooDeep
  else (read.run { r with depth := r.depth + 1 }).map fun (a, after) =>
    (a, { after with depth := r.depth })

def takeAnchor : ReadNode (Option String) := do
  match ← peek with
  | some (.anchor name) =>
    advance
    return some name
  | _ => return none

/-- What is said of a node's tag: nothing, that the tag is the one for its form, or a tag. -/
inductive Tagging where
  | absent
  | byForm
  | given (tag : Tag)
  deriving DecidableEq

def taggingOf (handles : List (String × String)) (mark : TagMark) : Except Fault Tagging :=
  match mark.handle with
  | none => .ok (if mark.suffix = "!" then .byForm else .given (Tag.ofUri mark.suffix))
  | some handle =>
    match handles.lookup handle with
    | some expansion => .ok (.given (Tag.ofUri (expansion ++ mark.suffix)))
    | none => .error .malformed

def takeTag : ReadNode Tagging := do
  match ← peek with
  | some (.tag mark) =>
    advance
    taggingOf (← get).handles mark
  | _ => return .absent

/-- The tag of a collection. -/
def Tagging.orForm (form : Tag) : Tagging → Tag
  | given tag => tag
  | _ => form

/-- The tag that the look of a text gives it; one line feed at its end is not looked at. -/
def impliedTag (text : String) : Tag :=
  let cs := text.toList
  if cs = ['\n'] then .text
  else plainTag (if cs.getLast? = some '\n' then cs.dropLast else cs)

/-- The tag of a scalar; a text in quotes without a tag is a text. -/
def Tagging.ofScalar (isPlain : Bool) (text : String) : Tagging → Tag
  | given tag => tag
  | byForm => impliedTag text
  | absent => if isPlain then impliedTag text else .text

/-- Names a part; a name is given once. -/
def name (anchor : Option String) (n : Nat) : ReadNode Unit := fun r =>
  match anchor with
  | none => .ok ((), r)
  | some name =>
    if (r.anchors.lookup name).isSome then .error .malformed
    else .ok ((), { r with anchors := (name, n) :: r.anchors })

def referenced (name : String) : ReadNode Nat := fun r =>
  match r.anchors.lookup name with
  | some n => .ok (n, r)
  | none => .error .malformed

/-- A part, or an empty one before a token that ends the place. -/
def orEmpty (ends : List Token) (node : ReadNode Nat) : ReadNode Nat := do
  if (← peek).any ends.contains then reserve else node

/-- The value of an entry, which may be missing. -/
def entryValue (ends : List Token) (node : ReadNode Nat) : ReadNode Nat := do
  if ← accept .value then orEmpty ends node else reserve

/-- The name and the tag of a part, in either order. -/
def properties : ReadNode (Option String × Tagging) := do
  match ← takeAnchor with
  | some anchor => return (some anchor, ← takeTag)
  | none =>
    let tagging ← takeTag
    if tagging = .absent then return (none, tagging) else return (← takeAnchor, tagging)

mutual

/-- Reads a part. It can be named inside itself. The entries of an indented mapping may hold a
sequence that is not indented. -/
def readNode : Nat → Bool → ReadNode Nat
  | 0, _ => refuse
  | n + 1, inEntry => do
    match ← peek with
    | some (.reference name) =>
      advance
      referenced name
    | _ =>
      let (anchor, tagging) ← properties
      let id ← reserve
      let node ← readContent n inEntry anchor id tagging
      fill id node
      return id

/-- Reads what a part holds; nothing needs to be there if the part has a name or a tag. -/
def readContent : Nat → Bool → Option String → Nat → Tagging → ReadNode Node
  | 0, _, _, _, _ => refuse
  | n + 1, inEntry, anchor, id, tagging => do
    match ← peek with
    | some (.scalar isPlain text) =>
      advance
      name anchor id
      return .scalar (tagging.ofScalar isPlain text) text
    | some .flowSequenceStart =>
      name anchor id
      advance
      return .sequence (tagging.orForm .sequence) (← inside (readFlowItems n true))
    | some .flowMappingStart =>
      name anchor id
      advance
      return .mapping (tagging.orForm .mapping) (← inside (readFlowEntries n true))
    | some .blockSequenceStart =>
      name anchor id
      advance
      return .sequence (tagging.orForm .sequence) (← inside (readItems n))
    | some .blockMappingStart =>
      name anchor id
      advance
      return .mapping (tagging.orForm .mapping) (← inside (readEntries n))
    | next =>
      if inEntry && next == some .blockEntry then
        name anchor id
        return .sequence (tagging.orForm .sequence) (← inside (readUnindentedItems n))
      else if anchor.isSome || tagging != .absent then
        name anchor id
        return .scalar (tagging.ofScalar true "") ""
      else refuse

def readItems : Nat → ReadNode (List Nat)
  | 0 => refuse
  | n + 1 => do
    if ← accept .blockEntry then
      let item ← orEmpty [.blockEntry, .blockEnd] (readNode n false)
      return item :: (← readItems n)
    else
      expect .blockEnd
      return []

def readUnindentedItems : Nat → ReadNode (List Nat)
  | 0 => refuse
  | n + 1 => do
    if ← accept .blockEntry then
      let item ← orEmpty [.blockEntry, .key, .value, .blockEnd] (readNode n false)
      return item :: (← readUnindentedItems n)
    else return []

def readEntries : Nat → ReadNode (List (Nat × Nat))
  | 0 => refuse
  | n + 1 => do
    if ← accept .key then
      let key ← orEmpty [.key, .value, .blockEnd] (readNode n true)
      let value ← entryValue [.key, .value, .blockEnd] (readNode n true)
      return (key, value) :: (← readEntries n)
    else
      expect .blockEnd
      return []

/-- Reads items between brackets; an entry among them is a mapping of its own. -/
def readFlowItems : Nat → Bool → ReadNode (List Nat)
  | 0, _ => refuse
  | n + 1, isFirst => do
    if ← accept .flowSequenceEnd then return []
    else
      if !isFirst then expect .flowEntry
      if ← accept .key then
        let id ← reserve
        let key ← inside (orEmpty [.value, .flowEntry, .flowSequenceEnd] (readNode n false))
        let value ← inside (entryValue [.flowEntry, .flowSequenceEnd] (readNode n false))
        fill id (.mapping .mapping [(key, value)])
        return id :: (← readFlowItems n false)
      else if ← accept .flowSequenceEnd then return []
      else
        let item ← readNode n false
        return item :: (← readFlowItems n false)

/-- Reads entries between braces; a part without a colon is a key with an empty value. -/
def readFlowEntries : Nat → Bool → ReadNode (List (Nat × Nat))
  | 0, _ => refuse
  | n + 1, isFirst => do
    if ← accept .flowMappingEnd then return []
    else
      if !isFirst then expect .flowEntry
      if ← accept .key then
        let key ← orEmpty [.value, .flowEntry, .flowMappingEnd] (readNode n false)
        let value ← entryValue [.flowEntry, .flowMappingEnd] (readNode n false)
        return (key, value) :: (← readFlowEntries n false)
      else if ← accept .flowMappingEnd then return []
      else
        let key ← readNode n false
        return (key, ← reserve) :: (← readFlowEntries n false)

end

def defaultHandles : List (String × String) := [("!", "!"), ("!!", Tag.tagPrefix)]

/-- The handles that directives define, before the default ones, and what follows; neither a version
nor a handle may be given twice. -/
def readDirectives (hasVersion : Bool) (handles : List (String × String)) :
    List Token → Except Fault (List (String × String) × List Token)
  | .version major :: rest =>
    if hasVersion ∨ major ≠ 1 then .error .malformed else readDirectives true handles rest
  | .tagHandle handle expansion :: rest =>
    if (handles.lookup handle).isSome then .error .malformed
    else readDirectives hasVersion ((handle, expansion) :: handles) rest
  | .otherDirective :: rest => readDirectives hasVersion handles rest
  | .documentStart :: rest => .ok (handles ++ defaultHandles, rest)
  | tokens => .error (faultAt tokens)

def startsDocument : Token → Bool
  | .version _ | .tagHandle _ _ | .otherDirective | .documentStart => true
  | _ => false

/-- Four steps are taken for each token at most. -/
def readWhole (handles : List (String × String)) (tokens : List Token) :
    Except Fault (Document × List Token) := do
  let (root, after) ← (readNode (4 * tokens.length + 4) false).run ⟨tokens, handles, [], #[], 0⟩
  return (⟨after.nodes, root⟩, after.tokens)

/-- The first document, and what follows it. -/
def readDocument (tokens : List Token) : Except Fault (Document × List Token) := do
  if tokens.head?.any startsDocument then
    let (handles, rest) ← readDirectives false [] tokens
    if rest.head?.all fun t => startsDocument t || t == .documentEnd then return (.empty, rest)
    else readWhole handles rest
  else if tokens = [] then return (.empty, [])
  else readWhole defaultHandles tokens

end NodeReader

/-- The document of a text that holds one at most. -/
def Document.ofTokens (tokens : List Token) : Except Fault Document := do
  let (d, rest) ← NodeReader.readDocument tokens
  match rest.dropWhile (· == .documentEnd) with
  | [] => return d
  | rest => .error (NodeReader.faultAt rest)

end Yaml

end Gatehouse
