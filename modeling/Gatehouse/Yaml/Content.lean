import Gatehouse.CallDepth
import Gatehouse.Yaml.Node
import Gatehouse.Yaml.ScalarValue

namespace Gatehouse

namespace Yaml

/-- What is made of a part: a value, or a list or map, which is known by the number of the part. The
origin of a value is the same for values that are one, which numbers that equal nothing may be. -/
inductive Made where
  | scalar (v : Value) (origin : Nat)
  | part (n : Nat)

/-- What a list or map holds. -/
inductive Content where
  | list (items : List Made)
  | pairs (items : List (Made × Made))
  | map (entries : List (Made × Made))
  | set (items : List Made)

def Content.isMap : Content → Bool
  | map _ => true
  | _ => false

namespace Made

def sameKey : Made → Made → Bool
  | scalar v m, scalar w n => m == n || v.sameKey w
  | part m, part n => m == n
  | _, _ => false

/-- The last value given to a key stands where the key was first given. -/
def insertEntry (key value : Made) : List (Made × Made) → List (Made × Made)
  | [] => [(key, value)]
  | (k, v) :: rest =>
    if k.sameKey key then (k, value) :: rest else (k, v) :: insertEntry key value rest

end Made

/-- A document while its parts are made: the parts as they are now, how many merges there are in all
mappings at most, what was made of the parts, what lists and maps hold, and those among them that
are still to be looked into, the newest first. -/
structure Build where
  nodes : Array Node
  merges : Nat
  made : Array (Option Made)
  contents : Array Content
  waiting : List Nat

abbrev Building := StateT Build (Except Fault)

namespace Build

/-- How many steps into one another merges and texts may take: one call each, from the command line
and the loader down. -/
def mostSteps : Nat := levelsWithin 20 1

def node (n : Nat) : Building Node := return (← get).nodes.getD n .empty

def setNode (n : Nat) (node : Node) : Building Unit :=
  modify fun b => { b with nodes := b.nodes.setIfInBounds n node }

def tagOf (n : Nat) : Building Tag := return (← node n).tag

/-- The entries of a mapping as they are now. -/
def entriesOf (n : Nat) : Building (List (Nat × Nat)) := do
  match ← node n with
  | .mapping _ entries => return entries
  | _ => throw .malformed

def setEntries (n : Nat) (entries : List (Nat × Nat)) : Building Unit := do
  setNode n (.mapping (← tagOf n) entries)

/-- The first entry whose key has a tag. -/
def findEntry (tag : Tag) : List (Nat × Nat) → Building (Option (Nat × Nat))
  | [] => return none
  | entry :: rest => do if (← tagOf entry.1) = tag then return some entry else findEntry tag rest

/-- The text that a part stands for under a scalar's tag: its own, or that of its key `=`. -/
def textOf : Nat → Nat → Building String
  | 0, _ => throw .tooDeep
  | steps + 1, n => do
    match ← node n with
    | .scalar _ text => return text
    | .sequence _ _ => throw .malformed
    | .mapping _ entries =>
      match ← findEntry .value entries with
      | some (_, value) => textOf steps value
      | none => throw .malformed

/-- The word for no number is the same one each time. -/
def isNanWord (text : String) : Bool :=
  (splitSign (lowerChars (withoutBars text))).2 == ".nan".toList

/-- Makes the value of a part that is no list or map. -/
def makeScalar (n : Nat) (tag : Tag) : Building Made := do
  if !tag.isScalar then throw .malformed
  let text ← textOf mostSteps n
  if tag = .timestamp && !(← node n).isScalar then throw .timestampKind
  let v ← scalarValue tag text
  return .scalar v (if tag = .float && isNanWord text then 0 else n + 1)

/-- Makes a part once; a list or map is filled later. -/
def make (n : Nat) : Building Made := do
  match (← get).made.getD n none with
  | some made => return made
  | none =>
    let tag ← tagOf n
    let made ← if tag.isCollection then pure (Made.part n) else makeScalar n tag
    modify fun b => { b with
      made := b.made.setIfInBounds n (some made)
      waiting := if tag.isCollection then n :: b.waiting else b.waiting }
    return made

/-- A list or map cannot be a key. -/
def makeKey (n : Nat) : Building Made := do
  match ← make n with
  | .scalar v origin => return .scalar v origin
  | .part _ => throw .malformed

/-- The entries without the first one that merges, and the value of that one. -/
def takeMerge : List (Nat × Nat) → Building (Option (Nat × List (Nat × Nat)))
  | [] => return none
  | entry :: rest => do
    if (← tagOf entry.1) = .merge then return some (entry.2, rest)
    else return (← takeMerge rest).map fun (value, rest) => (value, entry :: rest)

/-- A key `=` is a text like others once the mapping is looked into. -/
def plainKey (entry : Nat × Nat) : Building Unit := do
  let key ← node entry.1
  if key.tag = .value then setNode entry.1 (key.withTag .text)

/-- Puts the entries that a mapping merges before its own, by a way to take them out of it. -/
def mergeWith (takeAll : Nat → Building (List (Nat × Nat))) (n : Nat) :
    Building (List (Nat × Nat)) := do
  (← entriesOf n).forM plainKey
  let merged ← takeAll n
  setEntries n (merged ++ (← entriesOf n))
  entriesOf n

/-- Takes the merges out of a mapping, each time the first one that is left, and gives what they
bring. Of several mappings in a list the earlier ones win, so that their entries come last. There
are fewer merges left after each step. -/
def takeMerges (depth : Nat) : Nat → Nat → Building (List (Nat × Nat))
  | 0, _ => return []
  | left + 1, n => do
    match ← takeMerge (← entriesOf n) with
    | none => return []
    | some (value, rest) =>
      setEntries n rest
      if mostSteps < depth then throw .tooDeep
      let merge := mergeWith (takeMerges (depth + 1) left)
      let brought ← match ← node value with
        | .mapping _ _ => merge value
        | .sequence _ items => pure (← items.mapM merge).reverse.flatten
        | .scalar _ _ => throw .malformed
      return brought ++ (← takeMerges depth left n)

/-- The entries of a mapping with those that it merges. -/
def mergedEntries (n : Nat) : Building (List (Nat × Nat)) := do
  mergeWith (takeMerges 1 (← get).merges) n

def makeEntries : List (Made × Made) → List (Nat × Nat) → Building (List (Made × Made))
  | made, [] => return made
  | made, (key, value) :: rest => do
    let k ← makeKey key
    let v ← make value
    makeEntries (Made.insertEntry k v made) rest

/-- The single entry of a mapping as it is now. -/
def makePair (n : Nat) : Building (Made × Made) := do
  match ← entriesOf n with
  | [(key, value)] => return (← make key, ← make value)
  | _ => throw .malformed

def contentOf (n : Nat) : Building Content := do
  match ← node n with
  | .sequence .sequence items => return .list (← items.mapM make)
  | .sequence .orderedMap items | .sequence .pairs items => return .pairs (← items.mapM makePair)
  | .mapping .mapping _ => return .map (← makeEntries [] (← mergedEntries n))
  | .mapping .set _ => return .set ((← makeEntries [] (← mergedEntries n)).map Prod.fst)
  | _ => throw .malformed

def fill (n : Nat) : Building Unit := do
  let content ← contentOf n
  modify fun b => { b with contents := b.contents.setIfInBounds n content }

/-- Fills lists and maps level by level; each part is filled once. -/
def fillAll : Nat → Building Unit
  | 0 => return
  | levels + 1 => do
    match (← get).waiting with
    | [] => return
    | waiting =>
      modify fun b => { b with waiting := [] }
      waiting.reverse.forM fill
      fillAll levels

end Build

namespace Document

def isMerge (d : Document) (entry : Nat × Nat) : Bool := (d.node entry.1).tag == .merge

def mergesIn (d : Document) : Node → Nat
  | .mapping _ entries => entries.countP d.isMerge
  | _ => 0

def mergeCount (d : Document) : Nat := d.nodes.foldl (fun count node => count + d.mergesIn node) 0

/-- What is made of the whole document, and what the lists and maps in it hold. Of several faults
the first one at the least depth is told. -/
def build (d : Document) : Except Fault (Made × Array Content) := do
  let size := d.nodes.size
  let start : Build :=
    ⟨d.nodes, d.mergeCount, Array.replicate size none, Array.replicate size (.list []), []⟩
  let (made, filled) ← (do
    let made ← Build.make d.root
    Build.fillAll d.steps
    return made : Building Made).run start
  return (made, filled.contents)

end Document

end Yaml

end Gatehouse
