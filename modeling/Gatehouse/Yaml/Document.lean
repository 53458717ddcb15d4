import Gatehouse.Yaml.Content
import Gatehouse.Yaml.Scan
import Gatehouse.Yaml.Scatter

namespace Gatehouse

namespace Yaml

/-- A value with the numbers of the parts around it that it holds. -/
structure Unfolded where
  value : Value
  outer : List Nat

namespace Unfolded

def closed (v : Value) : Unfolded := ⟨v, []⟩

/-- What several values hold together. -/
def outerOf (parts : List Unfolded) : List Nat := (parts.flatMap Unfolded.outer).eraseDups

def values (parts : List Unfolded) : List Value := parts.map Unfolded.value

def isKnot (u : Unfolded) : Bool :=
  match u.value with
  | .knot _ _ => true
  | _ => false

end Unfolded

/-- What was last unfolded of each part. -/
abbrev Unfolding := StateM (Array (Option Unfolded))

namespace Unfolding

/-- Keeps the value of a part. It is a knot if it holds a part around it or itself, and it stays one
when it is unfolded again elsewhere. -/
def keep (n : Nat) (v : Value) (outer : List Nat) : Unfolding Unfolded := do
  let wasKnot := ((← get).getD n none).any Unfolded.isKnot
  let unfolded : Unfolded :=
    if outer = [] ∧ !wasKnot then .closed v else ⟨.knot n v, outer.filter (· ≠ n)⟩
  modify fun known => known.setIfInBounds n (some unfolded)
  return unfolded

/-- The value of a part, if all parts that it holds from around it are around it again. -/
def known? (around : List Nat) (n : Nat) : Unfolding (Option Unfolded) := do
  return ((← get).getD n none).filter fun u => u.outer.all around.contains

/-- The values of entries, and what they hold together. -/
def entries (unfold : Made → Unfolding Unfolded) (es : List (Made × Made)) :
    Unfolding (List (Value × Value) × List Nat) := do
  let parts ← es.mapM fun (k, v) => return (← unfold k, ← unfold v)
  return (parts.map fun (k, v) => (k.value, v.value),
    Unfolded.outerOf (parts.flatMap fun (k, v) => [k, v]))

/-- The value of what is made of a part, by a way to unfold lists and maps. -/
def ofMade (part : Nat → Unfolding Unfolded) : Made → Unfolding Unfolded
  | .scalar v _ => return .closed v
  | .part n => part n

/-- The value of a list or map, by a way to unfold what it holds. -/
def ofContent [SetOrder] (unfold : Made → Unfolding Unfolded) (n : Nat) :
    Content → Unfolding Unfolded
  | .list items => do
    let parts ← items.mapM unfold
    keep n (.list (Unfolded.values parts)) (Unfolded.outerOf parts)
  | .set items => do
    let parts ← items.mapM unfold
    keep n (.set (setOrder (Unfolded.values parts))) (Unfolded.outerOf parts)
  | .pairs items => do
    let (pairs, outer) ← entries unfold items
    keep n (.list (pairs.map fun (a, b) => .pair a b)) outer
  | .map es => do
    let (pairs, outer) ← entries unfold es
    keep n (.map pairs) outer

/-- The value of a list or map; inside itself a part is only named. -/
def part [SetOrder] (contents : Array Content) : Nat → List Nat → Nat → Unfolding Unfolded
  | 0, _, _ => return .closed .null
  | steps + 1, around, n => do
    let content := contents.getD n (.list [])
    if around.contains n then return ⟨.again n content.isMap, [n]⟩
    match ← known? around n with
    | some unfolded => return unfolded
    | none => ofContent (ofMade (part contents steps (n :: around))) n content

end Unfolding

/-- The value of a document; a way into it meets no part twice. -/
def Document.value [SetOrder] (made : Made) (contents : Array Content) : Value :=
  match made with
  | .scalar v _ => v
  | .part n =>
    ((Unfolding.part contents (contents.size + 1) [] n).run
      (Array.replicate contents.size none)).1.value

/-- The value that a text describes. -/
def load [SetOrder] (text : String) : Except Fault Value := do
  let d ← Document.ofTokens (scan text.toList)
  let (made, contents) ← d.build
  return Document.value made contents

end Yaml

end Gatehouse
