import Gatehouse.Text.Search

namespace Gatehouse

/-- The name of a file or directory, by the names on the way to it. It starts at the root if there
are slashes before them; two slashes are kept, and more are like one. -/
structure Pathname where
  slashes : Nat
  parts : List String
  deriving DecidableEq

namespace Pathname

def pieces (text : String) : List String :=
  (splitChars (· == '/') text.toList).map String.ofList

def leadingSlashes (cs : List Char) : Nat :=
  let n := (cs.takeWhile (· == '/')).length
  if n ≤ 2 then n else 1

/-- Empty pieces and single points say nothing; double points are kept. -/
def ofText (text : String) : Pathname :=
  ⟨leadingSlashes text.toList, (pieces text).filter fun p => p ≠ "" ∧ p ≠ "."⟩

def isAbsolute (p : Pathname) : Bool := p.slashes != 0

def text (p : Pathname) : String :=
  if p.isAbsolute then
    String.ofList (List.replicate p.slashes '/') ++ String.intercalate "/" p.parts
  else if p.parts = [] then "."
  else String.intercalate "/" p.parts

def parent (p : Pathname) : Pathname := { p with parts := p.parts.dropLast }

/-- The last part. -/
def name (p : Pathname) : String := p.parts.getLast?.getD ""

def join (p more : Pathname) : Pathname :=
  if more.isAbsolute then more else { p with parts := p.parts ++ more.parts }

end Pathname

end Gatehouse
