import Gatehouse.Text.CodePoint

namespace Gatehouse

/-- The length of the common start of two texts. -/
def commonStart : List Nat → List Nat → Nat
  | a :: as, b :: bs => if a = b then commonStart as bs + 1 else 0
  | _, _ => 0

/-- A piece that two texts share: where it starts in each, and its length. -/
structure SharedPiece where
  left : Nat
  right : Nat
  length : Nat

def SharedPiece.longer (p q : SharedPiece) : SharedPiece := if p.length < q.length then q else p

/-- The longest shared piece; of several the one that starts first in the left text, then in the
right one. -/
def longestShared (as bs : List Nat) : SharedPiece :=
  (List.range as.length).foldl (fun best i =>
    (List.range bs.length).foldl (fun best j =>
      best.longer ⟨i, j, commonStart (as.drop i) (bs.drop j)⟩) best) ⟨0, 0, 0⟩

/-- The length of the longest shared piece and of those to its left and right. -/
def sharedCount : Nat → List Nat → List Nat → Nat
  | 0, _, _ => 0
  | n + 1, as, bs =>
    let p := longestShared as bs
    if p.length = 0 then 0
    else p.length + sharedCount n (as.take p.left) (bs.take p.right)
      + sharedCount n (as.drop (p.left + p.length)) (bs.drop (p.right + p.length))

/-- How alike a word is to one that is meant: twice the shared characters, out of all. -/
structure Likeness where
  word : String
  shared : Nat
  total : Nat

def likeness (given word : String) : Likeness :=
  let as := points word.toList
  let bs := points given.toList
  ⟨word, 2 * sharedCount (as.length + 1) as bs, as.length + bs.length⟩

/-- At least three fifths of the characters are shared. -/
def Likeness.isClose (l : Likeness) : Bool := decide (3 * l.total ≤ 5 * l.shared)

def Likeness.atLeast (l m : Likeness) : Bool :=
  decide (m.shared * l.total < l.shared * m.total)
    || (m.shared * l.total == l.shared * m.total && decide (m.word ≤ l.word))

/-- The three words that are most like the given one, in alphabetical order. -/
def closestWords (words : List String) (given : String) : List String :=
  let close := (words.map (likeness given)).filter Likeness.isClose
  ((close.mergeSort Likeness.atLeast).take 3 |>.map Likeness.word).mergeSort

end Gatehouse
