import Gatehouse.Number.Binary64
import Gatehouse.Text.Blank
import Gatehouse.Text.Digit

namespace Gatehouse

/-- Blanks that may stand around a numeral: the separator controls are not among them. -/
def isNumeralBlank (c : Char) : Bool :=
  isBlank c && !decide (0x1c ≤ c.toNat ∧ c.toNat ≤ 0x1f)

def trimNumeral (cs : List Char) : List Char :=
  ((cs.dropWhile isNumeralBlank).reverse.dropWhile isNumeralBlank).reverse

/-- A digit of any script as the digit of the same value between `0` and `9`. -/
def plainDigit (c : Char) : Char :=
  match digitValue? c with
  | some v => Char.ofNat (0x30 + v)
  | none => c

/-- Takes out the underscores, each of which must stand between two digits. -/
def joinGroups (before : Option Char) : List Char → Option (List Char)
  | [] => some []
  | '_' :: rest =>
    if before.any Char.isDigit && rest.head?.any Char.isDigit then joinGroups (some '_') rest
    else none
  | c :: rest => (joinGroups (some c) rest).map (c :: ·)

/-- A sign, if one leads, and the rest. -/
def splitSign : List Char → Bool × List Char
  | '-' :: rest => (true, rest)
  | '+' :: rest => (false, rest)
  | cs => (false, cs)

/-- The power of ten after the digits of a numeral: nothing, or `e` and a whole number. -/
def readExponent : List Char → Option Int
  | [] => some 0
  | c :: rest =>
    if c = 'e' ∨ c = 'E' then
      let (negative, digits) := splitSign rest
      if digits ≠ [] ∧ digits.all Char.isDigit then
        some (Binary64.signed negative (Nat.ofDigitChars 10 digits 0))
      else none
    else none

/-- The digits behind a point, if it comes first, and the rest. -/
def splitFraction : List Char → List Char × List Char
  | '.' :: rest => (rest.takeWhile Char.isDigit, rest.dropWhile Char.isDigit)
  | rest => ([], rest)

theorem splitFraction_of_unpointed {cs : List Char} (h : cs.head? ≠ some '.') :
    splitFraction cs = ([], cs) := by
  unfold splitFraction
  split
  next => exact absurd rfl h
  next => rfl

/-- Digits with an optional point among or around them, and an optional power of ten. -/
def readMagnitude (negative : Bool) (cs : List Char) : Option Binary64 :=
  let whole := cs.takeWhile Char.isDigit
  let fraction := splitFraction (cs.dropWhile Char.isDigit)
  if whole = [] ∧ fraction.1 = [] then none
  else (readExponent fraction.2).map fun power =>
    .ofDecimal negative (Nat.ofDigitChars 10 (whole ++ fraction.1) 0) (power - fraction.1.length)

theorem span_digits {ds left : List Char} (digits : ∀ c ∈ ds, c.isDigit = true)
    (ends : ∀ c, left.head? = some c → c.isDigit = false) :
    (ds ++ left).takeWhile Char.isDigit = ds ∧ (ds ++ left).dropWhile Char.isDigit = left := by
  rw [List.takeWhile_append_of_pos digits, List.dropWhile_append_of_pos digits]
  cases left with
  | nil => exact ⟨List.append_nil ds, rfl⟩
  | cons c left => simp [ends c rfl]

theorem readMagnitude_append (negative : Bool) {ds left : List Char} (nonempty : ds ≠ [])
    (digits : ∀ c ∈ ds, c.isDigit = true) (ends : ∀ c, left.head? = some c → c.isDigit = false) :
    readMagnitude negative (ds ++ left) = (readExponent (splitFraction left).2).map fun power =>
      .ofDecimal negative (Nat.ofDigitChars 10 (ds ++ (splitFraction left).1) 0)
        (power - (splitFraction left).1.length) := by
  obtain ⟨front, back⟩ := span_digits digits ends
  simp only [readMagnitude, front, back]
  exact if_neg fun none => nonempty none.1

/-- Reads a numeral: blanks around it, digits of any script, grouping underscores, the words for
infinity and for no number. -/
def readNumeral? (cs : List Char) : Option Binary64 := do
  let cs ← joinGroups none ((trimNumeral cs).map plainDigit)
  let (negative, body) := splitSign cs
  let word := String.ofList (body.map Char.toLower)
  if word = "inf" ∨ word = "infinity" then some (.infinite negative)
  else if word = "nan" then some .nan
  else readMagnitude negative body

end Gatehouse
