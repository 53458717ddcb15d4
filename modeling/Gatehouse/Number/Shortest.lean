import Gatehouse.Number.Binary64

namespace Gatehouse

/-- The number `coef · 10 ^ exp`. -/
structure Decimal where
  coef : Nat
  exp : Int

namespace Binary64

/-- The `k` with `10 ^ (k - 1) ≤ num / den < 10 ^ k`. -/
def decimalMagnitude (num den : Nat) : Int :=
  if den ≤ num then (Nat.toDigits 10 (num / den)).length
  else
    let d := (Nat.toDigits 10 (den / num)).length
    if num * Nat.pow 10 (d - 1) = den then 2 - (d : Int) else 1 - (d : Int)

/-- Of the two multiples of `10 ^ exp` around the double, the nearer one that reads back; a tie
goes to the even one. -/
def nearestOnGrid? (mant : Nat) (binExp : Int) (exp : Int) : Option Decimal :=
  let num := numerator mant binExp * Nat.pow 10 (-exp).toNat
  let den := denominator binExp * Nat.pow 10 exp.toNat
  let below := num / den
  let lowFirst := 2 * num < (2 * below + 1) * den ∨
    (2 * num = (2 * below + 1) * den ∧ below % 2 = 0)
  let order := if lowFirst then [below, below + 1] else [below + 1, below]
  (order.find? fun coef => ofDecimal false coef exp == .finite false mant binExp).map (⟨·, exp⟩)

/-- The fewest digits that read back as the same double, and of those the nearest. -/
def shortest (mant : Nat) (exp : Int) : Decimal :=
  let magnitude := decimalMagnitude (numerator mant exp) (denominator exp)
  match (List.range 17).findSome? fun (n : Nat) => nearestOnGrid? mant exp (magnitude - 1 - n) with
  | some d => d
  | none => ⟨mant, 0⟩

end Binary64

end Gatehouse
