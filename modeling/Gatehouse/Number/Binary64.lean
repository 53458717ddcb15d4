namespace Gatehouse

/-- A double: `±mant · 2 ^ exp` with at most 53 bits in `mant`, an infinity, or no number. -/
inductive Binary64 where
  | finite (negative : Bool) (mant : Nat) (exp : Int)
  | infinite (negative : Bool)
  | nan
  deriving DecidableEq

/-- The whole number nearest to `num / den`; a half goes to the even neighbour. -/
def divNearest (num den : Nat) : Nat :=
  let q := num / den
  let r := num % den
  if 2 * r < den ∨ (2 * r = den ∧ q % 2 = 0) then q else q + 1

namespace Binary64

/-- The exponent of the last bit that a double keeps of `num / den`. -/
def lastBit (num den : Nat) : Int :=
  let guess : Int := (Nat.log2 num : Int) - Nat.log2 den - 52
  let full := den * Nat.pow 2 guess.toNat * Nat.pow 2 52 ≤ num * Nat.pow 2 (-guess).toNat
  max (if full then guess else guess - 1) (-1074)

/-- The double nearest to `±num / den`; a half goes to the even neighbour. -/
def ofRatio (negative : Bool) (num den : Nat) : Binary64 :=
  if num = 0 then .finite negative 0 (-1074)
  else
    let exp := lastBit num den
    let mant := divNearest (num * Nat.pow 2 (-exp).toNat) (den * Nat.pow 2 exp.toNat)
    let (mant, exp) :=
      if mant = Nat.pow 2 53 then (Nat.pow 2 52, exp + 1) else (mant, exp)
    if 971 < exp then .infinite negative else .finite negative mant exp

/-- The double nearest to `±coef · 10 ^ exp`. -/
def ofDecimal (negative : Bool) (coef : Nat) (exp : Int) : Binary64 :=
  let magnitude := ((Nat.toDigits 10 coef).length : Int) + exp
  if coef = 0 ∨ magnitude < -330 then .finite negative 0 (-1074)
  else if 310 < magnitude then .infinite negative
  else ofRatio negative (coef * Nat.pow 10 exp.toNat) (Nat.pow 10 (-exp).toNat)

def ofInt (i : Int) : Binary64 := ofRatio (decide (i < 0)) i.natAbs 1

/-- The numerator of `mant · 2 ^ exp`. -/
def numerator (mant : Nat) (exp : Int) : Nat := mant * Nat.pow 2 exp.toNat

def denominator (exp : Int) : Nat := Nat.pow 2 (-exp).toNat

def signed (negative : Bool) (n : Nat) : Int := if negative then -(n : Int) else n

def isZero : Binary64 → Bool
  | .finite _ mant _ => mant == 0
  | _ => false

/-- The double as a whole number, if it is one. -/
def toInt? : Binary64 → Option Int
  | .finite negative mant exp =>
    if numerator mant exp % denominator exp = 0 then
      some (signed negative (numerator mant exp / denominator exp))
    else none
  | _ => none

def neg : Binary64 → Binary64
  | .finite negative mant exp => .finite (!negative) mant exp
  | .infinite negative => .infinite (!negative)
  | .nan => .nan

def add : Binary64 → Binary64 → Binary64
  | .nan, _ | _, .nan => .nan
  | .infinite a, .infinite b => if a = b then .infinite a else .nan
  | .infinite a, _ | _, .infinite a => .infinite a
  | .finite a m e, .finite b n f =>
    let sum := signed a (numerator m e * denominator f) + signed b (numerator n f * denominator e)
    ofRatio (decide (sum < 0) || (a && b)) sum.natAbs (denominator e * denominator f)

def mul : Binary64 → Binary64 → Binary64
  | .nan, _ | _, .nan => .nan
  | .infinite a, .infinite b => .infinite (a != b)
  | .infinite a, .finite b m _ | .finite b m _, .infinite a =>
    if m = 0 then .nan else .infinite (a != b)
  | .finite a m e, .finite b n f =>
    ofRatio (a != b) (numerator m e * numerator n f) (denominator e * denominator f)

end Binary64

end Gatehouse
