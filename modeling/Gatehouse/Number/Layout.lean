import Gatehouse.Number.Shortest

namespace Gatehouse

/-- Where the decimal point of a number goes, by the power of ten of its first digit. -/
structure DecimalLayout where
  /-- the first power that is written without an exponent -/
  leastPower : Int
  /-- the first power above that needs one again -/
  powerLimit : Int
  /-- digits of the exponent, at least -/
  exponentWidth : Nat

/-- Numbers from a ten-thousandth to below ten quadrillion are written out, others with an
exponent of two digits or more. -/
def documentLayout : DecimalLayout := ⟨-4, 16, 2⟩

def zeros (n : Nat) : List Char := List.replicate n '0'

def dropTrailingZeros (ds : List Char) : List Char := (ds.reverse.dropWhile (· == '0')).reverse

/-- The digits with the point after `places` of them and a digit on each side of it. -/
def placePoint (digits : List Char) (places : Int) : List Char :=
  if places ≤ 0 then '0' :: '.' :: zeros (-places).toNat ++ digits
  else
    let n := places.toNat
    if digits.length ≤ n then digits ++ zeros (n - digits.length) ++ ['.', '0']
    else digits.take n ++ '.' :: digits.drop n

def exponentChars (width : Nat) (power : Int) : List Char :=
  let digits := Nat.toDigits 10 power.natAbs
  'e' :: (if power < 0 then '-' else '+') :: zeros (width - digits.length) ++ digits

/-- The digits as the layout writes a number whose first digit counts `10 ^ power`. -/
def DecimalLayout.chars (layout : DecimalLayout) (digits : List Char) (power : Int) : List Char :=
  if layout.leastPower ≤ power ∧ power < layout.powerLimit then placePoint digits (power + 1)
  else
    (match digits with
      | [] => []
      | [d] => [d]
      | d :: rest => d :: '.' :: rest) ++ exponentChars layout.exponentWidth power

namespace Binary64

def magnitudeChars (layout : DecimalLayout) (mant : Nat) (exp : Int) : List Char :=
  if mant = 0 then placePoint ['0'] 1
  else
    let d := shortest mant exp
    let digits := Nat.toDigits 10 d.coef
    layout.chars (dropTrailingZeros digits) (d.exp + digits.length - 1)

def chars (layout : DecimalLayout) : Binary64 → List Char
  | .finite negative mant exp => (if negative then ['-'] else []) ++ magnitudeChars layout mant exp
  | .infinite negative => (if negative then ['-'] else []) ++ ['i', 'n', 'f']
  | .nan => ['n', 'a', 'n']

def text (x : Binary64) : String := String.ofList (x.chars documentLayout)

end Binary64

end Gatehouse
