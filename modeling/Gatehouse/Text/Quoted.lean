import Gatehouse.Text.CodePoint
import Gatehouse.Text.Printable

namespace Gatehouse

/-- How a nested value is shown: apostrophes unless only they would need an escape. -/
def displayQuote (cs : List Char) : Char :=
  if '\'' ∈ cs ∧ '"' ∉ cs then '"' else '\''

/-- The number in base sixteen, filled with zeros to a width. -/
def hexPadded (width n : Nat) : List Char :=
  let digits := Nat.toDigits 16 n
  List.replicate (width - digits.length) '0' ++ digits

def displayNumber (n : Nat) : List Char :=
  if n < 0x100 then '\\' :: 'x' :: hexPadded 2 n
  else if n < 0x10000 then '\\' :: 'u' :: hexPadded 4 n
  else '\\' :: 'U' :: hexPadded 8 n

/-- One code point inside the quotes; what is not shown as itself is written by its number. -/
def displayPoint (shown : Char → Bool) (quote : Char) (n : Nat) : List Char :=
  let c := Char.ofNat n
  if isHalf n then displayNumber n
  else if c = quote ∨ c = '\\' then ['\\', c]
  else if c = '\n' then ['\\', 'n']
  else if c = '\r' then ['\\', 'r']
  else if c = '\t' then ['\\', 't']
  else if shown c then [c]
  else displayNumber n

def displayQuoted (shown : Char → Bool) (cs : List Char) : List Char :=
  let quote := displayQuote cs
  quote :: (points cs).flatMap (displayPoint shown quote) ++ [quote]

def displayText (s : String) : String := String.ofList (displayQuoted isPrintable s.toList)

/-- Bytes stand after a `b`, those that print among the first 128 as themselves. -/
def displayBytes (bs : List UInt8) : String :=
  String.ofList ('b' :: displayQuoted (fun c => decide (0x20 ≤ c.toNat ∧ c.toNat < 0x7f))
    (bs.map fun b => Char.ofNat b.toNat))

end Gatehouse
