import Gatehouse.Number.Numeral
import Gatehouse.Text.Casing
import Gatehouse.Value
import Gatehouse.Yaml.Base64
import Gatehouse.Yaml.Scalar
import Gatehouse.Yaml.Tag

namespace Gatehouse

namespace Yaml

def boolValue (text : String) : Except Fault Bool :=
  let word := lowerText text
  match boolWords.lookup word with
  | some b => .ok b
  | none => .error (.notBool word)

/-- The letter that may stand behind a zero to name the base. -/
def baseLetters : List (Nat × Char) := [(2, 'b'), (8, 'o'), (16, 'x')]

def dropBaseMark (base : Nat) : List Char → List Char
  | '0' :: c :: rest =>
    if baseLetters.lookup base = some c.toLower then rest else '0' :: c :: rest
  | cs => cs

def digitIn? (base : Nat) (c : Char) : Option Nat :=
  (hexValue? c).bind fun d => if d < base then some d else none

/-- Reads a whole number with its sign, the mark of its base, and blanks around it. -/
def wholeNumber (base : Nat) (word : List Char) : Except Fault Int :=
  let (negative, cs) := splitSign ((trimNumeral word).map plainDigit)
  let digits := dropBaseMark base cs
  let count := (digits.takeWhile fun c => (digitIn? base c).isSome).length
  if base = 10 ∧ Value.mostDigits < count then .error (.tooManyDigits count)
  else if digits = [] ∨ count < digits.length then .error (.notInt base (String.ofList word))
  else .ok (Binary64.signed negative
    (digits.foldl (fun n c => base * n + (digitIn? base c).getD 0) 0))

def withoutBars (text : String) : List Char := text.toList.filter (· ≠ '_')

def signedInt (negative : Bool) (i : Int) : Int := if negative then -i else i

def intValue (text : String) : Except Fault Int :=
  let (negative, cs) := splitSign (withoutBars text)
  let magnitude : Except Fault Int := match cs with
    | [] => .error .emptyNumber
    | ['0'] => .ok 0
    | '0' :: 'b' :: digits => wholeNumber 2 digits
    | '0' :: 'x' :: digits => wholeNumber 16 digits
    | '0' :: _ => wholeNumber 8 cs
    | _ =>
      if ':' ∈ cs then
        (splitChars (· == ':') cs).foldlM
          (fun sum part => return sum * 60 + (← wholeNumber 10 part)) 0
      else wholeNumber 10 cs
  magnitude.map (signedInt negative)

def floatPart (cs : List Char) : Except Fault Binary64 :=
  match readNumeral? cs with
  | some x => .ok x
  | none => .error (.notFloat (String.ofList cs))

/-- The power of sixty as a double. -/
def powerOfSixty (i : Nat) : Except Fault Binary64 :=
  match Binary64.ofInt (Nat.pow 60 i) with
  | .infinite _ => .error .hugePower
  | power => .ok power

/-- The sum of the places, the last one first, each times its power of sixty. -/
def sexagesimal (places : List Binary64) : Except Fault Binary64 :=
  places.reverse.zipIdx.foldlM
    (fun sum (place, i) => return sum.add (place.mul (← powerOfSixty i))) (.finite false 0 (-1074))

def floatValue (text : String) : Except Fault Binary64 :=
  let whole := lowerChars (withoutBars text)
  let (negative, cs) := splitSign whole
  let magnitude : Except Fault Binary64 :=
    if whole = [] then .error .emptyNumber
    else if cs = ".inf".toList then .ok (.infinite false)
    else if cs = ".nan".toList then .ok .nan
    else if ':' ∈ cs then (splitChars (· == ':') cs).mapM floatPart >>= sexagesimal
    else floatPart cs
  magnitude.map fun x => if negative then x.neg else x

def bytesValue (text : String) : Except Fault (List UInt8) :=
  let cs := text.toList
  if cs.all fun c => decide (c.toNat < 0x80) then
    match base64? cs with
    | some bytes => .ok bytes
    | none => .error .malformed
  else .error .malformed

/-- A date or a moment that is in the calendar; one line feed may stand at its end. -/
def timestampValue (text : String) : Except Fault Value :=
  let cs := text.toList
  match readTimestamp 1 (if cs.getLast? = some '\n' then cs.dropLast else cs) with
  | some (.date d) => (d.check.mapError .calendar).map fun _ => .date d
  | some (.moment m) => (m.check.mapError .calendar).map fun _ => .moment m
  | none => .error .notTimestamp

/-- The value of a text that is tagged. -/
def scalarValue (tag : Tag) (text : String) : Except Fault Value :=
  match tag with
  | .null => .ok .null
  | .bool => (boolValue text).map .bool
  | .int => (intValue text).map .int
  | .float => (floatValue text).map .float
  | .binary => (bytesValue text).map .bytes
  | .timestamp => timestampValue text
  | .text => .ok (.text text)
  | .sequence | .mapping | .set | .orderedMap | .pairs | .merge | .value | .other =>
    .error .malformed

end Yaml

end Gatehouse
