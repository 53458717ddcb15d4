import Gatehouse.Calendar

namespace Gatehouse

namespace Yaml

/-- A date, maybe with a time of day, as it is written. -/
inductive Timestamp where
  | date (d : Date)
  | moment (m : Moment)

def digitsValue (ds : List Char) : Nat := ds.foldl (fun n d => 10 * n + (d.toNat - 0x30)) 0

/-- At least so many digits and at most so many, and what follows them. -/
def takeDigits (least most : Nat) (cs : List Char) : Option (List Char × List Char) :=
  let ds := (cs.take most).takeWhile Char.isDigit
  if ds.length < least then none else some (ds, cs.drop ds.length)

def takeMark (mark : Char) : List Char → Option (List Char)
  | c :: rest => if c = mark then some rest else none
  | [] => none

def dropSpaces (cs : List Char) : List Char := cs.dropWhile fun c => c == ' ' || c == '\t'

/-- The distance of a clock to universal time in seconds, or nothing. -/
def readOffset (cs : List Char) : Option (Option Int) :=
  match dropSpaces cs with
  | [] => if cs.isEmpty then some none else none
  | ['Z'] => some (some 0)
  | sign :: rest =>
    if sign = '+' ∨ sign = '-' then do
      let (hours, rest) ← takeDigits 1 2 rest
      let minutes ← match rest with
        | [] => some []
        | ':' :: rest => do
          let (minutes, rest) ← takeDigits 2 2 rest
          if rest.isEmpty then some minutes else none
        | _ => none
      let seconds : Int := (digitsValue hours * 60 + digitsValue minutes) * 60
      some (some (if sign = '-' then -seconds else seconds))
    else none

/-- A fraction of a second as millionths; further digits are dropped. -/
def microseconds (ds : List Char) : Nat :=
  digitsValue ((ds ++ List.replicate 6 '0').take 6)

/-- Reads a time of day after what parts it from the date. -/
def readTime (date : Date) (cs : List Char) : Option Moment := do
  let (hour, cs) ← takeDigits 1 2 cs
  let (minute, cs) ← takeDigits 2 2 (← takeMark ':' cs)
  let (second, cs) ← takeDigits 2 2 (← takeMark ':' cs)
  let (fraction, cs) := match cs with
    | '.' :: rest => (rest.takeWhile Char.isDigit, rest.dropWhile Char.isDigit)
    | cs => ([], cs)
  let offset ← readOffset cs
  some ⟨date, digitsValue hour, digitsValue minute, digitsValue second, microseconds fraction,
    offset⟩

/-- Reads a date or a date with a time; without a time `least` digits of the month and of the day
are needed. -/
def readTimestamp (least : Nat) (cs : List Char) : Option Timestamp := do
  let (year, cs) ← takeDigits 4 4 cs
  let (month, cs) ← takeDigits 1 2 (← takeMark '-' cs)
  let (day, cs) ← takeDigits 1 2 (← takeMark '-' cs)
  let date : Date := ⟨digitsValue year, digitsValue month, digitsValue day⟩
  match cs with
  | [] => if least ≤ month.length ∧ least ≤ day.length then some (.date date) else none
  | c :: rest =>
    if c = 'T' ∨ c = 't' then (readTime date rest).map .moment
    else if c = ' ' ∨ c = '\t' then (readTime date (dropSpaces rest)).map .moment
    else none

end Yaml

end Gatehouse
