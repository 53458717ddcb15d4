import Gatehouse.Calendar
import Gatehouse.CallDepth
import Gatehouse.Number.Layout
import Gatehouse.Text.Quoted

namespace Gatehouse

/-- What a document holds: scalars, lists, and maps whose keys may be any scalar. A list or map that
holds itself is a knot: inside, its number stands for it. -/
inductive Value where
  | null
  | bool (b : Bool)
  | int (i : Int)
  | float (x : Binary64)
  | text (s : String)
  | date (d : Date)
  | moment (m : Moment)
  | bytes (bs : List UInt8)
  | list (xs : List Value)
  | map (entries : List (Value × Value))
  | set (xs : List Value)
  | pair (first second : Value)
  | knot (n : Nat) (v : Value)
  | again (n : Nat) (isMap : Bool)

/-- Why a value cannot be written as text. -/
inductive ValueFault where
  /-- a number has more digits than are written -/
  | longNumber
  /-- lists and maps stand too deep inside one another -/
  | tooDeep
  deriving DecidableEq

namespace Value

def isTrue : Value → Bool
  | null => false
  | bool b => b
  | int i => i != 0
  | float x => !x.isZero
  | text s => s != ""
  | date _ | moment _ => true
  | bytes bs => !bs.isEmpty
  | list xs | set xs => !xs.isEmpty
  | map entries => !entries.isEmpty
  | pair _ _ | again _ _ => true
  | knot _ v => v.isTrue

/-- The word for the kind of a value. -/
def kind : Value → String
  | null => "NoneType"
  | bool _ => "bool"
  | int _ => "int"
  | float _ => "float"
  | text _ => "str"
  | date _ => "date"
  | moment _ => "datetime"
  | bytes _ => "bytes"
  | list _ => "list"
  | map _ => "dict"
  | set _ => "set"
  | pair _ _ => "tuple"
  | knot _ v => v.kind
  | again _ isMap => if isMap then "dict" else "list"

/-- The kind with the module that a calendar kind belongs to. -/
def qualifiedKind : Value → String
  | date _ => "datetime.date"
  | moment _ => "datetime.datetime"
  | v => v.kind

mutual

/-- Puts a value in the place of a number. -/
def tie (n : Nat) (whole : Value) : Value → Value
  | again m isMap => if m = n then whole else again m isMap
  | knot m v => if m = n then knot m v else knot m (tie n whole v)
  | list xs => list (tieItems n whole xs)
  | set xs => set (tieItems n whole xs)
  | map entries => map (tieEntries n whole entries)
  | pair a b => pair (tie n whole a) (tie n whole b)
  | v => v

def tieItems (n : Nat) (whole : Value) : List Value → List Value
  | [] => []
  | v :: rest => tie n whole v :: tieItems n whole rest

def tieEntries (n : Nat) (whole : Value) : List (Value × Value) → List (Value × Value)
  | [] => []
  | (k, v) :: rest => (k, tie n whole v) :: tieEntries n whole rest

end

/-- A knot as the list or map that it is. -/
def opened : Value → Value
  | knot n v => tie n (knot n v) v
  | v => v

/-- The entries of a map. -/
def entries? (v : Value) : Option (List (Value × Value)) :=
  match v.opened with
  | map entries => some entries
  | _ => none

/-- The items of a list or set. -/
def items? (v : Value) : Option (List Value) :=
  match v.opened with
  | list xs | set xs => some xs
  | _ => none

/-- The longest whole number that is written or read in base ten, in digits. -/
def mostDigits : Nat := 4300

def isLongNumber (i : Int) : Bool := decide (Nat.pow 10 mostDigits ≤ i.natAbs)

mutual

/-- Some number in a value is too long to be written. -/
def hasLongNumber : Value → Bool
  | int i => isLongNumber i
  | list xs | set xs => itemsHaveLong xs
  | map entries => entriesHaveLong entries
  | pair a b => hasLongNumber a || hasLongNumber b
  | knot _ v => hasLongNumber v
  | _ => false

def itemsHaveLong : List Value → Bool
  | [] => false
  | v :: rest => hasLongNumber v || itemsHaveLong rest

def entriesHaveLong : List (Value × Value) → Bool
  | [] => false
  | (k, v) :: rest => hasLongNumber k || hasLongNumber v || entriesHaveLong rest

end

mutual

/-- How many lists and maps stand inside one another. -/
def depth : Value → Nat
  | list xs | set xs => itemsDepth xs + 1
  | map entries => entriesDepth entries + 1
  | pair a b => max (depth a) (depth b) + 1
  | knot _ v => depth v
  | _ => 0

def itemsDepth : List Value → Nat
  | [] => 0
  | v :: rest => max (depth v) (itemsDepth rest)

def entriesDepth : List (Value × Value) → Nat
  | [] => 0
  | (_, v) :: rest => max (depth v) (entriesDepth rest)

end

/-- How deep the values are that are written: one call for each list or map, from the command line,
the compiler of conditions and the literal of a comparison down. -/
def mostDepth : Nat := levelsWithin 50 1

/-- Why a value cannot be written, if it cannot. -/
def fault? (v : Value) : Option ValueFault :=
  if mostDepth < v.depth then some .tooDeep
  else if v.hasLongNumber then some .longNumber
  else none

/-- How a list or map is shown inside itself. -/
def ellipsis (isMap : Bool) : String := if isMap then "\x7b...\x7d" else "[...]"

mutual

/-- The text of a value inside others; `around` are the numbers of the knots that it stands in. -/
def displayWithin (around : List Nat) : Value → String
  | null => "None"
  | bool b => if b then "True" else "False"
  | int i => toString i
  | float x => x.text
  | text s => displayText s
  | date d => d.display
  | moment m => m.display
  | bytes bs => displayBytes bs
  | list xs => "[" ++ commaSeparated (displayItems around xs) ++ "]"
  | map entries => "\x7b" ++ commaSeparated (displayEntries around entries) ++ "\x7d"
  | set [] => "set()"
  | set xs => "\x7b" ++ commaSeparated (displayItems around xs) ++ "\x7d"
  | pair a b => "(" ++ displayWithin around a ++ ", " ++ displayWithin around b ++ ")"
  | knot n v =>
    if around.contains n then ellipsis (v.kind == "dict") else displayWithin (n :: around) v
  | again _ isMap => ellipsis isMap

def displayItems (around : List Nat) : List Value → List String
  | [] => []
  | v :: rest => displayWithin around v :: displayItems around rest

def displayEntries (around : List Nat) : List (Value × Value) → List String
  | [] => []
  | (k, v) :: rest =>
    (displayWithin around k ++ ": " ++ displayWithin around v) :: displayEntries around rest

end

/-- The text of a value inside another one. -/
def display (v : Value) : String := v.displayWithin []

/-- The text of a value that stands alone. -/
def str : Value → String
  | text s => s
  | date d => d.text
  | moment m => m.text
  | v => v.display

/-- Numbers of equal worth, and moments that are the same instant, are one key. -/
def keyForm : Value → Value
  | bool b => int (if b then 1 else 0)
  | float x =>
    match x.toInt? with
    | some i => int i
    | none => float x
  | v => v

def sameKey (a b : Value) : Bool :=
  match a.keyForm, b.keyForm with
  | null, null => true
  | int i, int j => i == j
  | float x, float y => decide (x = y ∧ x ≠ .nan)
  | text s, text t => s == t
  | date d, date e => d == e
  | moment m, moment n => m.offset.isSome == n.offset.isSome && m.instant == n.instant
  | bytes bs, bytes cs => bs == cs
  | _, _ => false

/-- The last value given to a key stands where the key was first given. -/
def insertEntry (k v : Value) : List (Value × Value) → List (Value × Value)
  | [] => [(k, v)]
  | (k', v') :: rest => if k'.sameKey k then (k', v) :: rest else (k', v') :: insertEntry k v rest

def ofEntries (entries : List (Value × Value)) : Value :=
  map (entries.foldl (fun m e => insertEntry e.1 e.2 m) [])

/-- The value under a text key. -/
def field? (name : String) : List (Value × Value) → Option Value
  | [] => none
  | (text s, v) :: rest => if s = name then some v else field? name rest
  | _ :: rest => field? name rest

/-- Gives a text key a value, in its place if it is there and at the end if not. -/
def setField (name : String) (v : Value) (entries : List (Value × Value)) :
    List (Value × Value) :=
  insertEntry (text name) v entries

end Value

end Gatehouse
