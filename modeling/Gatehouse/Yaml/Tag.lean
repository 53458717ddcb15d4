import Gatehouse.Text.Search
import Gatehouse.Yaml.Timestamp

namespace Gatehouse

namespace Yaml

/-- What a node stands for. -/
inductive Tag where
  | null
  | bool
  | int
  | float
  | binary
  | timestamp
  | text
  | sequence
  | mapping
  | set
  | orderedMap
  | pairs
  | merge
  | value
  | other
  deriving DecidableEq

namespace Tag

def tagPrefix : String := "tag:yaml.org,2002:"

def names : List (String × Tag) :=
  [("null", null), ("bool", bool), ("int", int), ("float", float), ("binary", binary),
    ("timestamp", timestamp), ("str", text), ("seq", sequence), ("map", mapping), ("set", set),
    ("omap", orderedMap), ("pairs", pairs), ("merge", merge), ("value", value)]

/-- What has the tag holds other values. -/
def isCollection : Tag → Bool
  | sequence | mapping | set | orderedMap | pairs => true
  | _ => false

/-- What has the tag stands for a value by itself. -/
def isScalar : Tag → Bool
  | null | bool | int | float | binary | timestamp | text => true
  | _ => false

def ofUri (uri : String) : Tag :=
  ((names.find? fun (name, _) => tagPrefix ++ name == uri).map Prod.snd).getD other

end Tag

def boolWords : List (String × Bool) :=
  [("yes", true), ("no", false), ("true", true), ("false", false), ("on", true), ("off", false)]

/-- The words for truth values, in small letters, capitals, or with one capital first. -/
def isBoolWord (cs : List Char) : Bool :=
  boolWords.any fun (word, _) =>
    let small := word.toList
    let capitals := small.map Char.toUpper
    cs == small || cs == capitals || cs == capitals.take 1 ++ small.drop 1

def isNullWord (cs : List Char) : Bool :=
  ["", "~", "null", "Null", "NULL"].any fun word => cs == word.toList

def dropSign : List Char → List Char
  | c :: rest => if c = '-' ∨ c = '+' then rest else c :: rest
  | [] => []

def isDigitOrBar (c : Char) : Bool := c.isDigit || c == '_'

def allSome (p : Char → Bool) (cs : List Char) : Bool := !cs.isEmpty && cs.all p

/-- A digit, then digits and underscores. -/
def isGrouped : List Char → Bool
  | c :: rest => c.isDigit && rest.all isDigitOrBar
  | [] => false

/-- One or two digits below sixty. -/
def isSixtieth : List Char → Bool
  | [c] => c.isDigit
  | [c, d] => decide ('0' ≤ c ∧ c ≤ '5') && d.isDigit
  | _ => false

/-- Colons part a number in base sixty. -/
def isSexagesimal (cs : List Char) : Bool :=
  match splitChars (· == ':') cs with
  | first :: second :: more => isGrouped first && (second :: more).all isSixtieth
  | _ => false

def isHexOrBar (c : Char) : Bool :=
  isDigitOrBar c || decide ('a' ≤ c ∧ c ≤ 'f') || decide ('A' ≤ c ∧ c ≤ 'F')

def isIntWord (cs : List Char) : Bool :=
  match dropSign cs with
  | '0' :: 'b' :: rest => allSome (fun c => c == '0' || c == '1' || c == '_') rest
  | '0' :: 'x' :: rest => allSome isHexOrBar rest
  | '0' :: rest => rest.all fun c => decide ('0' ≤ c ∧ c ≤ '7') || c == '_'
  | rest => isGrouped rest || isSexagesimal rest

/-- Nothing, or a power of ten with its sign. -/
def isSignedExponent : List Char → Bool
  | [] => true
  | e :: sign :: rest =>
    (e == 'e' || e == 'E') && (sign == '+' || sign == '-') && allSome Char.isDigit rest
  | _ => false

def isPointed (whole : List Char → Bool) (cs : List Char) : Bool :=
  let front := cs.takeWhile (· != '.')
  match cs.dropWhile (· != '.') with
  | _ :: rest => whole front && isSignedExponent (rest.dropWhile isDigitOrBar)
  | [] => false

def isFloatWord (cs : List Char) : Bool :=
  let unsigned := dropSign cs
  isPointed isGrouped unsigned
    || (match cs with
      | '.' :: d :: rest => d.isDigit && isSignedExponent (rest.dropWhile isDigitOrBar)
      | _ => false)
    || (isSexagesimal (unsigned.takeWhile (· != '.'))
      && (match unsigned.dropWhile (· != '.') with
        | _ :: rest => rest.all isDigitOrBar
        | [] => false))
    || [".inf", ".Inf", ".INF"].any (fun word => unsigned == word.toList)
    || [".nan", ".NaN", ".NAN"].any (fun word => cs == word.toList)

/-- What a scalar without quotes and tag stands for. -/
def plainTag (cs : List Char) : Tag :=
  if isBoolWord cs then .bool
  else if isFloatWord cs then .float
  else if isIntWord cs then .int
  else if cs == "<<".toList then .merge
  else if isNullWord cs then .null
  else if (readTimestamp 2 cs).isSome then .timestamp
  else if cs == ['='] then .value
  else .text

end Yaml

end Gatehouse
