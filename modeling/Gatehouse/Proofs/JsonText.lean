import Gatehouse.Number.Numeral
import Gatehouse.Yaml.Node
import Gatehouse.Yaml.Scan

namespace Gatehouse

namespace Json

/-- What may stand between the parts. -/
inductive Blank where
  | space
  | tab
  | lineFeed
  | carriageReturn
  deriving DecidableEq

def Blank.char : Blank → Char
  | space => ' '
  | tab => '\t'
  | lineFeed => '\n'
  | carriageReturn => '\r'

def blankChars (bs : List Blank) : List Char := bs.map Blank.char

/-- The whole part of a numeral has no zero before other digits. -/
inductive Whole where
  | zero
  | led (first : Fin 9) (rest : List (Fin 10))

def digitChars (ds : List (Fin 10)) : List Char := ds.map fun d => Nat.digitChar d.val

def Whole.chars : Whole → List Char
  | zero => ['0']
  | led first rest => Nat.digitChar (first.val + 1) :: digitChars rest

/-- A power of ten: its letter, its sign if it has one, and its digits. -/
structure Exponent where
  isCapital : Bool
  isNegative : Option Bool
  first : Fin 10
  rest : List (Fin 10)

namespace Exponent

def digits (e : Exponent) : List Char := digitChars (e.first :: e.rest)

def signChars (e : Exponent) : List Char :=
  e.isNegative.toList.map fun negative => if negative then '-' else '+'

def chars (e : Exponent) : List Char :=
  (if e.isCapital then 'E' else 'e') :: (e.signChars ++ e.digits)

def power (e : Exponent) : Int :=
  Binary64.signed (e.isNegative.getD false) (Nat.ofDigitChars 10 e.digits 0)

end Exponent

structure Numeral where
  negative : Bool
  whole : Whole
  /-- the digits behind the point, of which there is one at least -/
  fraction : Option (Fin 10 × List (Fin 10))
  exponent : Option Exponent

namespace Numeral

def fractionDigits (n : Numeral) : List Char :=
  match n.fraction with
  | some (first, rest) => digitChars (first :: rest)
  | none => []

def fractionChars (n : Numeral) : List Char :=
  if n.fraction.isSome then '.' :: n.fractionDigits else []

def exponentChars (n : Numeral) : List Char := (n.exponent.map Exponent.chars).getD []

/-- The characters behind the sign. -/
def magnitude (n : Numeral) : List Char := n.whole.chars ++ (n.fractionChars ++ n.exponentChars)

def chars (n : Numeral) : List Char := (if n.negative then ['-'] else []) ++ n.magnitude

def isWhole (n : Numeral) : Bool := n.fraction.isNone && n.exponent.isNone

/-- Whole numbers are kept; others become the nearest double. -/
def value (n : Numeral) : Value :=
  if n.isWhole then .int (Binary64.signed n.negative (Nat.ofDigitChars 10 n.whole.chars 0))
  else .float (.ofDecimal n.negative (Nat.ofDigitChars 10 (n.whole.chars ++ n.fractionDigits) 0)
    ((n.exponent.map Exponent.power).getD 0 - n.fractionDigits.length))

/-- The numeral has a power of ten without a sign or without a point before it. -/
def isBare (n : Numeral) : Bool :=
  n.exponent.any fun e => n.fraction.isNone || e.isNegative.isNone

/-- A bare numeral is loaded as a text. -/
def loaded (n : Numeral) : Value := if n.isBare then .text (String.ofList n.chars) else n.value

/-- A whole number can have too many digits to be loaded. -/
def isReadable (n : Numeral) : Bool :=
  !n.isWhole || decide (n.whole.chars.length ≤ Value.mostDigits)

end Numeral

structure HexDigit where
  value : Fin 16
  isCapital : Bool

def HexDigit.char (d : HexDigit) : Char :=
  if d.isCapital then (Nat.digitChar d.value.val).toUpper else Nat.digitChar d.value.val

/-- Characters that stand for themselves between the quotes. -/
def isRaw (c : Char) : Bool := decide (' ' ≤ c) && c != '"' && c != '\\'

/-- Letters behind a backslash, and what they stand for. -/
def shortEscapes : List (Char × Char) :=
  [('"', '"'), ('\\', '\\'), ('/', '/'), ('b', '\x08'), ('f', '\x0c'), ('n', '\n'), ('r', '\r'),
    ('t', '\t')]

/-- One part of a text: a character, an escape, or a number in four digits. -/
inductive Piece where
  | raw (c : Char) (h : isRaw c = true)
  | short (e : Char × Char) (h : e ∈ shortEscapes)
  | unit (a b c d : HexDigit)

namespace Piece

def chars : Piece → List Char
  | raw c _ => [c]
  | short e _ => ['\\', e.1]
  | unit a b c d => ['\\', 'u', a.char, b.char, c.char, d.char]

/-- The number that an escape gives. -/
def number (a b c d : HexDigit) : Nat :=
  16 * (16 * (16 * a.value.val + b.value.val) + c.value.val) + d.value.val

/-- What the part stands for by itself. -/
def loaded : Piece → List Char
  | raw c _ => [c]
  | short e _ => [e.2]
  | unit a b c d => spellPoint (number a b c d)

/-- The first surrogate of a character beyond the first plane. -/
def high? : Piece → Option Nat
  | unit a b c d =>
    if 0xd800 ≤ number a b c d ∧ number a b c d < 0xdc00 then some (number a b c d) else none
  | _ => none

/-- The second surrogate. -/
def low? : Piece → Option Nat
  | unit a b c d =>
    if 0xdc00 ≤ number a b c d ∧ number a b c d < 0xe000 then some (number a b c d) else none
  | _ => none

/-- The character cannot be read, or it ends a line. -/
def isReadable : Piece → Bool
  | raw c _ => Yaml.isAllowed c && !Yaml.isBreak c
  | _ => true

end Piece

def textChars (ps : List Piece) : List Char := '"' :: (ps.flatMap Piece.chars ++ ['"'])

def loadedChars (ps : List Piece) : List Char := ps.flatMap Piece.loaded

/-- The character that a pair of surrogates stands for. -/
def joined? (p q : Piece) : Option Nat :=
  p.high?.bind fun high => q.low?.map fun low => 0x10000 + (high - 0xd800) * 0x400 + (low - 0xdc00)

/-- Two escapes in a row that give the surrogates of one character stand for it. -/
def decodedChars : List Piece → List Char
  | [] => []
  | [p] => p.loaded
  | p :: q :: rest =>
    match joined? p q with
    | some n => spellPoint n ++ decodedChars rest
    | none => p.loaded ++ decodedChars (q :: rest)

/-- No character is written as two surrogates. -/
def isUnjoined : List Piece → Bool
  | p :: q :: rest => (joined? p q).isNone && isUnjoined (q :: rest)
  | _ => true

/-- What holds nothing else. -/
inductive Leaf where
  | null
  | bool (b : Bool)
  | number (n : Numeral)
  | text (ps : List Piece)

namespace Leaf

def chars : Leaf → List Char
  | null => "null".toList
  | bool true => "true".toList
  | bool false => "false".toList
  | number n => n.chars
  | text ps => textChars ps

def value : Leaf → Value
  | null => .null
  | bool b => .bool b
  | number n => n.value
  | text ps => .text (String.ofList (decodedChars ps))

def loaded : Leaf → Value
  | null => .null
  | bool b => .bool b
  | number n => n.loaded
  | text ps => .text (String.ofList (loadedChars ps))

def isReadable : Leaf → Bool
  | number n => n.isReadable
  | text ps => ps.all Piece.isReadable
  | _ => true

/-- What is loaded is the value. -/
def isFaithful : Leaf → Bool
  | number n => !n.isBare
  | text ps => isUnjoined ps
  | _ => true

end Leaf

end Json

mutual

/-- A JSON document as it is written. -/
inductive Json where
  | leaf (l : Json.Leaf)
  | list (items : JsonItems)
  | map (entries : JsonEntries)

/-- The rest of a list, up to its closing bracket. -/
inductive JsonItems where
  | close (blanks : List Json.Blank)
  | item (before : List Json.Blank) (v : Json) (after : List Json.Blank) (rest : JsonItems)

/-- The rest of a map, up to its closing bracket. -/
inductive JsonEntries where
  | close (blanks : List Json.Blank)
  | entry (before : List Json.Blank) (key : List Json.Piece) (middle between : List Json.Blank)
      (v : Json) (after : List Json.Blank) (rest : JsonEntries)

end

namespace Json

/-- Stands before all parts but the first one. -/
def separator {α : Type} (comma : α) (isFirst : Bool) : List α := if isFirst then [] else [comma]

end Json

mutual

def Json.chars : Json → List Char
  | .leaf l => l.chars
  | .list items => '[' :: items.chars true
  | .map entries => '{' :: entries.chars true

def JsonItems.chars (isFirst : Bool) : JsonItems → List Char
  | .close blanks => Json.blankChars blanks ++ [']']
  | .item before v after rest =>
    Json.separator ',' isFirst ++ (Json.blankChars before
      ++ (v.chars ++ (Json.blankChars after ++ rest.chars false)))

def JsonEntries.chars (isFirst : Bool) : JsonEntries → List Char
  | .close blanks => Json.blankChars blanks ++ ['}']
  | .entry before key middle between v after rest =>
    Json.separator ',' isFirst ++ (Json.blankChars before ++ (Json.textChars key
      ++ (Json.blankChars middle ++ ':' :: (Json.blankChars between
        ++ (v.chars ++ (Json.blankChars after ++ rest.chars false))))))

end

mutual

/-- The value by the rules of JSON; of entries with one key the last one counts. -/
def Json.value : Json → Value
  | .leaf l => l.value
  | .list items => .list items.values
  | .map entries => .ofEntries entries.values

def JsonItems.values : JsonItems → List Value
  | .close _ => []
  | .item _ v _ rest => v.value :: rest.values

def JsonEntries.values : JsonEntries → List (Value × Value)
  | .close _ => []
  | .entry _ key _ _ v _ rest =>
    (.text (String.ofList (Json.decodedChars key)), v.value) :: rest.values

end

mutual

/-- The value that is loaded. -/
def Json.loaded : Json → Value
  | .leaf l => l.loaded
  | .list items => .list items.loaded
  | .map entries => .ofEntries entries.loaded

def JsonItems.loaded : JsonItems → List Value
  | .close _ => []
  | .item _ v _ rest => v.loaded :: rest.loaded

def JsonEntries.loaded : JsonEntries → List (Value × Value)
  | .close _ => []
  | .entry _ key _ _ v _ rest =>
    (.text (String.ofList (Json.loadedChars key)), v.loaded) :: rest.loaded

end

mutual

/-- No numeral in the document is bare, and no character in it is written as two surrogates. -/
def Json.isFaithful : Json → Bool
  | .leaf l => l.isFaithful
  | .list items => items.isFaithful
  | .map entries => entries.isFaithful

def JsonItems.isFaithful : JsonItems → Bool
  | .close _ => true
  | .item _ v _ rest => v.isFaithful && rest.isFaithful

def JsonEntries.isFaithful : JsonEntries → Bool
  | .close _ => true
  | .entry _ key _ _ v _ rest => Json.isUnjoined key && v.isFaithful && rest.isFaithful

end

namespace Json

/-- There is no tab among the blanks. -/
def isSpaced (bs : List Blank) : Bool := bs.all (· != .tab)

/-- How many code points a text holds, those that take two characters counting once. -/
def width (cs : List Char) : Nat := cs.countP fun c => !isLead c

/-- A colon stands on the line of its key and not too far from where the key begins. -/
def isKeyReadable (key : List Piece) (middle : List Blank) : Bool :=
  key.all Piece.isReadable && middle.all (· == .space)
    && decide (width (textChars key) + middle.length ≤ 1024)

end Json

mutual

/-- The JSON document is laid out so that it can be loaded, if it is not too deep. -/
def Json.isReadable : Json → Bool
  | .leaf l => l.isReadable
  | .list items => items.isReadable
  | .map entries => entries.isReadable

def JsonItems.isReadable : JsonItems → Bool
  | .close blanks => Json.isSpaced blanks
  | .item before v after rest =>
    Json.isSpaced before && v.isReadable && Json.isSpaced after && rest.isReadable

def JsonEntries.isReadable : JsonEntries → Bool
  | .close blanks => Json.isSpaced blanks
  | .entry before key middle between v after rest =>
    Json.isSpaced before && Json.isKeyReadable key middle && Json.isSpaced between
      && v.isReadable && Json.isSpaced after && rest.isReadable

end

mutual

/-- How many lists and maps stand inside one another. -/
def Json.depth : Json → Nat
  | .leaf _ => 0
  | .list items => items.depth + 1
  | .map entries => entries.depth + 1

def JsonItems.depth : JsonItems → Nat
  | .close _ => 0
  | .item _ v _ rest => max v.depth rest.depth

def JsonEntries.depth : JsonEntries → Nat
  | .close _ => 0
  | .entry _ _ _ _ v _ rest => max v.depth rest.depth

end

end Gatehouse
