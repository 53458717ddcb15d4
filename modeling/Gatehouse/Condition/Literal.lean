import Gatehouse.Number.Numeral
import Gatehouse.Text.Blank
import Gatehouse.Value

namespace Gatehouse

namespace Value

/-- Numbers, and texts that read as one. -/
def isNumeric : Value → Bool
  | int _ | float _ => true
  | text s => hasInk s && (readNumeral? s.toList).isSome
  | _ => false

/-- A value as it stands in an expression without quotes. -/
def bare : Value → String
  | bool b => if b then "true" else "false"
  | null => ""
  | v => v.str

end Value

/-- Puts a backslash before each apostrophe. -/
def escapeApostrophes (cs : List Char) : List Char :=
  cs.flatMap fun c => if c = '\'' then ['\\', '\''] else [c]

def quotedChars (cs : List Char) : List Char := '\'' :: escapeApostrophes cs ++ ['\'']

namespace Value

def quoted (v : Value) : String := String.ofList (quotedChars v.bare.toList)

/-- Numbers stand bare and all else in quotes. -/
def literal (v : Value) : String := if v.isNumeric then v.bare else v.quoted

end Value

end Gatehouse
