import Gatehouse.Text.CodePoint

namespace Gatehouse

/-- The first surrogates in a text, which have no form in bytes: where they start, how many stand
there together, and the first of them. -/
structure EncodingFault where
  position : Nat
  length : Nat
  first : Nat
  deriving DecidableEq

def faultAmong (isBad : Nat → Bool) (ns : List Nat) : Option EncodingFault :=
  let front := ns.takeWhile (!isBad ·)
  let run := (ns.drop front.length).takeWhile isHalf
  run.head?.map fun first => ⟨front.length, run.length, first⟩

/-- No surrogate has a form in the bytes of a text. -/
def encodingFault? (text : String) : Option EncodingFault :=
  faultAmong isHalf (points text.toList)

def halfEscape (n : Nat) : List Char := '\\' :: 'u' :: Nat.toDigits 16 n

def EncodingFault.message (f : EncodingFault) : String :=
  let place := toString f.position
  "'utf-8' codec can't encode " ++
    (if f.length = 1 then
      "character '" ++ String.ofList (halfEscape f.first) ++ "' in position " ++ place
    else "characters in position " ++ place ++ "-" ++ toString (f.position + f.length - 1))
    ++ ": surrogates not allowed"

/-- The text with escapes in the place of what cannot be encoded. -/
def escapeHalves (s : String) : String :=
  String.ofList ((points s.toList).flatMap fun n => if isHalf n then halfEscape n else spellPoint n)

/-- The bytes of a text without surrogates. -/
def encodeText (s : String) : ByteArray := (unspellText s).toUTF8

/-- The text that bytes encode. -/
def decodeText? (bytes : ByteArray) : Option String := (String.fromUTF8? bytes).map spellText

end Gatehouse
