import Gatehouse.Text.BytePiece
import Gatehouse.Text.Encoding

namespace Gatehouse

/-- Where the surrogates begin that stand for the bytes of a name which encode nothing. -/
def byteHalfStart : Nat := 0xdc00

def isByteHalf (n : Nat) : Bool := decide (byteHalfStart + 0x80 ≤ n ∧ n < byteHalfStart + 0x100)

/-- The surrogates for bytes have a form in a file name. -/
def nameFault? (name : String) : Option EncodingFault :=
  faultAmong (fun n => isHalf n && !isByteHalf n) (points name.toList)

/-- The bytes of a file name. -/
def nameBytes (name : String) : List UInt8 :=
  (points name.toList).flatMap fun n =>
    if isByteHalf n then [UInt8.ofNat (n - byteHalfStart)] else String.utf8EncodeChar (Char.ofNat n)

/-- The one text among those for the same bytes by which a file is known. -/
def knownName (name : String) : String :=
  String.ofList ((BytePiece.ofBytes (nameBytes name)).flatMap fun
    | .point n => spellPoint n
    | .broken bytes => spell (bytes.map fun b => byteHalfStart + b.toNat))

/-- A name with a mark in the place of bytes that encode nothing. -/
def shownName (name : String) : String :=
  String.ofList ((BytePiece.ofBytes (nameBytes name)).flatMap fun
    | .point n => spellPoint n
    | .broken _ => ['\ufffd'])

end Gatehouse
