import Gatehouse.Text.Span

namespace Gatehouse

/-- Bytes read as far as they encode something: a code point, or bytes that begin none. -/
inductive BytePiece where
  | point (n : Nat)
  | broken (bytes : List UInt8)

/-- What the first of several bytes tells: its share of the code point, how many bytes follow, and
the range of the next one. -/
structure LeadByte where
  share : Nat
  following : Nat
  second : Span

def followingSpan : Span := ⟨0x80, 0xbf⟩

/-- The ranges of the second byte leave out surrogates, numbers that are too great, and those that
have a shorter form. -/
def LeadByte.ofByte? (b : Nat) : Option LeadByte :=
  if b < 0xc2 then none
  else if b < 0xe0 then some ⟨b - 0xc0, 1, followingSpan⟩
  else if b = 0xe0 then some ⟨0, 2, ⟨0xa0, 0xbf⟩⟩
  else if b = 0xed then some ⟨0xd, 2, ⟨0x80, 0x9f⟩⟩
  else if b < 0xf0 then some ⟨b - 0xe0, 2, followingSpan⟩
  else if b = 0xf0 then some ⟨0, 3, ⟨0x90, 0xbf⟩⟩
  else if b < 0xf4 then some ⟨b - 0xf0, 3, followingSpan⟩
  else if b = 0xf4 then some ⟨4, 3, ⟨0x80, 0x8f⟩⟩
  else none

namespace BytePiece

/-- Reads the bytes that follow; `taken` are those before them, the newest first. -/
def follow (taken : List UInt8) (n : Nat) : Nat → Span → List UInt8 → BytePiece × List UInt8
  | 0, _, rest => (point n, rest)
  | _ + 1, _, [] => (broken taken.reverse, [])
  | more + 1, span, b :: rest =>
    if span.Covers b.toNat then
      follow (b :: taken) (n * 64 + (b.toNat - 0x80)) more followingSpan rest
    else (broken taken.reverse, b :: rest)

def readFirst (b : UInt8) (rest : List UInt8) : BytePiece × List UInt8 :=
  if b.toNat < 0x80 then (point b.toNat, rest)
  else match LeadByte.ofByte? b.toNat with
    | some lead => follow [b] lead.share lead.following lead.second rest
    | none => (broken [b], rest)

/-- Each piece uses up at least one byte. -/
def readAll : Nat → List UInt8 → List BytePiece
  | 0, _ => []
  | _, [] => []
  | n + 1, b :: rest =>
    let (piece, rest) := readFirst b rest
    piece :: readAll n rest

def ofBytes (bytes : List UInt8) : List BytePiece := readAll bytes.length bytes

end BytePiece

end Gatehouse
