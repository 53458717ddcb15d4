import Gatehouse.Text.Span

namespace Gatehouse

/-- The characters of a control sequence behind its start: parameters, then marks between them and
the end, then one that ends it. -/
def parameterSpan : Span := ⟨0x30, 0x3f⟩

def markSpan : Span := ⟨0x20, 0x2f⟩

def endingSpan : Span := ⟨0x40, 0x7e⟩

def Span.has (s : Span) (c : Char) : Bool := decide (s.Covers c.toNat)

/-- What follows a control sequence of a terminal, which starts with an escape and a bracket. -/
def afterSequence? : List Char → Option (List Char)
  | '\x1b' :: '[' :: rest =>
    match (rest.dropWhile parameterSpan.has).dropWhile markSpan.has with
    | c :: rest => if endingSpan.has c then some rest else none
    | [] => none
  | _ => none

/-- Drops control sequences; each step uses up at least one character. -/
def dropSequences : Nat → List Char → List Char
  | 0, cs => cs
  | _, [] => []
  | n + 1, c :: rest =>
    match afterSequence? (c :: rest) with
    | some rest => dropSequences n rest
    | none => c :: dropSequences n rest

/-- The text as it is printed where no terminal reads it. -/
def plainText (s : String) : String := String.ofList (dropSequences s.length s.toList)

end Gatehouse
