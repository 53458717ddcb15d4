import Gatehouse.Text.CaseTable

namespace Gatehouse

def isCased (c : Char) : Bool := inTable casedSpans c

def isCaseIgnorable (c : Char) : Bool := inTable caseIgnorableSpans c

/-- The lower case of a character that stands alone. -/
def lowerChar (c : Char) : List Char :=
  if c = 'İ' then ['i', '\u0307']
  else match lowerShifts.find? fun s => decide (s.Applies c.toNat) with
    | some s => [s.apply c.toNat]
    | none => [c]

def upperChar (c : Char) : List Char :=
  match upperExpansions.lookup c.toNat with
  | some codes => codes.map Char.ofNat
  | none =>
    match upperShifts.find? fun s => decide (s.Applies c.toNat) with
    | some s => [s.apply c.toNat]
    | none => [c]

/-- A letter stands before, nearest first, and none follows, marks being looked through. -/
def endsWord (before after : List Char) : Bool :=
  (before.dropWhile isCaseIgnorable).head?.any isCased &&
    !(after.dropWhile isCaseIgnorable).head?.any isCased

/-- Lower case of the text after `before`; a capital sigma takes its final form at a word's end. -/
def lowerFrom (before : List Char) : List Char → List Char
  | [] => []
  | c :: rest =>
    (if c = 'Σ' then [if endsWord before rest then 'ς' else 'σ'] else lowerChar c)
      ++ lowerFrom (c :: before) rest

def lowerChars (cs : List Char) : List Char := lowerFrom [] cs

/-- Without a sigma each character has its lower case for itself. -/
theorem lowerChars_of_plain {cs : List Char} (h : 'Σ' ∉ cs) :
    lowerChars cs = cs.flatMap lowerChar := by
  have behind (before : List Char) : lowerFrom before cs = cs.flatMap lowerChar := by
    induction cs generalizing before with
    | nil => rfl
    | cons c rest ih =>
      rw [List.mem_cons, not_or] at h
      rw [lowerFrom, if_neg (Ne.symm h.1), ih h.2, List.flatMap_cons]
  exact behind []

def lowerText (s : String) : String := String.ofList (lowerChars s.toList)

def upperText (s : String) : String := String.ofList (s.toList.flatMap upperChar)

/-- The first character in upper case, the rest as it is. -/
def capitalize (s : String) : String :=
  String.ofList ((s.toList.take 1).flatMap upperChar ++ s.toList.drop 1)

end Gatehouse
