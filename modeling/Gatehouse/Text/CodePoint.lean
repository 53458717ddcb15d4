namespace Gatehouse

/-- Surrogates: numbers that stand for one half of a character, which is no character by itself. -/
def isHalf (n : Nat) : Bool := decide (0xd800 ≤ n ∧ n < 0xe000)

/-- How far above a surrogate the private character stands that holds it. -/
def halfShift : Nat := 0x100000

/-- The private characters that do not stand for themselves begin with those for surrogates. -/
def reservedStart : Nat := 0xd800 + halfShift

/-- The first character of a pair counts the full sets of this many, the second one the rest. -/
def pairBase : Nat := 64

def leadStart : Nat := 0xe000 + halfShift

def trailStart : Nat := leadStart + pairBase

def isReserved (n : Nat) : Bool := decide (reservedStart ≤ n ∧ n < trailStart + pairBase)

/-- The character begins a pair. -/
def isLead (c : Char) : Bool := decide (leadStart ≤ c.toNat ∧ c.toNat < trailStart)

/-- The characters that hold a code point. -/
def spellPoint (n : Nat) : List Char :=
  if isHalf n then [Char.ofNat (n + halfShift)]
  else if isReserved n then
    [Char.ofNat (leadStart + (n - reservedStart) / pairBase),
      Char.ofNat (trailStart + (n - reservedStart) % pairBase)]
  else [Char.ofNat n]

/-- The characters that hold some code points. -/
def spell (ns : List Nat) : List Char := ns.flatMap spellPoint

/-- The code point that a character holds alone. -/
def singlePoint (c : Char) : Nat :=
  if isHalf (c.toNat - halfShift) then c.toNat - halfShift else c.toNat

/-- The code point that two characters hold together. -/
def pairPoint (lead trail : Char) : Nat :=
  reservedStart + (lead.toNat - leadStart) * pairBase + (trail.toNat - trailStart)

/-- The code points that a text holds. -/
def points : List Char → List Nat
  | [] => []
  | [c] => [singlePoint c]
  | c :: d :: rest =>
    if isLead c then pairPoint c d :: points rest else singlePoint c :: points (d :: rest)

theorem isHalf_eq_false {n : Nat} (h : n < 0xd800 ∨ 0xe000 ≤ n) : isHalf n = false :=
  decide_eq_false (by omega)

theorem points_cons {c : Char} (h : isLead c = false) (rest : List Char) :
    points (c :: rest) = singlePoint c :: points rest := by
  cases rest with
  | nil => rfl
  | cons d rest => simp [points, h]

theorem points_pair {c : Char} (h : isLead c = true) (d : Char) (rest : List Char) :
    points (c :: d :: rest) = pairPoint c d :: points rest := by
  rw [points, if_pos h]

theorem toNat_ofNat {n : Nat} (h : n < 0x110000) (whole : isHalf n = false) :
    (Char.ofNat n).toNat = n := by
  have valid : n.isValidChar := by
    simp only [isHalf, decide_eq_false_iff_not] at whole
    simp only [Nat.isValidChar]
    omega
  rw [Char.ofNat, dif_pos valid]
  rfl

theorem points_ofNat_append {n : Nat} (h : n < 0x110000) (whole : isHalf n = false)
    (single : n < leadStart ∨ trailStart ≤ n) (rest : List Char) :
    points (Char.ofNat n :: rest) =
      (if isHalf (n - halfShift) then n - halfShift else n) :: points rest := by
  rw [points_cons, singlePoint, toNat_ofNat h whole]
  rw [isLead, toNat_ofNat h whole]
  exact decide_eq_false (by omega)

theorem points_spellPoint_append {n : Nat} (h : n < 0x110000) (rest : List Char) :
    points (spellPoint n ++ rest) = n :: points rest := by
  unfold spellPoint
  split
  next half =>
    have bounds : 0xd800 ≤ n ∧ n < 0xe000 := of_decide_eq_true half
    rw [List.singleton_append, points_ofNat_append, Nat.add_sub_cancel, if_pos half]
    · simp only [halfShift]
      omega
    · exact isHalf_eq_false (by simp only [halfShift]; omega)
    · simp only [halfShift, leadStart]
      omega
  next half =>
    have whole : isHalf n = false := Bool.eq_false_iff.mpr half
    split
    next reserved =>
      have bounds : reservedStart ≤ n ∧ n < trailStart + pairBase := of_decide_eq_true reserved
      simp only [reservedStart, trailStart, leadStart, halfShift, pairBase] at bounds
      have lead : leadStart + (n - reservedStart) / pairBase < 0x110000
          ∧ isHalf (leadStart + (n - reservedStart) / pairBase) = false := by
        simp only [reservedStart, leadStart, halfShift, pairBase]
        exact ⟨by omega, isHalf_eq_false (by omega)⟩
      have trail : trailStart + (n - reservedStart) % pairBase < 0x110000
          ∧ isHalf (trailStart + (n - reservedStart) % pairBase) = false := by
        simp only [reservedStart, trailStart, leadStart, halfShift, pairBase]
        exact ⟨by omega, isHalf_eq_false (by omega)⟩
      rw [List.cons_append, List.singleton_append, points_pair, pairPoint,
        toNat_ofNat lead.1 lead.2, toNat_ofNat trail.1 trail.2]
      · simp only [reservedStart, trailStart, leadStart, halfShift, pairBase]
        exact congrArg (· :: points rest) (by omega)
      · rw [isLead, toNat_ofNat lead.1 lead.2]
        apply decide_eq_true
        simp only [reservedStart, trailStart, leadStart, halfShift, pairBase]
        omega
    next plain =>
      have outside : ¬(reservedStart ≤ n ∧ n < trailStart + pairBase) := fun within =>
        plain (decide_eq_true within)
      simp only [reservedStart, trailStart, leadStart, halfShift, pairBase] at outside
      have alone : isHalf (n - halfShift) = false :=
        isHalf_eq_false (by simp only [halfShift]; omega)
      rw [List.singleton_append, points_ofNat_append h whole, alone, if_neg Bool.false_ne_true]
      · simp only [trailStart, leadStart, halfShift, pairBase]
        omega

/-- The text that holds the characters of a string, each of which stands for itself there. -/
def spellText (s : String) : String := String.ofList (spell (s.toList.map Char.toNat))

/-- The characters that a text without surrogates holds, each standing for itself. -/
def unspellText (s : String) : String := String.ofList ((points s.toList).map Char.ofNat)

/-- The characters of a text, taken together where they hold one code point. -/
def symbols (cs : List Char) : List (List Char) := (points cs).map spellPoint

end Gatehouse
