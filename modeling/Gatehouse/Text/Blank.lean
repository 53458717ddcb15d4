import Gatehouse.Text.Span

namespace Gatehouse

/-- Blanks of every script, the line and paragraph separators and the four separator controls. -/
def blankSpans : List Span := [
  ⟨0x9, 0xd⟩, ⟨0x1c, 0x20⟩, ⟨0x85, 0x85⟩, ⟨0xa0, 0xa0⟩, ⟨0x1680, 0x1680⟩, ⟨0x2000, 0x200a⟩,
  ⟨0x2028, 0x2029⟩, ⟨0x202f, 0x202f⟩, ⟨0x205f, 0x205f⟩, ⟨0x3000, 0x3000⟩]

def isBlank (c : Char) : Bool := inTable blankSpans c

/-- The code points of the blanks. -/
def blankCodes : List Nat := blankSpans.flatMap fun s => List.range' s.first (s.last + 1 - s.first)

/-- What holds for the blanks one by one holds for a character that is one. -/
theorem of_isBlank {p : Char → Prop} (each : ∀ n ∈ blankCodes, p (Char.ofNat n)) {c : Char}
    (h : isBlank c = true) : p c := by
  obtain ⟨s, hs, first, last⟩ := inTable_iff.mp h
  rw [← Char.ofNat_toNat c]
  refine each c.toNat (List.mem_flatMap.mpr ⟨s, hs, ?_⟩)
  rw [List.mem_range'_1]
  omega

/-- A character with a property that no blank has is none. -/
theorem isBlank_eq_false_of {p : Char → Bool} (each : ∀ n ∈ blankCodes, p (Char.ofNat n) = false)
    {c : Char} (h : p c = true) : isBlank c = false := by
  cases blank : isBlank c with
  | false => rfl
  | true =>
    rw [of_isBlank (p := fun c => p c = false) each blank] at h
    cases h

def trimEndChars (cs : List Char) : List Char := (cs.reverse.dropWhile isBlank).reverse

/-- The text without the blanks at its ends. -/
def trimChars (cs : List Char) : List Char := trimEndChars (cs.dropWhile isBlank)

def trimText (s : String) : String := String.ofList (trimChars s.toList)

/-- Some character is no blank. -/
def hasInk (s : String) : Bool := s.toList.any fun c => !isBlank c

theorem mem_dropWhile_of_not {p : Char → Bool} {c : Char} {cs : List Char} (mem : c ∈ cs)
    (h : p c = false) : c ∈ cs.dropWhile p := by
  induction cs with
  | nil => cases mem
  | cons d ds ih =>
    rw [List.dropWhile_cons]
    split
    next dropped =>
      rcases List.mem_cons.mp mem with rfl | rest
      · rw [h] at dropped
        cases dropped
      · exact ih rest
    next => exact mem

theorem mem_trimChars {c : Char} {cs : List Char} (mem : c ∈ cs) (ink : isBlank c = false) :
    c ∈ trimChars cs := by
  have front := mem_dropWhile_of_not mem ink
  exact List.mem_reverse.mpr (mem_dropWhile_of_not (List.mem_reverse.mpr front) ink)

theorem trimText_ne_empty {s : String} (ink : hasInk s = true) : trimText s ≠ "" := by
  obtain ⟨c, mem, h⟩ := List.any_eq_true.mp ink
  have kept := mem_trimChars mem (by simpa using h)
  intro empty
  have none : trimChars s.toList = [] := String.ofList_injective empty
  rw [none] at kept
  cases kept

end Gatehouse
