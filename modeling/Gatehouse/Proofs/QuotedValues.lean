import Gatehouse.Condition.Literal
import Mathlib.Data.List.Infix

namespace Gatehouse

/-- Reading from behind an apostrophe: the characters up to the apostrophe that ends the text, and
what comes behind it. -/
def readQuoted? : List Char → Option (List Char × List Char)
  | [] => none
  | '\'' :: rest => some ([], rest)
  | '\\' :: c :: rest =>
    if c = '\'' ∨ c = '\\' then (readQuoted? rest).map fun (value, after) => (c :: value, after)
    else (readQuoted? (c :: rest)).map fun (value, after) => ('\\' :: value, after)
  | c :: rest => (readQuoted? rest).map fun (value, after) => (c :: value, after)

/-- The text is one literal between apostrophes, up to its last character, and stands for the
value. -/
def IsQuotedText (text value : String) : Prop :=
  ∃ source, text.toList = '\'' :: source ∧ readQuoted? source = some (value.toList, [])

/-- No backslash stands before a backslash or an apostrophe, or at the end. -/
def HasLoneBackslashes (cs : List Char) : Prop :=
  ¬['\\', '\\'] <:+: cs ∧ ¬['\\', '\''] <:+: cs ∧ cs.getLast? ≠ some '\\'

theorem HasLoneBackslashes.tail {c : Char} {cs : List Char} (h : HasLoneBackslashes (c :: cs)) :
    HasLoneBackslashes cs := by
  obtain ⟨pairs, marks, last⟩ := h
  have inner : cs <:+: c :: cs := (List.suffix_cons c cs).isInfix
  refine ⟨fun within => pairs (within.trans inner), fun within => marks (within.trans inner), ?_⟩
  intro ends
  cases cs with
  | nil => cases ends
  | cons d cs => exact last (by rwa [List.getLast?_cons_cons])

theorem hasLoneBackslashes_cons {c : Char} {cs : List Char} (plain : c ≠ '\\')
    (h : HasLoneBackslashes cs) : HasLoneBackslashes (c :: cs) := by
  obtain ⟨pairs, marks, last⟩ := h
  have apart (d : Char) : ¬['\\', d] <+: c :: cs := fun front =>
    plain (List.cons_prefix_cons.mp front).1.symm
  refine ⟨?_, ?_, ?_⟩
  · exact fun within => (List.infix_cons_iff.mp within).elim (apart _) pairs
  · exact fun within => (List.infix_cons_iff.mp within).elim (apart _) marks
  · cases cs with
    | nil => exact fun ends => plain (Option.some.inj ends)
    | cons d cs => rwa [List.getLast?_cons_cons]

/-- A backslash stands alone if a character follows that is neither mark. -/
theorem hasLoneBackslashes_backslash_iff {cs : List Char} : HasLoneBackslashes ('\\' :: cs) ↔
    ∃ d rest, cs = d :: rest ∧ d ≠ '\'' ∧ d ≠ '\\' ∧ HasLoneBackslashes cs := by
  constructor
  · intro h
    obtain ⟨pairs, marks, last⟩ := id h
    cases cs with
    | nil => exact absurd rfl last
    | cons d rest =>
      refine ⟨d, rest, rfl, ?_, ?_, h.tail⟩
      · rintro rfl
        exact marks ⟨[], rest, rfl⟩
      · rintro rfl
        exact pairs ⟨[], rest, rfl⟩
  · rintro ⟨d, rest, rfl, unquoted, unescaped, pairs, marks, last⟩
    have apart {mark : Char} (other : d ≠ mark) : ¬['\\', mark] <+: '\\' :: d :: rest :=
      fun front => other (List.cons_prefix_cons.mp (List.cons_prefix_cons.mp front).2).1.symm
    refine ⟨?_, ?_, by rwa [List.getLast?_cons_cons]⟩
    · exact fun within => (List.infix_cons_iff.mp within).elim (apart unescaped) pairs
    · exact fun within => (List.infix_cons_iff.mp within).elim (apart unquoted) marks

theorem escapeApostrophes_apostrophe (cs : List Char) :
    escapeApostrophes ('\'' :: cs) = '\\' :: '\'' :: escapeApostrophes cs := rfl

theorem escapeApostrophes_cons {c : Char} (h : c ≠ '\'') (cs : List Char) :
    escapeApostrophes (c :: cs) = c :: escapeApostrophes cs := by
  rw [escapeApostrophes, List.flatMap_cons, if_neg h]
  rfl

theorem readQuoted?_escaped {c : Char} (h : c = '\'' ∨ c = '\\') (rest : List Char) :
    readQuoted? ('\\' :: c :: rest) =
      (readQuoted? rest).map fun (value, after) => (c :: value, after) := by
  rw [readQuoted?, if_pos h]

theorem readQuoted?_backslash {c : Char} (unquoted : c ≠ '\'') (unescaped : c ≠ '\\')
    (rest : List Char) : readQuoted? ('\\' :: c :: rest) =
      (readQuoted? (c :: rest)).map fun (value, after) => ('\\' :: value, after) := by
  rw [readQuoted?, if_neg (not_or.mpr ⟨unquoted, unescaped⟩)]

theorem readQuoted?_plain {c : Char} (unquoted : c ≠ '\'') (unescaped : c ≠ '\\')
    (rest : List Char) : readQuoted? (c :: rest) =
      (readQuoted? rest).map fun (value, after) => (c :: value, after) := by
  conv_lhs => unfold readQuoted?
  split
  next h => cases h
  next h => exact absurd (List.cons.inj h).1 unquoted
  next h => exact absurd (List.cons.inj h).1 unescaped
  next h =>
    obtain ⟨rfl, rfl⟩ := List.cons.inj h
    rfl

theorem of_map_cons {c : Char} {found : Option (List Char × List Char)} {value after : List Char}
    (h : (found.map fun (value, after) => (c :: value, after)) = some (value, after)) :
    ∃ more, found = some (more, after) ∧ value = c :: more := by
  obtain ⟨⟨more, later⟩, hf, eq⟩ := Option.map_eq_some_iff.mp h
  cases eq
  exact ⟨more, hf, rfl⟩

/-- What is read takes up at least the room of its escaped form and of the apostrophe behind it. -/
theorem length_readQuoted? {cs value after : List Char} (h : readQuoted? cs = some (value, after)) :
    (escapeApostrophes value).length + after.length + 1 ≤ cs.length := by
  have room (c : Char) (cs : List Char) :
      (escapeApostrophes (c :: cs)).length ≤ (escapeApostrophes cs).length + 2 := by
    by_cases hc : c = '\''
    · rw [hc, escapeApostrophes_apostrophe, List.length_cons, List.length_cons]
    · rw [escapeApostrophes_cons hc, List.length_cons]
      omega
  fun_induction readQuoted? cs generalizing value after with
  | case1 => cases h
  | case2 rest =>
    cases h
    simp [escapeApostrophes]
  | case3 c rest marked ih =>
    obtain ⟨more, found, rfl⟩ := of_map_cons h
    have := ih found
    have := room c more
    simp only [List.length_cons]
    omega
  | case4 c rest plain ih =>
    obtain ⟨more, found, rfl⟩ := of_map_cons h
    have := ih found
    rw [escapeApostrophes_cons (by decide)]
    simp only [List.length_cons] at this ⊢
    omega
  | case5 c rest unquoted unescaped ih =>
    obtain ⟨more, found, rfl⟩ := of_map_cons h
    have := ih found
    rw [escapeApostrophes_cons (fun eq => unquoted eq)]
    simp only [List.length_cons]
    omega

/-- Lone backslashes stand for themselves, and an escape keeps an apostrophe from ending the
text. -/
theorem readQuoted?_of_lone {s : List Char} (h : HasLoneBackslashes s) (rest : List Char) :
    readQuoted? (escapeApostrophes s ++ '\'' :: rest) = some (s, rest) := by
  induction s with
  | nil => rfl
  | cons c s ih =>
    have tail := ih h.tail
    by_cases quote : c = '\''
    · subst c
      rw [escapeApostrophes_apostrophe, List.cons_append, List.cons_append,
        readQuoted?_escaped (Or.inl rfl), tail]
      rfl
    · rw [escapeApostrophes_cons quote, List.cons_append]
      by_cases mark : c = '\\'
      · subst c
        obtain ⟨d, more, rfl, unquoted, unescaped, -⟩ := hasLoneBackslashes_backslash_iff.mp h
        rw [escapeApostrophes_cons unquoted, List.cons_append] at tail ⊢
        rw [readQuoted?_backslash unquoted unescaped, tail]
        rfl
      · rw [readQuoted?_plain quote mark, tail]
        rfl

/-- A backslash that is not alone ends the text too early or too late, or is lost. -/
theorem lone_of_readQuoted? {s rest : List Char}
    (h : readQuoted? (escapeApostrophes s ++ '\'' :: rest) = some (s, rest)) :
    HasLoneBackslashes s := by
  have step {c : Char} {found : Option (List Char × List Char)} {s : List Char}
      (h : (found.map fun (value, after) => (c :: value, after)) = some (c :: s, rest)) :
      found = some (s, rest) := by
    obtain ⟨more, hf, eq⟩ := of_map_cons h
    rw [hf, (List.cons.inj eq).2]
  induction s with
  | nil => simp [HasLoneBackslashes]
  | cons c s ih =>
    by_cases quote : c = '\''
    · subst c
      rw [escapeApostrophes_apostrophe, List.cons_append, List.cons_append,
        readQuoted?_escaped (Or.inl rfl)] at h
      exact hasLoneBackslashes_cons (by decide) (ih (step h))
    · rw [escapeApostrophes_cons quote, List.cons_append] at h
      by_cases mark : c = '\\'
      · subst c
        cases s with
        | nil =>
          -- the backslash takes its meaning from the apostrophe that should end the text
          rw [show escapeApostrophes [] = [] from rfl, List.nil_append,
            readQuoted?_escaped (Or.inl rfl)] at h
          obtain ⟨more, -, eq⟩ := of_map_cons h
          exact absurd (List.cons.inj eq).1 (by decide)
        | cons d s =>
          by_cases unquoted : d = '\''
          · -- the backslash meets the one that escapes the apostrophe, which then ends the text
            subst d
            rw [escapeApostrophes_apostrophe, List.cons_append, List.cons_append,
              readQuoted?_escaped (Or.inr rfl)] at h
            have ended := step h
            rw [readQuoted?] at ended
            cases ended
          · rw [escapeApostrophes_cons unquoted, List.cons_append] at h
            by_cases unescaped : d = '\\'
            · -- two backslashes are read as one, and the rest has no room for the other
              subst d
              rw [readQuoted?_escaped (Or.inr rfl)] at h
              have room := length_readQuoted? (step h)
              rw [escapeApostrophes_cons (by decide)] at room
              simp only [List.length_cons, List.length_append] at room
              omega
            · rw [readQuoted?_backslash unquoted unescaped, ← List.cons_append,
                ← escapeApostrophes_cons unquoted] at h
              exact hasLoneBackslashes_backslash_iff.mpr
                ⟨d, s, rfl, unquoted, unescaped, ih (step h)⟩
      · rw [readQuoted?_plain quote mark] at h
        exact hasLoneBackslashes_cons mark (ih (step h))

/-- A text in quotes is one literal and stands for itself if each of its backslashes is alone and
followed by another character, and not otherwise. -/
theorem isQuotedText_quoted_iff (s : String) :
    IsQuotedText (Value.text s).quoted s ↔ HasLoneBackslashes s.toList := by
  have chars : (Value.text s).quoted.toList =
      '\'' :: (escapeApostrophes s.toList ++ '\'' :: []) := by
    rw [Value.quoted, String.toList_ofList]
    rfl
  constructor
  · rintro ⟨source, eq, read⟩
    rw [chars] at eq
    obtain ⟨-, rfl⟩ := List.cons.inj eq
    exact lone_of_readQuoted? read
  · exact fun lone => ⟨_, chars, readQuoted?_of_lone lone []⟩

/-- A backslash at the end takes in the apostrophe behind it. -/
example : readQuoted? "a\\'".toList = none := by decide

end Gatehouse
