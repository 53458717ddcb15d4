import Gatehouse.Proofs.CursorMoves
import Gatehouse.Proofs.JsonScalars

namespace Gatehouse

namespace Json

open Yaml Yaml.Scan

namespace Piece

def isSpace (p : Piece) : Bool := p.chars == [' ']

theorem isReadable_raw {c : Char} {h : isRaw c = true} (readable : (raw c h).isReadable = true) :
    isAllowed c = true ∧ isBreak c = false := by
  simpa [isReadable] using readable

theorem ne_of_isRaw {c : Char} (h : isRaw c = true) : ' ' ≤ c ∧ c ≠ '"' ∧ c ≠ '\\' := by
  simpa [isRaw, and_assoc] using h

/-- The first character of a part, which is none that ends the text or the line. -/
theorem exists_chars_cons (p : Piece) (readable : p.isReadable = true) :
    ∃ ch more, p.chars = ch :: more ∧ ch ≠ '"' ∧ isBreak ch = false ∧ ch ≠ endMark ∧
      (isSpaceOrTab ch = p.isSpace) := by
  cases p with
  | raw c h =>
    obtain ⟨visible, quote, -⟩ := ne_of_isRaw h
    have tab : c ≠ '\t' := by
      rintro rfl
      exact absurd visible (by decide)
    refine ⟨c, [], rfl, quote, (isReadable_raw readable).2, ?_, ?_⟩
    · rintro rfl
      exact absurd visible (by decide)
    · rw [isSpaceOrTab, beq_eq_false_iff_ne.mpr tab, Bool.or_false]
      by_cases space : c = ' ' <;> simp [isSpace, chars, space]
  | short e h => exact ⟨'\\', [e.1], rfl, by decide, by decide, by decide, rfl⟩
  | unit a b c d =>
    exact ⟨'\\', ['u', a.char, b.char, c.char, d.char], rfl, by decide, by decide, by decide, rfl⟩

theorem eq_raw_of_isSpace {p : Piece} (h : p.isSpace = true) :
    p.chars = [' '] ∧ p.loaded = [' '] := by
  cases p with
  | raw c h' => exact ⟨beq_iff_eq.mp h, beq_iff_eq.mp h⟩
  | short e h' => simp [isSpace, chars] at h
  | unit a b c d => simp [isSpace, chars] at h

end Piece

theorem takeWhile_pieces {ps : List Piece} (readable : ∀ p ∈ ps, p.isReadable = true)
    (k : List Char) :
    (ps.flatMap Piece.chars ++ '"' :: k).takeWhile isSpaceOrTab =
      (ps.takeWhile Piece.isSpace).flatMap Piece.chars := by
  induction ps with
  | nil => rfl
  | cons p ps ih =>
    rw [List.forall_mem_cons] at readable
    obtain ⟨ch, more, eq, -, -, -, space⟩ := p.exists_chars_cons readable.1
    cases h : p.isSpace with
    | true =>
      have only := (Piece.eq_raw_of_isSpace h).1
      rw [List.takeWhile_cons_of_pos h, List.flatMap_cons, List.flatMap_cons, only,
        List.append_assoc, ← ih readable.2]
      rfl
    | false =>
      rw [List.takeWhile_cons_of_neg (by simp [h]), List.flatMap_cons, eq, List.append_assoc]
      exact List.takeWhile_cons_of_neg (by rw [space, h]; exact Bool.false_ne_true)

/-- What follows in a quoted text ends no line. -/
theorem isBreak_peek_pieces {ps : List Piece} (readable : ∀ p ∈ ps, p.isReadable = true)
    {c : Cursor} {k : List Char} (rest : c.rest = ps.flatMap Piece.chars ++ '"' :: k) :
    isBreak c.peek = false := by
  cases ps with
  | nil =>
    rw [Cursor.peek_of_rest rest]
    decide
  | cons p ps =>
    obtain ⟨ch, more, eq, -, unbroken, -⟩ := p.exists_chars_cons (readable p List.mem_cons_self)
    rw [List.flatMap_cons, eq] at rest
    rw [Cursor.peek_of_rest rest]
    exact unbroken

theorem loadedChars_append (ps qs : List Piece) :
    loadedChars (ps ++ qs) = loadedChars ps ++ loadedChars qs :=
  List.flatMap_append

theorem flatMap_chars_spaces (ps : List Piece) :
    (ps.takeWhile Piece.isSpace).flatMap Piece.chars =
      loadedChars (ps.takeWhile Piece.isSpace) := by
  have same : ∀ p ∈ ps.takeWhile Piece.isSpace, p.chars = p.loaded := fun p mem => by
    have space := Piece.eq_raw_of_isSpace (List.all_eq_true.mp List.all_takeWhile p mem)
    rw [space.1, space.2]
  rw [loadedChars, List.flatMap_def, List.flatMap_def, List.map_congr_left same]

theorem hexValue?_char (d : HexDigit) : hexValue? d.char = some d.value.val := by
  obtain ⟨value, capital⟩ := d
  exact (by decide : ∀ (value : Fin 16) (capital : Bool),
    hexValue? (HexDigit.char ⟨value, capital⟩) = some value.val) value capital

theorem hexNumber?_chars (a b c d : HexDigit) :
    hexNumber? [a.char, b.char, c.char, d.char] = some (Piece.number a b c d) := by
  simp [hexNumber?, hexValue?_char, Piece.number]

theorem lookup_shortEscapes {e : Char × Char} (h : e ∈ shortEscapes) :
    Yaml.shortEscapes.lookup e.1 = some e.2 :=
  (by decide : ∀ e ∈ shortEscapes, Yaml.shortEscapes.lookup e.1 = some e.2) e h

theorem number_lt (a b c d : HexDigit) : Piece.number a b c d < 0x10000 := by
  have ha := a.value.isLt
  have hb := b.value.isLt
  have hc := c.value.isLt
  have hd := d.value.isLt
  unfold Piece.number
  omega

theorem readEscape_short {c : Cursor} {e : Char × Char} {k : List Char} (h : e ∈ shortEscapes)
    (rest : c.rest = e.1 :: k) : readEscape c = .ok ([e.2], c.skip 1) := by
  rw [readEscape, Cursor.peek_of_rest rest, lookup_shortEscapes h]
  rfl

theorem readEscape_unit {cur : Cursor} {a b c d : HexDigit} {k : List Char}
    (rest : cur.rest = 'u' :: a.char :: b.char :: c.char :: d.char :: k) :
    readEscape cur = .ok (spellPoint (Piece.number a b c d), cur.skip 5) := by
  have small : Piece.number a b c d < 0x110000 := Nat.lt_trans (number_lt a b c d) (by decide)
  have digits : cur.advance.rest.take 4 = [a.char, b.char, c.char, d.char] := by
    rw [Cursor.rest_advance, rest]
    rfl
  have notShort : Yaml.shortEscapes.lookup 'u' = none := by decide
  have four : numericEscapes.lookup 'u' = some 4 := by decide
  rw [readEscape, Cursor.peek_of_rest rest, notShort, four]
  dsimp only
  rw [digits, if_pos (by rfl), hexNumber?_chars]
  dsimp only
  rw [if_pos small]

/-- Puts what has been read before the rest of a quoted text. -/
def withFront (front : List Char) (r : Except Fault (List Char × Cursor)) :
    Except Fault (List Char × Cursor) :=
  r.map fun (more, c) => (front ++ more, c)

theorem quotedScalar_escape {n : Nat} {c after : Cursor} {text : List Char}
    (mark : c.peek = '\\') (read : readEscape c.advance = .ok (text, after)) :
    quotedScalar true (n + 1) c = withFront text (quotedScalar true n after) := by
  rw [quotedScalar]
  simp only [mark, read]
  rfl

theorem quotedScalar_gap {n : Nat} {c : Cursor} {blanks : List Char}
    (mark : isSpaceOrTab c.peek = true) (eq : c.rest.takeWhile isSpaceOrTab = blanks)
    (unbroken : isBreak (c.skip blanks.length).peek = false) :
    quotedScalar true (n + 1) c =
      withFront blanks (quotedScalar true n (c.skip blanks.length)) := by
  have gap : quotedGap c = .ok (blanks, c.skip blanks.length) := by
    have same : (c.rest.takeWhile fun ch => ch == ' ' || ch == '\t') = blanks := eq
    rw [quotedGap, same, Cursor.lineBreak?_eq_none unbroken]
  have ne {ch : Char} (h : isSpaceOrTab ch = false) : c.peek ≠ ch := by
    rintro rfl
    rw [mark] at h
    cases h
  have isGap : isGap c.peek = true := by
    rw [Yaml.isGap, show (c.peek == ' ' || c.peek == '\t') = true from mark, Bool.true_or]
  rw [quotedScalar]
  simp only [ne (by decide : isSpaceOrTab endMark = false),
    ne (by decide : isSpaceOrTab '"' = false),
    beq_eq_false_iff_ne.mpr (ne (by decide : isSpaceOrTab '\\' = false)), isGap, gap, Bool.not_true,
    Bool.false_and, Bool.and_false, Bool.false_eq_true, if_false, if_true]
  rfl

theorem quotedScalar_plain {n : Nat} {c : Cursor} (text : c.peek ≠ endMark ∧ c.peek ≠ '"')
    (escape : c.peek ≠ '\\') (gap : isGap c.peek = false) :
    quotedScalar true (n + 1) c = withFront [c.peek] (quotedScalar true n c.advance) := by
  rw [quotedScalar]
  simp only [text.1, text.2, beq_eq_false_iff_ne.mpr escape, gap, Bool.not_true, Bool.false_and,
    Bool.and_false, Bool.false_eq_true, if_false, if_true]
  rfl

/-- A character that stands for itself and is no space. -/
theorem quotedScalar_raw {n : Nat} {c : Cursor} {ch : Char} (raw : isRaw ch = true)
    (readable : isBreak ch = false) (space : ch ≠ ' ') (peek : c.peek = ch) :
    quotedScalar true (n + 1) c = withFront [ch] (quotedScalar true n (c.skip 1)) := by
  obtain ⟨visible, quote, escape⟩ := Piece.ne_of_isRaw raw
  have ne {other : Char} (hidden : ¬ ' ' ≤ other) : ch ≠ other := fun eq => hidden (eq ▸ visible)
  have gap : isGap ch = false := by
    rw [isGap, isBreakOrEnd, readable, beq_eq_false_iff_ne.mpr space,
      beq_eq_false_iff_ne.mpr (ne (by decide : ¬ ' ' ≤ '\t')),
      beq_eq_false_iff_ne.mpr (ne (by decide : ¬ ' ' ≤ endMark))]
    rfl
  subst peek
  exact quotedScalar_plain ⟨ne (by decide), quote⟩ escape gap

/-- Spaces are read together, as no line ends behind them. -/
theorem quotedScalar_spaces {ps : List Piece} (readable : ∀ p ∈ ps, p.isReadable = true) {n : Nat}
    {c : Cursor} {k : List Char} (rest : c.rest = ps.flatMap Piece.chars ++ '"' :: k)
    (space : c.peek = ' ') :
    quotedScalar true (n + 1) c = withFront (loadedChars (ps.takeWhile Piece.isSpace))
      (quotedScalar true n
        (c.skip ((ps.takeWhile Piece.isSpace).flatMap Piece.chars).length)) := by
  have blanks := takeWhile_pieces readable k
  rw [← rest] at blanks
  rw [← List.takeWhile_append_dropWhile (p := Piece.isSpace) (l := ps), List.flatMap_append,
    List.append_assoc] at rest
  have others : ∀ p ∈ ps.dropWhile Piece.isSpace, p.isReadable = true := fun p mem =>
    readable p ((List.dropWhile_suffix _).subset mem)
  rw [← flatMap_chars_spaces]
  exact quotedScalar_gap (by rw [space]; rfl) blanks
    (isBreak_peek_pieces others (Cursor.rest_skip_append rest))

/-- A step of the reader takes some of the parts, and at least one character. -/
theorem exists_quotedScalar_step {p : Piece} {ps : List Piece}
    (readable : ∀ q ∈ p :: ps, q.isReadable = true) {n : Nat} {c : Cursor} {k : List Char}
    (rest : c.rest = (p :: ps).flatMap Piece.chars ++ '"' :: k) :
    ∃ front after, p :: ps = front ++ after ∧ front.flatMap Piece.chars ≠ [] ∧
      quotedScalar true (n + 1) c = withFront (loadedChars front)
        (quotedScalar true n (c.skip (front.flatMap Piece.chars).length)) := by
  have whole := rest
  rw [List.flatMap_cons, List.append_assoc] at rest
  cases p with
  | raw ch h =>
    have peek : c.peek = ch := Cursor.peek_of_rest rest
    by_cases space : ch = ' '
    · refine ⟨_, _, List.takeWhile_append_dropWhile.symm, ?_,
        quotedScalar_spaces readable whole (peek.trans space)⟩
      rw [List.takeWhile_cons_of_pos (by rw [Piece.isSpace, Piece.chars, space]; rfl)]
      exact List.cons_ne_nil _ _
    · exact ⟨[.raw ch h], ps, rfl, List.cons_ne_nil _ _, quotedScalar_raw h
        (Piece.isReadable_raw (readable _ List.mem_cons_self)).2 space peek⟩
  | short e h =>
    have read : readEscape c.advance = .ok ([e.2], c.advance.skip 1) :=
      readEscape_short h (by rw [Cursor.rest_advance, rest]; rfl)
    exact ⟨[.short e h], ps, rfl, List.cons_ne_nil _ _,
      quotedScalar_escape (Cursor.peek_of_rest rest) read⟩
  | unit a b c' d =>
    have read : readEscape c.advance =
        .ok (spellPoint (Piece.number a b c' d), c.advance.skip 5) :=
      readEscape_unit (by rw [Cursor.rest_advance, rest]; rfl)
    rw [quotedScalar_escape (Cursor.peek_of_rest rest) read]
    exact ⟨[.unit a b c' d], ps, rfl, List.cons_ne_nil _ _, by
      rw [loadedChars, List.flatMap_singleton]
      rfl⟩

/-- The text up to the quote is what its parts are loaded as. -/
theorem quotedScalar_pieces {ps : List Piece} (readable : ∀ p ∈ ps, p.isReadable = true) {n : Nat}
    {c : Cursor} {k : List Char} (rest : c.rest = ps.flatMap Piece.chars ++ '"' :: k)
    (enough : c.rest.length < n) :
    quotedScalar true n c =
      .ok (loadedChars ps, c.skip ((ps.flatMap Piece.chars).length + 1)) := by
  induction n generalizing ps c with
  | zero => exact absurd enough (Nat.not_lt_zero _)
  | succ n ih =>
    cases ps with
    | nil =>
      rw [quotedScalar, Cursor.peek_of_rest rest]
      rfl
    | cons p ps =>
      obtain ⟨front, after, split, some, step⟩ := exists_quotedScalar_step (n := n) readable rest
      rw [split] at readable rest ⊢
      rw [List.flatMap_append, List.append_assoc] at rest
      have others : ∀ q ∈ after, q.isReadable = true := fun q mem =>
        readable q (List.mem_append_right front mem)
      have behind := Cursor.rest_skip_append rest
      have length := congrArg List.length rest
      have := List.length_pos_iff.mpr some
      rw [List.length_append] at length
      rw [step, ih others behind (by rw [behind]; omega), Cursor.skip_skip, loadedChars_append,
        List.flatMap_append, List.length_append, Nat.add_assoc]
      rfl

/-- A text that can be read stands on one line. -/
theorem allowed_textChars {ps : List Piece} (readable : ∀ p ∈ ps, p.isReadable = true) :
    ∀ ch ∈ textChars ps, isAllowed ch = true ∧ isBreak ch = false := by
  have hex (d : HexDigit) : isAllowed d.char = true ∧ isBreak d.char = false := by
    obtain ⟨value, capital⟩ := d
    exact (by decide : ∀ (value : Fin 16) (capital : Bool),
      isAllowed (HexDigit.char ⟨value, capital⟩) = true ∧
        isBreak (HexDigit.char ⟨value, capital⟩) = false) value capital
  intro ch mem
  rw [textChars, List.mem_cons, List.mem_append, List.mem_flatMap] at mem
  rcases mem with rfl | ⟨p, hp, mem⟩ | mem
  · decide
  · cases p with
    | raw c h =>
      rw [List.mem_singleton.mp mem]
      exact Piece.isReadable_raw (readable _ hp)
    | short e h =>
      have letter := (by decide : ∀ e ∈ shortEscapes,
        isAllowed e.1 = true ∧ isBreak e.1 = false) e h
      rcases List.mem_cons.mp mem with rfl | mem
      · decide
      · rwa [List.mem_singleton.mp mem]
    | unit a b c d =>
      simp only [Piece.chars, List.mem_cons, List.not_mem_nil, or_false] at mem
      rcases mem with rfl | rfl | rfl | rfl | rfl | rfl
      · decide
      · decide
      all_goals exact hex _
  · rw [List.mem_singleton.mp mem]
    decide

theorem parts_of_isKeyReadable {key : List Piece} {middle : List Blank}
    (h : isKeyReadable key middle = true) :
    (∀ p ∈ key, p.isReadable = true) ∧ (∀ ch ∈ blankChars middle, ch = ' ') ∧
      width (textChars key) + middle.length ≤ 1024 := by
  simp only [isKeyReadable, Bool.and_eq_true, decide_eq_true_eq] at h
  refine ⟨List.all_eq_true.mp h.1.1, fun ch mem => ?_, h.2⟩
  obtain ⟨b, hb, rfl⟩ := List.mem_map.mp mem
  rw [beq_iff_eq.mp (List.all_eq_true.mp h.1.2 b hb)]
  rfl

end Json

end Gatehouse
