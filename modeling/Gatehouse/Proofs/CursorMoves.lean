import Gatehouse.Yaml.Scan

namespace Gatehouse

namespace Yaml

/-- What is skipped between two tokens. -/
def isSkipped (ch : Char) : Bool := ch == ' ' || isBreak ch

theorem isGap_of_isSkipped {ch : Char} (h : isSkipped ch = true) : isGap ch = true := by
  simp only [isSkipped, Bool.or_eq_true] at h
  simp only [isGap, isBreakOrEnd, Bool.or_eq_true]
  exact h.elim (fun space => Or.inl (Or.inl space)) fun brk => Or.inr (Or.inl brk)

namespace Cursor

theorem rest_advance (c : Cursor) : c.advance.rest = c.rest.drop 1 := by
  obtain ⟨rest, size, index, line, column⟩ := c
  cases rest with
  | nil => rfl
  | cons ch rest =>
    unfold advance
    dsimp only
    split
    next => rfl
    next => split <;> rfl

theorem size_advance (c : Cursor) : c.advance.size = c.size := by
  obtain ⟨rest, size, index, line, column⟩ := c
  cases rest with
  | nil => rfl
  | cons ch rest =>
    unfold advance
    dsimp only
    split
    next => rfl
    next => split <;> rfl

theorem skip_succ (c : Cursor) (n : Nat) : c.skip (n + 1) = c.advance.skip n := rfl

@[simp] theorem rest_skip (c : Cursor) (n : Nat) : (c.skip n).rest = c.rest.drop n := by
  induction n generalizing c with
  | zero => rfl
  | succ n ih => rw [skip_succ, ih, rest_advance, List.drop_drop, Nat.add_comm]

@[simp] theorem size_skip (c : Cursor) (n : Nat) : (c.skip n).size = c.size := by
  induction n generalizing c with
  | zero => rfl
  | succ n ih => rw [skip_succ, ih, size_advance]

theorem skip_skip (c : Cursor) (m n : Nat) : (c.skip m).skip n = c.skip (m + n) := by
  induction m generalizing c with
  | zero => rw [Nat.zero_add]; rfl
  | succ m ih => rw [skip_succ, ih, Nat.succ_add, skip_succ]

theorem rest_skip_append {c : Cursor} {cs k : List Char} (h : c.rest = cs ++ k) :
    (c.skip cs.length).rest = k := by
  rw [rest_skip, h, List.drop_left]

/-- On one line the characters are counted, those that begin a pair left out. -/
theorem skip_inLine {c : Cursor} {cs k : List Char} (h : c.rest = cs ++ k)
    (inLine : ∀ ch ∈ cs, isBreak ch = false) :
    (c.skip cs.length).line = c.line ∧
      (c.skip cs.length).index = c.index + cs.countP fun ch => !isLead ch := by
  induction cs generalizing c with
  | nil => exact ⟨rfl, rfl⟩
  | cons ch cs ih =>
    rw [List.forall_mem_cons] at inLine
    have rest : c.advance.rest = cs ++ k := by rw [rest_advance, h]; rfl
    obtain ⟨line, index⟩ := ih rest inLine.2
    rw [List.length_cons, skip_succ, line, index, List.countP_cons]
    obtain ⟨rest, size, index, line, column⟩ := c
    cases h
    simp only [advance, inLine.1, Bool.false_and, Bool.false_eq_true, if_false]
    cases isLead ch with
    | true => simp
    | false => simp [Nat.add_assoc, Nat.add_comm 1]

theorem peek_of_rest {c : Cursor} {ch : Char} {k : List Char} (h : c.rest = ch :: k) :
    c.peek = ch := by
  rw [peek, h]
  rfl

theorem rest_of_peek {c : Cursor} {ch : Char} (h : c.peek = ch) (some : ch ≠ endMark) :
    c.rest = ch :: c.advance.rest := by
  rw [rest_advance]
  cases rest : c.rest with
  | nil =>
    rw [peek, rest] at h
    exact absurd h.symm some
  | cons d k =>
    rw [peek_of_rest rest] at h
    rw [h]
    rfl

theorem peekAt_one (c : Cursor) : c.peekAt 1 = c.advance.peek := by
  rw [peekAt, peek, rest_advance]

/-- A move over spaces and line ends. -/
structure Passes (c : Cursor) (cs : List Char) (after : Cursor) : Prop where
  skipped : ∀ ch ∈ cs, isSkipped ch = true
  rest : c.rest = cs ++ after.rest
  moved : after = c.skip cs.length

/-- The spaces and line ends that stand here. -/
def blanks (c : Cursor) : List Char := c.rest.takeWhile isSkipped

/-- What stands behind them. -/
def ahead (c : Cursor) : List Char := c.rest.dropWhile isSkipped

def toAhead (c : Cursor) : Cursor := c.skip c.blanks.length

theorem rest_toAhead (c : Cursor) : c.toAhead.rest = c.ahead :=
  rest_skip_append List.takeWhile_append_dropWhile.symm

theorem passes_toAhead (c : Cursor) : c.Passes c.blanks c.toAhead where
  skipped ch mem := List.all_eq_true.mp List.all_takeWhile ch mem
  rest := by
    rw [c.rest_toAhead]
    exact List.takeWhile_append_dropWhile.symm
  moved := rfl

theorem passes_skipSpaces (c : Cursor) :
    c.Passes (c.rest.takeWhile (· == ' ')) c.skipSpaces where
  skipped ch mem := by
    have space : ch = ' ' := beq_iff_eq.mp (List.all_eq_true.mp List.all_takeWhile ch mem)
    rw [space]
    decide
  rest := by
    rw [show c.skipSpaces = c.skip (c.rest.takeWhile (· == ' ')).length from rfl,
      rest_skip_append List.takeWhile_append_dropWhile.symm]
    exact List.takeWhile_append_dropWhile.symm
  moved := rfl

/-- The end of a line is one character or two. -/
theorem passes_lineBreak {c after : Cursor} {brk : Char} (h : c.lineBreak? = some (brk, after)) :
    ∃ cs, cs ≠ [] ∧ (∀ ch ∈ cs, isBreak ch = true) ∧ c.Passes cs after := by
  have one (mark : isBreak c.peek = true) (moved : c.advance = after) :
      ∃ cs, cs ≠ [] ∧ (∀ ch ∈ cs, isBreak ch = true) ∧ c.Passes cs after := by
    have skipped : isSkipped c.peek = true := by rw [isSkipped, mark, Bool.or_true]
    refine ⟨[c.peek], List.cons_ne_nil _ _, by simpa using mark, by simpa using skipped, ?_,
      moved.symm⟩
    rw [← moved]
    refine rest_of_peek rfl ?_
    intro eq
    rw [eq] at mark
    exact absurd mark (by decide)
  unfold lineBreak? at h
  split at h
  next pair =>
    obtain ⟨-, rfl⟩ := Prod.mk.inj (Option.some.inj h)
    rw [peekAt_one] at pair
    refine ⟨['\r', '\n'], List.cons_ne_nil _ _, List.all_eq_true.mp (by decide),
      List.all_eq_true.mp (by decide), ?_, rfl⟩
    rw [rest_of_peek pair.1 (by decide), rest_of_peek pair.2 (by decide)]
    rfl
  next =>
    split at h
    next mark =>
      refine one ?_ (Prod.mk.inj (Option.some.inj h)).2
      rcases mark with eq | eq <;> rw [eq] <;> decide
    next =>
      split at h
      next mark => exact one mark (Prod.mk.inj (Option.some.inj h)).2
      next => cases h

theorem isBreak_peek_of_none {c : Cursor} (h : c.lineBreak? = none) : isBreak c.peek = false := by
  unfold lineBreak? at h
  split at h
  next => cases h
  next =>
    split at h
    next => cases h
    next =>
      split at h
      next => cases h
      next no => exact Bool.eq_false_iff.mpr no

/-- Ink stands where there is neither a space nor the end of a line. -/
theorem isSkipped_peek_of_none {c : Cursor} (h : c.lineBreak? = none) (space : c.peek ≠ ' ') :
    isSkipped c.peek = false := by
  rw [isSkipped, isBreak_peek_of_none h, Bool.or_false]
  exact beq_eq_false_iff_ne.mpr space

theorem lineBreak?_eq_none {c : Cursor} (h : isBreak c.peek = false) : c.lineBreak? = none := by
  have ne (ch : Char) (mark : isBreak ch = true) : c.peek ≠ ch := by
    rintro rfl
    rw [mark] at h
    cases h
  unfold lineBreak?
  rw [if_neg fun pair => ne '\r' (by decide) pair.1,
    if_neg fun mark => mark.elim (ne _ (by decide)) (ne _ (by decide)), h]
  rfl

namespace Passes

variable {c after : Cursor} {cs : List Char} (h : c.Passes cs after)

include h

theorem ahead_eq : after.ahead = c.ahead := by
  unfold ahead
  rw [h.rest, List.dropWhile_append_of_pos h.skipped]

theorem blanks_eq : c.blanks = cs ++ after.blanks := by
  unfold blanks
  rw [h.rest, List.takeWhile_append_of_pos h.skipped]

theorem toAhead_eq : after.toAhead = c.toAhead := by
  rw [toAhead, toAhead, h.blanks_eq, List.length_append, ← skip_skip, ← h.moved]

theorem length_rest : c.rest.length = cs.length + after.rest.length := by
  rw [h.rest, List.length_append]

theorem size_eq : after.size = c.size := by
  rw [h.moved, size_skip]

end Passes

theorem peek_toAhead {c : Cursor} {ch : Char} {k : List Char} (h : c.ahead = ch :: k) :
    c.toAhead.peek = ch :=
  peek_of_rest (c.rest_toAhead.trans h)

theorem blanks_of_peek {c : Cursor} (h : isSkipped c.peek = false) : c.blanks = [] := by
  unfold blanks
  cases rest : c.rest with
  | nil => rfl
  | cons ch k =>
    rw [peek_of_rest rest] at h
    exact List.takeWhile_cons_of_neg (by simp [h])

theorem toAhead_of_peek {c : Cursor} (h : isSkipped c.peek = false) : c.toAhead = c := by
  rw [toAhead, blanks_of_peek h]
  rfl

theorem Passes.toAhead_of_peek {c after : Cursor} {cs : List Char} (h : c.Passes cs after)
    (ink : isSkipped after.peek = false) : c.toAhead = after :=
  h.toAhead_eq.symm.trans (Cursor.toAhead_of_peek ink)

theorem peek_skipSpaces (c : Cursor) : c.skipSpaces.peek ≠ ' ' := by
  intro space
  have rest := List.append_cancel_left
    (c.passes_skipSpaces.rest.symm.trans List.takeWhile_append_dropWhile.symm)
  have head := List.head?_dropWhile_not (· == ' ') c.rest
  rw [← rest, rest_of_peek space (by decide)] at head
  simp at head

end Cursor

namespace Scan

/-- Between two tokens all spaces and line ends are skipped; a key may begin behind a line end
outside of brackets. -/
theorem toNextToken_eq {n : Nat} {s : Scan} (enough : s.cursor.rest.length < n)
    (code : s.cursor.ahead.head? ≠ some '#') :
    toNextToken n s =
      { s with
        cursor := s.cursor.toAhead
        allowsKey := s.allowsKey || (!s.inFlow && s.cursor.blanks.any isBreak) } := by
  induction n generalizing s with
  | zero => exact absurd enough (Nat.not_lt_zero _)
  | succ n ih =>
    have spaces := s.cursor.passes_skipSpaces
    have plain : s.cursor.skipSpaces.skipComment = s.cursor.skipSpaces := by
      rw [Cursor.skipComment, if_neg]
      intro mark
      rw [← spaces.ahead_eq, Cursor.ahead, Cursor.rest_of_peek mark (by decide)] at code
      exact code rfl
    have unbroken : (s.cursor.rest.takeWhile (· == ' ')).any isBreak = false := by
      rw [List.any_eq_false]
      intro ch mem
      have space : ch = ' ' := beq_iff_eq.mp (List.all_eq_true.mp List.all_takeWhile ch mem)
      rw [space]
      decide
    rw [toNextToken, plain, ← spaces.toAhead_eq, spaces.blanks_eq, List.any_append, unbroken,
      Bool.false_or]
    cases brk : s.cursor.skipSpaces.lineBreak? with
    | none =>
      have ink := Cursor.isSkipped_peek_of_none brk s.cursor.peek_skipSpaces
      rw [Cursor.toAhead_of_peek ink, Cursor.blanks_of_peek ink, List.any_nil, Bool.and_false,
        Bool.or_false]
    | some found =>
      obtain ⟨mark, after⟩ := found
      obtain ⟨cs, some, marks, passes⟩ := Cursor.passes_lineBreak brk
      have broken : cs.any isBreak = true := by
        obtain ⟨ch, mem⟩ := List.exists_mem_of_ne_nil cs some
        exact List.any_eq_true.mpr ⟨ch, mem, marks ch mem⟩
      have shorter : after.rest.length < n := by
        have := spaces.length_rest
        have := passes.length_rest
        have := List.length_pos_iff.mpr some
        omega
      dsimp only
      rw [ih (s := { s with cursor := after, allowsKey := s.allowsKey || !s.inFlow }) shorter
        (by rw [passes.ahead_eq, spaces.ahead_eq]; exact code)]
      rw [← passes.toAhead_eq, passes.blanks_eq, List.any_append, broken]
      simp only [inFlow, Bool.and_true, Bool.true_or]
      cases s.allowsKey <;> cases s.flowDepth != 0 <;> simp

end Scan

end Yaml

end Gatehouse
