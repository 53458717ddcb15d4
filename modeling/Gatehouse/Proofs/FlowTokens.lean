import Gatehouse.Proofs.CursorMoves

namespace Gatehouse

namespace Yaml

namespace Scan

/-- The states that are reached from one by taking tokens, each of which takes characters. -/
inductive Reaches (s : Scan) : Scan → Prop
  | start : Reaches s s
  | next {t u : Scan} : Reaches s t → t.step = .ok (true, u) →
      u.cursor.rest.length < t.cursor.rest.length → Reaches s u

theorem Reaches.trans {s t u : Scan} (first : s.Reaches t) (second : t.Reaches u) :
    s.Reaches u := by
  induction second with
  | start => exact first
  | next _ step shorter ih => exact ih.next step shorter

-- the step is not looked into here, which would take long
seal step in
theorem run_succ (n : Nat) (s : Scan) :
    run (n + 1) s =
      match s.step with
      | .ok (true, t) => run n t
      | .ok (false, t) => t.tokens.reverse
      | .error fault => s.tokens.reverse.take s.settled ++ [Token.broken fault] := rfl

/-- A run passes through what is reached, with more steps left than characters. -/
theorem Reaches.exists_run_eq {s u : Scan} (h : s.Reaches u) {n : Nat}
    (enough : s.cursor.rest.length < n) :
    ∃ m, u.cursor.rest.length < m ∧ run n s = run m u := by
  induction h with
  | start => exact ⟨n, enough, rfl⟩
  | @next t u _ step shorter ih =>
    obtain ⟨m, more, eq⟩ := ih
    cases m with
    | zero => exact absurd more (Nat.not_lt_zero _)
    | succ m =>
      exact ⟨m, by omega, by rw [eq, run_succ, step]⟩

/-- The tokens so far, the last one first; what stands ahead, and how many brackets are open there.
No key has to begin anywhere, and nothing is indented. -/
structure Stands (s : Scan) (ts : List Token) (k : List Char) (depth : Nat) : Prop where
  tokens : s.tokens = ts
  ahead : s.cursor.ahead = k.dropWhile isSkipped
  depth : s.flowDepth = depth
  fits : s.cursor.rest.length ≤ s.cursor.size
  free : ∀ key ∈ s.keyStarts, key.2.required = false
  indent : s.indent = -1
  outer : s.outerIndents = []

variable {s : Scan} {ts : List Token} {k : List Char} {d : Nat}

/-- What is skipped does not matter. -/
theorem Stands.congr {k' : List Char} (h : s.Stands ts k d)
    (same : k.dropWhile isSkipped = k'.dropWhile isSkipped) : s.Stands ts k' d :=
  { h with ahead := h.ahead.trans same }

/-- The state behind some characters, with other tokens and keys. -/
theorem Stands.moved (h : s.Stands ts k d) {u : Scan} {ts' : List Token} {k' : List Char}
    {d' n : Nat} (cursor : u.cursor = s.cursor.skip n) (tokens : u.tokens = ts')
    (ahead : u.cursor.ahead = k'.dropWhile isSkipped) (depth : u.flowDepth = d')
    (free : ∀ key ∈ u.keyStarts, key.2.required = false) (indent : u.indent = s.indent)
    (outer : u.outerIndents = s.outerIndents) : u.Stands ts' k' d' where
  tokens := tokens
  ahead := ahead
  depth := depth
  fits := by
    have fits := h.fits
    rw [cursor, Cursor.rest_skip, Cursor.size_skip, List.length_drop]
    omega
  free := free
  indent := indent.trans h.indent
  outer := outer.trans h.outer

/-- The state where the next token begins. -/
def arrived (s : Scan) : Scan :=
  { s with
    cursor := s.cursor.toAhead
    allowsKey := s.allowsKey || (!s.inFlow && s.cursor.blanks.any isBreak)
    keyStarts := s.keyStarts.filter fun (_, key) => !isStale s.cursor.toAhead key }

theorem Stands.arrived (h : s.Stands ts k d) : s.arrived.Stands ts k d := by
  refine h.moved rfl h.tokens ?_ h.depth ?_ rfl rfl
  · exact s.cursor.passes_toAhead.ahead_eq.trans h.ahead
  · exact fun key mem => h.free key (List.mem_filter.mp mem).1

theorem Stands.inFlow (h : s.Stands ts k (d + 1)) : s.inFlow = true := by
  rw [Scan.inFlow, h.depth]
  exact bne_iff_ne.mpr (Nat.succ_ne_zero d)

theorem Stands.rest_arrived (h : s.Stands ts k d) :
    s.arrived.cursor.rest = k.dropWhile isSkipped :=
  s.cursor.rest_toAhead.trans h.ahead

theorem unwindTo_of_outer (outer : s.outerIndents = []) (column : Int) :
    s.unwindTo column = s := by
  unfold unwindTo
  split
  next => rfl
  next => rw [outer, unwind, ← outer]

/-- The next token is read where it begins, unless the text ends there. -/
theorem Stands.step_eq (h : s.Stands ts k d) (code : (k.dropWhile isSkipped).head? ≠ some '#') :
    s.step =
      if s.arrived.cursor.peek = endMark then s.arrived.endStream.map (false, ·)
      else s.arrived.readToken.map (true, ·) := by
  have next : toNextToken s.cursor.steps s = _ :=
    toNextToken_eq (Nat.lt_succ_of_le h.fits) (by rwa [h.ahead])
  have fresh : (s.keyStarts.any fun (_, key) => isStale s.cursor.toAhead key && key.required) =
      false := by
    rw [List.any_eq_false]
    rintro ⟨depth, key⟩ mem
    dsimp only
    rw [show key.required = false from h.free _ mem, Bool.and_false]
    exact Bool.false_ne_true
  have kept : (toNextToken s.cursor.steps s).dropStaleKeys = .ok s.arrived := by
    rw [next, dropStaleKeys, if_neg (by rw [fresh]; exact Bool.false_ne_true)]
    rfl
  rw [step, kept]
  show (if (s.arrived.unwindTo s.arrived.cursor.column).cursor.peek = endMark then _ else _) = _
  rw [unwindTo_of_outer h.arrived.outer]
  split
  next => cases s.arrived.endStream <;> rfl
  next => cases s.arrived.readToken <;> rfl

/-- A character that a token begins with, and that is no part of the notation around tokens. -/
def isTokenStart (ch : Char) : Bool := !isSkipped ch && ch != '#' && ch != endMark

theorem dropWhile_of_tokenStart {ch : Char} (h : isTokenStart ch = true) (k : List Char) :
    (ch :: k).dropWhile isSkipped = ch :: k := by
  simp only [isTokenStart, Bool.and_eq_true, Bool.not_eq_true'] at h
  exact List.dropWhile_cons_of_neg (by simp [h.1.1])

/-- What is read where a token begins is reached. -/
theorem Stands.reaches {ch : Char} (h : s.Stands ts (ch :: k) d) (starts : isTokenStart ch = true)
    {u : Scan} (read : s.arrived.readToken = .ok u)
    (shorter : u.cursor.rest.length ≤ k.length) : s.Reaches u := by
  have rest := h.rest_arrived
  rw [dropWhile_of_tokenStart starts] at rest
  have peek : s.arrived.cursor.peek = ch := Cursor.peek_of_rest rest
  simp only [isTokenStart, Bool.and_eq_true, bne_iff_ne] at starts
  have step : s.step = .ok (true, u) := by
    rw [h.step_eq, if_neg (by rw [peek]; exact starts.2), read]
    · rfl
    · rw [← h.rest_arrived, rest]
      exact fun eq => starts.1.2 (Option.some.inj eq)
  refine Reaches.start.next step ?_
  have parts := s.cursor.passes_toAhead.length_rest
  have longer : s.cursor.toAhead.rest.length = k.length + 1 := congrArg List.length rest
  omega

theorem exists_dropKey (h : ∀ key ∈ s.keyStarts, key.2.required = false) :
    ∃ keys, s.dropKey = .ok { s with keyStarts := keys } ∧ keys ⊆ s.keyStarts := by
  unfold dropKey
  cases found : s.keyStarts.lookup s.flowDepth with
  | none => exact ⟨s.keyStarts, rfl, fun key mem => mem⟩
  | some key =>
    have free : key.required = false := by
      obtain ⟨before, after, eq, -⟩ := List.lookup_eq_some_iff.mp found
      exact h (s.flowDepth, key) (by rw [eq]; simp)
    refine ⟨s.keyStarts.filter fun key => key.1 != s.flowDepth, ?_, List.filter_sublist.subset⟩
    simp only [free, Bool.false_eq_true, if_false]

/-- The note that a key may begin here, which does not have to be one. -/
def keyHere (s : Scan) : Nat × KeyStart :=
  (s.flowDepth, ⟨s.count, false, s.cursor.index, s.cursor.line, s.cursor.column⟩)

theorem Stands.exists_noteKey (h : s.Stands ts k d) :
    ∃ keys, s.noteKey = .ok { s with keyStarts := keys } ∧
      (∀ key ∈ keys, key.2.required = false) ∧
      (s.allowsKey = true → keys.head? = some s.keyHere) := by
  unfold noteKey
  split
  next allows =>
    obtain ⟨keys, eq, sub⟩ := exists_dropKey h.free
    have required : (!s.inFlow && decide (s.indent = (s.cursor.column : Int))) = false := by
      rw [h.indent, decide_eq_false (by omega), Bool.and_false]
    refine ⟨s.keyHere :: keys, ?_, ?_, fun _ => rfl⟩
    · rw [eq]
      show Except.ok { s with keyStarts := _ } = _
      rw [keyHere, ← required]
      rfl
    · exact List.forall_mem_cons.mpr ⟨rfl, fun key mem => h.free key (sub mem)⟩
  next forbids => exact ⟨s.keyStarts, rfl, h.free, fun allows => absurd allows forbids⟩

/-- No directive and no mark between documents begins with the character. -/
theorem not_startsWith {c : Cursor} {ch mark : Char} (h : c.peek = ch) (other : ch ≠ mark) :
    c.startsWith mark = false := by
  rw [Cursor.startsWith, h, beq_eq_false_iff_ne.mpr other]
  rfl

/-- A character that stands by itself between brackets. -/
def isMark (ch : Char) : Bool := "[]\x7b\x7d,".toList.contains ch

theorem isTokenStart_of_isMark {ch : Char} (h : isMark ch = true) : isTokenStart ch = true := by
  simp only [isMark, List.contains_iff_mem] at h
  exact List.all_eq_true.mp (by decide : "[]\x7b\x7d,".toList.all isTokenStart = true) ch h

theorem readToken_of_mark {ch : Char} (h : s.cursor.peek = ch) (mark : isMark ch = true) :
    s.readToken =
      if ch = '[' then s.openFlow .flowSequenceStart
      else if ch = '{' then s.openFlow .flowMappingStart
      else if ch = ']' then s.closeFlow .flowSequenceEnd
      else if ch = '}' then s.closeFlow .flowMappingEnd
      else s.flowEntry := by
  have others : ch ≠ '%' ∧ ch ≠ '-' ∧ ch ≠ '.' := by
    have ne {other : Char} (hother : isMark other = false) : ch ≠ other := by
      rintro rfl
      rw [mark] at hother
      cases hother
    exact ⟨ne (by decide), ne (by decide), ne (by decide)⟩
  rw [readToken]
  simp only [h, others.1, not_startsWith h others.2.1, not_startsWith h others.2.2, and_false,
    if_false, Bool.false_eq_true]
  by_cases comma : ch = ','
  · simp [comma]
  · have rest : ch = '[' ∨ ch = ']' ∨ ch = '{' ∨ ch = '}' := by
      simpa [isMark, comma] using mark
    rcases rest with rfl | rfl | rfl | rfl <;> rfl

variable {ch : Char}

/-- The rest behind a mark that is read. -/
theorem Stands.ahead_mark (h : s.Stands ts (ch :: k) d) (mark : isMark ch = true) :
    s.arrived.cursor.peek = ch ∧ (s.arrived.cursor.skip 1).rest = k := by
  have rest := h.rest_arrived
  rw [dropWhile_of_tokenStart (isTokenStart_of_isMark mark)] at rest
  have behind : (s.arrived.cursor.skip [ch].length).rest = k := Cursor.rest_skip_append rest
  exact ⟨Cursor.peek_of_rest rest, behind⟩

/-- What a mark is read as is reached, and the rest stands ahead. -/
theorem Stands.reaches_mark (h : s.Stands ts (ch :: k) d) (mark : isMark ch = true) {t : Token}
    {keys : List (Nat × KeyStart)} (free : ∀ key ∈ keys, key.2.required = false) {d' : Nat}
    {allows : Bool}
    (read : s.arrived.readToken = .ok
      (({ s.arrived with
        flowDepth := d', allowsKey := allows, keyStarts := keys }.skip 1).push t)) :
    ∃ u, s.Reaches u ∧ u.Stands (t :: ts) k d' ∧ u.allowsKey = allows := by
  obtain ⟨-, rest⟩ := h.ahead_mark mark
  refine ⟨_, h.reaches (isTokenStart_of_isMark mark) read (Nat.le_of_eq (congrArg _ rest)), ?_, rfl⟩
  refine h.arrived.moved (n := 1) rfl (congrArg (t :: ·) h.tokens) ?_ rfl free rfl rfl
  exact congrArg (List.dropWhile isSkipped) rest

theorem Stands.opens (h : s.Stands ts (ch :: k) d) {t : Token}
    (bracket : ch = '[' ∧ t = .flowSequenceStart ∨ ch = '{' ∧ t = .flowMappingStart) :
    ∃ u, s.Reaches u ∧ u.Stands (t :: ts) k (d + 1) ∧ u.allowsKey = true := by
  have mark : isMark ch = true := by rcases bracket with ⟨rfl, -⟩ | ⟨rfl, -⟩ <;> decide
  obtain ⟨keys, noted, free, -⟩ := h.arrived.exists_noteKey
  refine h.reaches_mark mark free ?_
  have opened : s.arrived.readToken = s.arrived.openFlow t := by
    rw [readToken_of_mark (h.ahead_mark mark).1 mark]
    rcases bracket with ⟨rfl, rfl⟩ | ⟨rfl, rfl⟩ <;> rfl
  rw [opened, openFlow, noted, ← h.arrived.depth]
  rfl

theorem Stands.closes (h : s.Stands ts (ch :: k) (d + 1)) {t : Token}
    (bracket : ch = ']' ∧ t = .flowSequenceEnd ∨ ch = '}' ∧ t = .flowMappingEnd) :
    ∃ u, s.Reaches u ∧ u.Stands (t :: ts) k d := by
  have mark : isMark ch = true := by rcases bracket with ⟨rfl, -⟩ | ⟨rfl, -⟩ <;> decide
  obtain ⟨keys, dropped, sub⟩ := exists_dropKey h.arrived.free
  have closed : s.arrived.readToken = s.arrived.closeFlow t := by
    rw [readToken_of_mark (h.ahead_mark mark).1 mark]
    rcases bracket with ⟨rfl, rfl⟩ | ⟨rfl, rfl⟩ <;> rfl
  have read : s.arrived.readToken = .ok
      (({ s.arrived with
        flowDepth := d, allowsKey := false, keyStarts := keys }.skip 1).push t) := by
    rw [closed, closeFlow, dropped]
    show (if s.arrived.flowDepth = 0 then _ else _) = _
    rw [if_neg (by rw [h.arrived.depth]; exact Nat.succ_ne_zero d), h.arrived.depth]
    rfl
  obtain ⟨u, reaches, stands, -⟩ :=
    h.reaches_mark mark (fun key mem => h.arrived.free key (sub mem)) read
  exact ⟨u, reaches, stands⟩

theorem Stands.separates (h : s.Stands ts (',' :: k) d) :
    ∃ u, s.Reaches u ∧ u.Stands (.flowEntry :: ts) k d ∧ u.allowsKey = true := by
  obtain ⟨keys, dropped, sub⟩ := exists_dropKey h.arrived.free
  refine h.reaches_mark (by decide) (fun key mem => h.arrived.free key (sub mem)) ?_
  rw [readToken_of_mark (h.ahead_mark (by decide)).1 (by decide), ← h.arrived.depth]
  show s.arrived.flowEntry = _
  rw [flowEntry, dropped]
  rfl

/-- What may follow a plain word: a comma or a closing bracket, behind spaces and line ends. -/
def IsEnd (k : List Char) : Prop :=
  ∃ ch more, k.dropWhile isSkipped = ch :: more ∧ (ch = ',' ∨ ch = ']' ∨ ch = '}')

/-- Words are made of letters, digits, signs and points. -/
def isPlainChar (ch : Char) : Bool := ch.isAlphanum || "+-.".toList.contains ch

/-- A word begins with a letter or a digit, or with such a character behind a dash. -/
def IsPlainWord (word : List Char) : Prop :=
  (∀ ch ∈ word, isPlainChar ch = true) ∧
    ∃ sign first rest, word = sign ++ first :: rest ∧ (sign = [] ∨ sign = ['-']) ∧
      first.isAlphanum = true

theorem atSeparator_eq_false {c : Cursor}
    (h : ∀ ch, c.ahead.head? = some ch → ch ≠ '-' ∧ ch ≠ '.') : c.atSeparator = false := by
  have peek : c.peek ≠ '-' ∧ c.peek ≠ '.' := by
    by_cases skipped : isSkipped c.peek = true
    · constructor <;> (intro eq; rw [eq] at skipped; exact absurd skipped (by decide))
    · rw [Bool.not_eq_true] at skipped
      cases ahead : c.ahead with
      | nil =>
        rw [← c.toAhead_of_peek skipped, Cursor.peek, c.rest_toAhead, ahead]
        decide
      | cons ch k =>
        rw [← c.toAhead_of_peek skipped, Cursor.peek_toAhead ahead]
        exact h ch (by rw [ahead]; rfl)
  rw [Cursor.atSeparator, not_startsWith rfl peek.1, not_startsWith rfl peek.2, Bool.or_false]

/-- Behind a plain word all spaces and line ends are passed, unless a mark between documents
follows. -/
theorem exists_plainBreaks_eq {n : Nat} {c : Cursor} (enough : c.rest.length < n)
    (h : ∀ ch, c.ahead.head? = some ch → ch ≠ '-' ∧ ch ≠ '.') :
    ∃ breaks, plainBreaks n c = (some breaks, c.toAhead) := by
  induction n generalizing c with
  | zero => exact absurd enough (Nat.not_lt_zero _)
  | succ n ih =>
    have further {cs : List Char} {after : Cursor} (nonempty : cs ≠ [])
        (passes : c.Passes cs after) :
        ∃ breaks, plainBreaks n after = (some breaks, c.toAhead) := by
      have length := passes.length_rest
      have := List.length_pos_iff.mpr nonempty
      rw [← passes.toAhead_eq]
      exact ih (by omega) (by rwa [passes.ahead_eq])
    unfold plainBreaks
    split
    next space =>
      have passes : c.Passes [' '] c.advance :=
        ⟨List.all_eq_true.mp (by decide), Cursor.rest_of_peek space (by decide), rfl⟩
      exact further (List.cons_ne_nil _ _) passes
    next ink =>
      cases brk : c.lineBreak? with
      | none =>
        rw [Cursor.toAhead_of_peek (Cursor.isSkipped_peek_of_none brk ink)]
        exact ⟨[], rfl⟩
      | some found =>
        obtain ⟨mark, after⟩ := found
        obtain ⟨cs, some, -, passes⟩ := Cursor.passes_lineBreak brk
        obtain ⟨breaks, more⟩ := further some passes
        dsimp only
        rw [atSeparator_eq_false (by rwa [passes.ahead_eq]), more]
        exact ⟨mark :: breaks, rfl⟩

theorem after_plainGap {c : Cursor} (fits : c.rest.length ≤ c.size)
    (h : ∀ ch, c.ahead.head? = some ch → ch ≠ '-' ∧ ch ≠ '.') : (plainGap c).after = c.toAhead := by
  have spaces := c.passes_skipSpaces
  unfold plainGap
  dsimp only
  cases brk : c.skipSpaces.lineBreak? with
  | none =>
    rw [← spaces.toAhead_eq,
      Cursor.toAhead_of_peek (Cursor.isSkipped_peek_of_none brk c.peek_skipSpaces)]
  | some found =>
    obtain ⟨mark, after⟩ := found
    obtain ⟨cs, -, -, passes⟩ := Cursor.passes_lineBreak brk
    have ahead : after.ahead = c.ahead := passes.ahead_eq.trans spaces.ahead_eq
    have enough : after.rest.length < after.steps := by
      rw [Cursor.steps, passes.size_eq, spaces.size_eq]
      have := spaces.length_rest
      have := passes.length_rest
      omega
    obtain ⟨texts, more⟩ := exists_plainBreaks_eq enough (by rwa [ahead])
    dsimp only
    rw [atSeparator_eq_false (by rwa [ahead]), more, ← spaces.toAhead_eq, ← passes.toAhead_eq]
    rfl

theorem ne_of_isPlainChar {ch other : Char} (h : isPlainChar ch = true)
    (hother : isPlainChar other = false) : ch ≠ other := by
  rintro rfl
  rw [h] at hother
  cases hother

theorem isGap_of_isPlainChar {ch : Char} (h : isPlainChar ch = true) : isGap ch = false := by
  have ne (other : Char) (hother : isPlainChar other = false) : (ch == other) = false :=
    beq_eq_false_iff_ne.mpr (ne_of_isPlainChar h hother)
  simp only [isGap, isBreakOrEnd, isBreak, endMark, ne _ (by decide : isPlainChar ' ' = false),
    ne _ (by decide : isPlainChar '\t' = false), ne _ (by decide : isPlainChar '\n' = false),
    ne _ (by decide : isPlainChar '\r' = false), ne _ (by decide : isPlainChar '\u0085' = false),
    ne _ (by decide : isPlainChar '\u2028' = false),
    ne _ (by decide : isPlainChar '\u2029' = false),
    ne _ (by decide : isPlainChar '\x00' = false), Bool.or_self]

/-- Nothing plain is left where a word may end. -/
theorem plainRun_of_isEnd {k : List Char} (ends : IsEnd k) : plainRun true k = [] := by
  obtain ⟨ch, more, eq, mark⟩ := ends
  cases k with
  | nil => rfl
  | cons c k =>
    have stops : (isGap c || ",?[]\x7b\x7d".toList.contains c) = true := by
      by_cases skipped : isSkipped c = true
      · rw [isGap_of_isSkipped skipped, Bool.true_or]
      · rw [List.dropWhile_cons_of_neg skipped] at eq
        rw [(List.cons.inj eq).1]
        rcases mark with rfl | rfl | rfl <;> decide
    rw [plainRun, if_pos]
    simp only [Bool.or_eq_true] at stops ⊢
    exact stops.elim (fun gap => Or.inl (Or.inl gap)) fun flow => Or.inr (by simpa using flow)

theorem plainRun_word {word k : List Char} (plain : ∀ ch ∈ word, isPlainChar ch = true)
    (ends : IsEnd k) : plainRun true (word ++ k) = word := by
  induction word with
  | nil => exact plainRun_of_isEnd ends
  | cons ch word ih =>
    rw [List.forall_mem_cons] at plain
    have inside : ",?[]\x7b\x7d".toList.contains ch = false := by
      rw [Bool.eq_false_iff]
      intro mem
      exact absurd plain.1 (by
        simpa using List.all_eq_true.mp
          (by decide : ",?[]\x7b\x7d".toList.all (fun ch => !isPlainChar ch) = true) ch
          (List.contains_iff_mem.mp mem))
    rw [List.cons_append, plainRun, if_neg, ih plain.2]
    rw [isGap_of_isPlainChar plain.1, inside,
      beq_eq_false_iff_ne.mpr (ne_of_isPlainChar plain.1 (by decide : isPlainChar ':' = false))]
    simp

/-- A word is read whole, with the spaces and line ends behind it. -/
theorem exists_readPlain_eq {c : Cursor} {word k : List Char} (rest : c.rest = word ++ k)
    (fits : c.rest.length ≤ c.size) (plain : IsPlainWord word) (ends : IsEnd k) (indent : Int) :
    ∃ crosses, readPlain true indent c = ⟨word, crosses, (c.skip word.length).toAhead⟩ := by
  obtain ⟨chars, sign, first, more, eq, -, -⟩ := plain
  have nonempty : word ≠ [] := by rw [eq]; simp
  have run : plainRun true c.rest = word := by rw [rest, plainRun_word chars ends]
  have code : c.peek ≠ '#' := by
    obtain ⟨ch, tail, eq⟩ := List.exists_cons_of_ne_nil nonempty
    rw [Cursor.peek_of_rest (by rw [rest, eq]; rfl)]
    exact ne_of_isPlainChar (chars ch (by rw [eq]; exact List.mem_cons_self)) (by decide)
  have ahead : (c.skip word.length).ahead = k.dropWhile isSkipped := by
    rw [Cursor.ahead, Cursor.rest_skip_append rest]
  have after : (plainGap (c.skip word.length)).after = (c.skip word.length).toAhead := by
    refine after_plainGap ?_ ?_
    · rw [Cursor.rest_skip, Cursor.size_skip, List.length_drop]
      omega
    · obtain ⟨ch, tail, eq, mark⟩ := ends
      intro d hd
      rw [ahead, eq] at hd
      rw [← Option.some.inj hd]
      rcases mark with rfl | rfl | rfl <;> decide
  have last : plainRun true (c.skip word.length).toAhead.rest = [] := by
    rw [Cursor.rest_toAhead, ahead]
    refine plainRun_of_isEnd ?_
    obtain ⟨ch, tail, eq, mark⟩ := ends
    refine ⟨ch, tail, ?_, mark⟩
    rw [eq]
    exact List.dropWhile_cons_of_neg (by rcases mark with rfl | rfl | rfl <;> decide)
  rw [readPlain, Cursor.steps, plainScalar]
  simp only [run, nonempty, code, or_self, if_false]
  split
  next => exact ⟨_, by rw [after]; rfl⟩
  next =>
    cases c.size with
    | zero => exact ⟨_, by rw [plainScalar, after, List.nil_append, List.append_nil]⟩
    | succ n =>
      rw [plainScalar]
      simp only [after, last, or_true, if_true]
      exact ⟨_, by rw [List.nil_append, List.append_nil]⟩

/-- The marks that tokens other than plain words begin with, the dash apart. -/
def tokenMarks : List Char :=
  ['%', '[', ']', '{', '}', ',', '?', ':', '*', '&', '!', '|', '>', '\'', '"']

theorem readToken_of_unmarked (marks : ∀ mark ∈ tokenMarks, s.cursor.peek ≠ mark)
    (dash : isGap (s.cursor.peekAt 1) = true → s.cursor.peek ≠ '-')
    (separate : s.cursor.atSeparator = false) (starts : s.startsPlain = true) :
    s.readToken = s.plain := by
  rw [Cursor.atSeparator, Bool.or_eq_false_iff] at separate
  simp only [tokenMarks, List.forall_mem_cons] at marks
  have entry : ¬(s.cursor.peek = '-' ∧ isGap (s.cursor.peekAt 1) = true) := fun both =>
    dash both.2 both.1
  simp only [readToken, marks, separate, starts, entry, and_false, false_and, or_self, if_false,
    if_true, Bool.false_eq_true]

theorem isGap_of_isAlphanum {ch : Char} (letter : ch.isAlphanum = true) : isGap ch = false :=
  isGap_of_isPlainChar (by rw [isPlainChar, letter, Bool.true_or])

theorem readToken_of_isAlphanum (letter : s.cursor.peek.isAlphanum = true) :
    s.readToken = s.plain := by
  have ne {marks : List Char} (others : marks.all (fun ch => !ch.isAlphanum) = true) {mark : Char}
      (mem : mark ∈ marks) : s.cursor.peek ≠ mark := by
    rintro rfl
    simpa [letter] using List.all_eq_true.mp others _ mem
  have dash : s.cursor.peek ≠ '-' := ne (by decide : ['-'].all _ = true) List.mem_cons_self
  have dot : s.cursor.peek ≠ '.' := ne (by decide : ['.'].all _ = true) List.mem_cons_self
  refine readToken_of_unmarked (fun mark mem => ne (by decide) mem) (fun _ => dash) ?_ ?_
  · rw [Cursor.atSeparator, not_startsWith rfl dash, not_startsWith rfl dot]
    rfl
  · have unmarked : "-?:,[]\x7b\x7d#&*!|>'\"%@\x60".toList.contains s.cursor.peek = false :=
      Bool.eq_false_iff.mpr fun mem => ne (by decide) (List.contains_iff_mem.mp mem) rfl
    rw [startsPlain, isGap_of_isAlphanum letter, unmarked]
    rfl

theorem readToken_of_dash (peek : s.cursor.peek = '-')
    (letter : (s.cursor.peekAt 1).isAlphanum = true) : s.readToken = s.plain := by
  have gap := isGap_of_isAlphanum letter
  refine readToken_of_unmarked (fun mark mem => ?_) (fun bad => ?_) ?_ ?_
  · rw [peek]
    rintro rfl
    exact (by decide : '-' ∉ tokenMarks) mem
  · rw [gap] at bad
    cases bad
  · have other : (s.cursor.peekAt 1 == '-') = false := by
      rw [beq_eq_false_iff_ne]
      intro dash
      rw [dash] at letter
      cases letter
    rw [Cursor.atSeparator, not_startsWith peek (by decide : '-' ≠ '.'), Cursor.startsWith, other,
      Bool.and_false, Bool.false_and, Bool.false_and, Bool.false_or]
  · rw [startsPlain, gap, peek]
    exact Bool.or_true _

theorem readToken_of_word {word : List Char} (rest : s.cursor.rest = word ++ k)
    (plain : IsPlainWord word) : s.readToken = s.plain := by
  obtain ⟨-, sign, first, more, rfl, rfl | rfl, letter⟩ := plain
  · exact readToken_of_isAlphanum (by rwa [Cursor.peek_of_rest rest])
  · refine readToken_of_dash (Cursor.peek_of_rest rest) ?_
    rw [Cursor.peekAt, rest]
    exact letter

theorem isTokenStart_of_isPlainChar {ch : Char} (h : isPlainChar ch = true) :
    isTokenStart ch = true := by
  have ink : isSkipped ch = false := Bool.eq_false_iff.mpr fun skipped =>
    absurd (isGap_of_isSkipped skipped) (by rw [isGap_of_isPlainChar h]; exact Bool.false_ne_true)
  simp only [isTokenStart, ink, Bool.not_false, Bool.true_and, Bool.and_eq_true, bne_iff_ne]
  exact ⟨ne_of_isPlainChar h (by decide), ne_of_isPlainChar h (by decide)⟩

/-- A word between brackets is one token. -/
theorem Stands.takesWord {word : List Char} (h : s.Stands ts (word ++ k) (d + 1))
    (plain : IsPlainWord word) (ends : IsEnd k) :
    ∃ u, s.Reaches u ∧ u.Stands (.scalar true (String.ofList word) :: ts) k (d + 1) := by
  obtain ⟨ch, more, eq, starts⟩ : ∃ ch more, word = ch :: more ∧ isTokenStart ch = true := by
    obtain ⟨chars, sign, first, more, rfl, dash | dash, -⟩ := plain
    all_goals
      subst dash
      exact ⟨_, _, rfl, isTokenStart_of_isPlainChar (chars _ List.mem_cons_self)⟩
  have rest := h.rest_arrived
  rw [eq, List.cons_append, dropWhile_of_tokenStart starts, ← List.cons_append, ← eq] at rest
  obtain ⟨keys, noted, free, -⟩ := h.arrived.exists_noteKey
  obtain ⟨crosses, read⟩ :=
    exists_readPlain_eq rest h.arrived.fits plain ends (s.arrived.indent + 1)
  have behind := Cursor.rest_skip_append rest
  have passes := (s.arrived.cursor.skip word.length).passes_toAhead
  have token : s.arrived.readToken =
      .ok ({ s.arrived with
        keyStarts := keys
        allowsKey := crosses
        cursor := (s.arrived.cursor.skip word.length).toAhead }.push
          (.scalar true (String.ofList word))) := by
    rw [readToken_of_word rest plain, Scan.plain, noted]
    show Except.ok _ = _
    rw [show ({ s.arrived with keyStarts := keys } : Scan).inFlow = true from h.arrived.inFlow]
    dsimp only
    rw [read]
  rw [eq] at h
  refine ⟨_, h.reaches starts token ?_, ?_⟩
  · have := passes.length_rest
    rw [behind] at this
    show (s.arrived.cursor.skip word.length).toAhead.rest.length ≤ (more ++ k).length
    rw [List.length_append]
    omega
  · refine h.arrived.moved (n := word.length + (s.arrived.cursor.skip word.length).blanks.length) ?_
      (congrArg (_ :: ·) h.tokens) ?_ h.depth free rfl rfl
    · exact s.arrived.cursor.skip_skip _ _
    · exact passes.ahead_eq.trans (congrArg (List.dropWhile isSkipped) behind)

theorem readToken_of_quote (h : s.cursor.peek = '"') : s.readToken = s.quoted := by
  simp [readToken, h, not_startsWith h]

theorem readToken_of_colon (h : s.cursor.peek = ':') (inFlow : s.inFlow = true) :
    s.readToken = s.value := by
  simp [readToken, h, not_startsWith h, inFlow]

/-- The token before a colon is a key if a key may have begun there. -/
theorem readToken_of_keyColon {start : KeyStart} {t : Token} (peek : s.cursor.peek = ':')
    (inFlow : s.inFlow = true) (known : s.keyStarts.lookup s.flowDepth = some start)
    (tokens : s.tokens = t :: ts) (last : s.count = start.tokensBefore + 1) :
    s.readToken = .ok
      ({ s with
        keyStarts := s.keyStarts.filter fun e => e.1 != s.flowDepth
        tokens := t :: .key :: ts
        count := s.count + 1
        allowsKey := false }.skip 1 |>.push .value) := by
  have back : s.count - start.tokensBefore = 1 := by omega
  rw [readToken_of_colon peek inFlow, value, known]
  simp only [insertAfter, back, tokens,
    show ∀ keys tokens count, ({ s with
      keyStarts := keys, tokens := tokens, count := count } : Scan).inFlow = true
      from fun _ _ _ => inFlow, Bool.not_true, Bool.false_and, Bool.false_eq_true, if_false]
  rfl

/-- At the end of the text a run ends with the tokens so far. -/
theorem Stands.run_end (h : s.Stands ts [] 0) (n : Nat) : run (n + 1) s = ts.reverse := by
  obtain ⟨keys, dropped, -⟩ := exists_dropKey h.arrived.free
  have peek : s.arrived.cursor.peek = endMark := by
    rw [Cursor.peek, h.rest_arrived]
    rfl
  have step : s.step = .ok (false, { s.arrived with allowsKey := false, keyStarts := [] }) := by
    rw [h.step_eq (by simp), if_pos peek, endStream, unwindTo_of_outer h.arrived.outer,
      dropped]
    rfl
  rw [run_succ, step]
  exact congrArg List.reverse h.tokens

end Scan

end Yaml

end Gatehouse
