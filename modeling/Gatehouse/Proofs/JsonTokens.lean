import Gatehouse.Proofs.FlowTokens
import Gatehouse.Proofs.JsonQuotes

namespace Gatehouse

namespace Json

open Yaml Yaml.Scan

theorem isSkipped_of_isSpaced {bs : List Blank} (h : isSpaced bs = true) :
    ∀ ch ∈ blankChars bs, isSkipped ch = true := by
  intro ch mem
  obtain ⟨b, hb, rfl⟩ := List.mem_map.mp mem
  have spaced := List.all_eq_true.mp h b hb
  cases b with
  | tab => cases spaced
  | space | lineFeed | carriageReturn => decide

theorem dropWhile_blankChars {bs : List Blank} (h : isSpaced bs = true) (k : List Char) :
    (blankChars bs ++ k).dropWhile isSkipped = k.dropWhile isSkipped :=
  List.dropWhile_append_of_pos (isSkipped_of_isSpaced h)

end Json

namespace Yaml.Scan

open Json

variable {s : Scan} {ts : List Token} {k : List Char} {d : Nat}

/-- A text begins with its quote. -/
theorem Stands.rest_text {ps : List Piece} (h : s.Stands ts (textChars ps ++ k) d) :
    s.arrived.cursor.rest = textChars ps ++ k := by
  rw [h.rest_arrived, textChars, List.cons_append, dropWhile_of_tokenStart (by decide)]

/-- A text is read where its quote stands; a key may begin there if one is allowed. -/
theorem Stands.exists_readToken_text {ps : List Piece} (h : s.Stands ts (textChars ps ++ k) d)
    (readable : ∀ p ∈ ps, p.isReadable = true) :
    ∃ keys, s.arrived.readToken =
        .ok ({ s.arrived with
          keyStarts := keys
          allowsKey := false
          cursor := s.arrived.cursor.skip (textChars ps).length }.push
            (.scalar false (String.ofList (loadedChars ps)))) ∧
      (∀ key ∈ keys, key.2.required = false) ∧
      (s.arrived.allowsKey = true → keys.head? = some s.arrived.keyHere) := by
  have rest := h.rest_text
  have peek : s.arrived.cursor.peek = '"' := Cursor.peek_of_rest rest
  obtain ⟨keys, noted, free, first⟩ := h.arrived.exists_noteKey
  refine ⟨keys, ?_, free, first⟩
  have inner : s.arrived.cursor.advance.rest = ps.flatMap Piece.chars ++ '"' :: k := by
    rw [Cursor.rest_advance, rest, textChars, List.cons_append, List.append_assoc]
    rfl
  have enough : s.arrived.cursor.advance.rest.length < s.arrived.cursor.steps := by
    have fits := h.arrived.fits
    rw [Cursor.rest_advance, List.length_drop, Cursor.steps]
    omega
  have length : (textChars ps).length = (ps.flatMap Piece.chars).length + 1 + 1 := by
    rw [textChars, List.length_cons, List.length_append]
    rfl
  have read : readQuoted s.arrived.cursor =
      .ok (loadedChars ps, s.arrived.cursor.skip (textChars ps).length) := by
    rw [readQuoted, peek, beq_self_eq_true, quotedScalar_pieces readable inner enough, length]
    rfl
  rw [readToken_of_quote peek, quoted, noted]
  show (readQuoted s.arrived.cursor).bind _ = _
  rw [read]
  rfl

/-- A text is one token, and where it began a key may have begun. -/
theorem Stands.exists_afterText {ps : List Piece} (h : s.Stands ts (textChars ps ++ k) d)
    (readable : ∀ p ∈ ps, p.isReadable = true) :
    ∃ u, s.Reaches u ∧ u.Stands (.scalar false (String.ofList (loadedChars ps)) :: ts) k d ∧
      u.cursor = s.arrived.cursor.skip (textChars ps).length ∧ u.count = s.count + 1 ∧
      (s.allowsKey = true → u.keyStarts.head? = some s.arrived.keyHere) := by
  obtain ⟨keys, token, free, first⟩ := h.exists_readToken_text readable
  have behind := Cursor.rest_skip_append h.rest_text
  have quote : s.Stands ts ('"' :: (ps.flatMap Piece.chars ++ ['"'] ++ k)) d := h
  refine ⟨_, quote.reaches (by decide) token ?_, ?_, rfl, rfl, fun allows => ?_⟩
  · show (s.arrived.cursor.skip (textChars ps).length).rest.length ≤ _
    rw [behind]
    exact Nat.le_trans (Nat.le_add_left _ _) (Nat.le_of_eq List.length_append.symm)
  · exact h.arrived.moved (n := (textChars ps).length) rfl (congrArg (_ :: ·) h.tokens)
      (congrArg (List.dropWhile isSkipped) behind) h.depth free rfl rfl
  · exact first (by rw [Scan.arrived, allows, Bool.true_or])

theorem Stands.takesText {ps : List Piece} (h : s.Stands ts (textChars ps ++ k) d)
    (readable : ∀ p ∈ ps, p.isReadable = true) :
    ∃ u, s.Reaches u ∧ u.Stands (.scalar false (String.ofList (loadedChars ps)) :: ts) k d := by
  obtain ⟨u, reaches, stands, -⟩ := h.exists_afterText readable
  exact ⟨u, reaches, stands⟩

/-- On the line of a key and close to it the key is still remembered. -/
theorem isStale_keyHere {cs : List Char} (rest : s.cursor.rest = cs ++ k)
    (inLine : ∀ ch ∈ cs, isBreak ch = false) (near : width cs ≤ 1024) :
    isStale (s.cursor.skip cs.length) s.keyHere.2 = false := by
  obtain ⟨line, index⟩ := Cursor.skip_inLine rest inLine
  have near : cs.countP (fun ch => !isLead ch) ≤ 1024 := near
  rw [isStale, line, index]
  show (s.cursor.line != s.cursor.line || decide (1024 < _ - s.cursor.index)) = false
  rw [bne_self_eq_false, Bool.false_or, decide_eq_false_iff_not]
  omega

/-- Where the colon of a key stands the key is remembered. -/
theorem isStale_atColon {ps : List Piece} {bs : List Blank} (readable : isKeyReadable ps bs = true)
    (rest : s.cursor.rest = textChars ps ++ blankChars bs ++ k) :
    isStale (s.cursor.skip (textChars ps ++ blankChars bs).length) s.keyHere.2 = false := by
  obtain ⟨pieces, spaces, near⟩ := parts_of_isKeyReadable readable
  refine isStale_keyHere rest (fun ch mem => ?_) ?_
  · rcases List.mem_append.mp mem with mem | mem
    · exact (allowed_textChars pieces ch mem).2
    · rw [spaces ch mem]
      decide
  · refine Nat.le_trans (Nat.le_of_eq List.countP_append) (Nat.le_trans ?_ near)
    refine Nat.add_le_add_left (Nat.le_trans List.countP_le_length (Nat.le_of_eq ?_)) _
    exact List.length_map _

/-- Behind a text that can be a key its beginning is remembered where the colon stands. -/
theorem Stands.exists_atColon {ps : List Piece} {bs : List Blank}
    (h : s.Stands ts (textChars ps ++ (blankChars bs ++ ':' :: k)) d) (allows : s.allowsKey = true)
    (readable : isKeyReadable ps bs = true) :
    ∃ t, s.Reaches t ∧
      t.Stands (.scalar false (String.ofList (loadedChars ps)) :: ts) (':' :: k) d ∧
      t.count = s.count + 1 ∧ t.arrived.keyStarts.lookup d = some s.arrived.keyHere.2 := by
  obtain ⟨pieces, spaces, -⟩ := parts_of_isKeyReadable readable
  obtain ⟨t, reaches, stands, cursor, count, first⟩ := h.exists_afterText pieces
  have skipped : ∀ ch ∈ blankChars bs, isSkipped ch = true := fun ch mem => by
    rw [spaces ch mem]
    decide
  have whole : s.arrived.cursor.rest = textChars ps ++ blankChars bs ++ ':' :: k := by
    rw [h.rest_text, List.append_assoc]
  have behind : (s.arrived.cursor.skip (textChars ps ++ blankChars bs).length).rest = ':' :: k :=
    Cursor.rest_skip_append whole
  have moved : s.arrived.cursor.skip (textChars ps ++ blankChars bs).length =
      t.cursor.skip (blankChars bs).length := by
    rw [cursor, Cursor.skip_skip, List.length_append]
  have passes : t.cursor.Passes (blankChars bs)
      (s.arrived.cursor.skip (textChars ps ++ blankChars bs).length) := by
    refine ⟨skipped, ?_, moved⟩
    rw [cursor, behind]
    exact Cursor.rest_skip_append (by rw [whole, List.append_assoc])
  have atColon := passes.toAhead_of_peek (by rw [Cursor.peek_of_rest behind]; decide)
  obtain ⟨keys, eq⟩ := List.head?_eq_some_iff.mp (first allows)
  have remembered : t.arrived.keyStarts = s.arrived.keyHere ::
      keys.filter fun e => !isStale t.cursor.toAhead e.2 := by
    show t.keyStarts.filter _ = _
    rw [eq, List.filter_cons_of_pos]
    show (!isStale t.cursor.toAhead s.arrived.keyHere.2) = true
    rw [atColon, isStale_atColon readable whole]
    rfl
  refine ⟨t, reaches, stands.congr (List.dropWhile_append_of_pos skipped), count, ?_⟩
  rw [remembered, ← h.arrived.depth]
  exact List.lookup_cons_self

/-- A text before a colon is marked as a key. -/
theorem Stands.takesKey {ps : List Piece} {bs : List Blank}
    (h : s.Stands ts (textChars ps ++ (blankChars bs ++ ':' :: k)) (d + 1))
    (allows : s.allowsKey = true) (readable : isKeyReadable ps bs = true) :
    ∃ u, s.Reaches u ∧
      u.Stands (.value :: .scalar false (String.ofList (loadedChars ps)) :: .key :: ts) k
        (d + 1) := by
  obtain ⟨t, reaches, colon, count, known⟩ := h.exists_atColon allows readable
  have rest : t.arrived.cursor.rest = ':' :: k := colon.rest_arrived
  have behind : (t.arrived.cursor.skip [':'].length).rest = k := Cursor.rest_skip_append rest
  rw [← colon.arrived.depth] at known
  have marked := readToken_of_keyColon (Cursor.peek_of_rest rest) colon.arrived.inFlow known
    colon.arrived.tokens count
  have there := colon.reaches (by decide) marked (Nat.le_of_eq (congrArg List.length behind))
  refine ⟨_, reaches.trans there, ?_⟩
  refine colon.arrived.moved (n := 1) rfl rfl (congrArg (List.dropWhile isSkipped) behind)
    colon.depth (fun key mem => colon.arrived.free key (List.mem_filter.mp mem).1) rfl rfl

end Yaml.Scan

mutual

/-- The tokens of a JSON document. -/
def Json.tokens : Json → List Yaml.Token
  | .leaf l => [.scalar l.isPlain l.word]
  | .list items => .flowSequenceStart :: items.tokens true
  | .map entries => .flowMappingStart :: entries.tokens true

def JsonItems.tokens (isFirst : Bool) : JsonItems → List Yaml.Token
  | .close _ => [.flowSequenceEnd]
  | .item _ v _ rest =>
    Json.separator .flowEntry isFirst ++ (v.tokens ++ rest.tokens false)

def JsonEntries.tokens (isFirst : Bool) : JsonEntries → List Yaml.Token
  | .close _ => [.flowMappingEnd]
  | .entry _ key _ _ v _ rest =>
    Json.separator .flowEntry isFirst
      ++ (.key :: .scalar false (String.ofList (Json.loadedChars key)) :: .value
        :: (v.tokens ++ rest.tokens false))

end

namespace Json

open Yaml Yaml.Scan

def isLeaf : Json → Bool
  | leaf _ => true
  | _ => false

/-- Leaves other than texts are plain words. -/
theorem Leaf.isPlainWord {l : Leaf} (plain : l.isPlain = true) : IsPlainWord l.chars := by
  cases l with
  | null => exact ⟨List.all_eq_true.mp (by decide), [], 'n', _, rfl, Or.inl rfl, by decide⟩
  | bool b =>
    cases b with
    | true => exact ⟨List.all_eq_true.mp (by decide), [], 't', _, rfl, Or.inl rfl, by decide⟩
    | false => exact ⟨List.all_eq_true.mp (by decide), [], 'f', _, rfl, Or.inl rfl, by decide⟩
  | number n =>
    obtain ⟨c, rest, eq, digit⟩ := n.exists_magnitude_cons
    refine ⟨fun ch mem =>
      of_isNumeralChar (p := fun ch => isPlainChar ch = true) (by decide) (by decide)
        (n.isNumeralChar_of_mem mem),
      if n.negative then ['-'] else [], c, rest, by rw [← eq]; rfl, ?_, ?_⟩
    · cases n.negative <;> simp
    · rw [Char.isAlphanum, digit, Bool.or_true]
  | text ps => cases plain

theorem Leaf.word_of_isPlain {l : Leaf} (plain : l.isPlain = true) :
    l.word = String.ofList l.chars := by
  cases l with
  | text ps => cases plain
  | null | bool _ | number _ => rfl

theorem isEnd_blankChars {bs : List Blank} (spaced : isSpaced bs = true) {k : List Char}
    (ends : IsEnd k) : IsEnd (blankChars bs ++ k) := by
  obtain ⟨ch, more, eq, mark⟩ := ends
  exact ⟨ch, more, (dropWhile_blankChars spaced k).trans eq, mark⟩

theorem isEnd_of_mark {ch : Char} (mark : ch = ',' ∨ ch = ']' ∨ ch = '}') (k : List Char) :
    IsEnd (ch :: k) :=
  ⟨ch, k, List.dropWhile_cons_of_neg (by rcases mark with rfl | rfl | rfl <;> decide), mark⟩

end Json

theorem JsonItems.isEnd {items : JsonItems} (readable : items.isReadable = true) (k : List Char) :
    Yaml.Scan.IsEnd (items.chars false ++ k) := by
  cases items with
  | close blanks =>
    rw [chars, List.append_assoc]
    exact Json.isEnd_blankChars readable (Json.isEnd_of_mark (Or.inr (Or.inl rfl)) k)
  | item before v after rest => exact Json.isEnd_of_mark (Or.inl rfl) _

theorem JsonEntries.isEnd {entries : JsonEntries} (readable : entries.isReadable = true)
    (k : List Char) : Yaml.Scan.IsEnd (entries.chars false ++ k) := by
  cases entries with
  | close blanks =>
    rw [chars, List.append_assoc]
    exact Json.isEnd_blankChars readable (Json.isEnd_of_mark (Or.inr (Or.inr rfl)) k)
  | entry before key middle between v after rest => exact Json.isEnd_of_mark (Or.inl rfl) _

namespace Yaml.Scan

open Json

variable {s : Scan} {ts : List Token} {k : List Char} {d : Nat}

theorem Stands.passesBlanks {bs : List Blank} (h : s.Stands ts (blankChars bs ++ k) d)
    (spaced : isSpaced bs = true) : s.Stands ts k d :=
  h.congr (dropWhile_blankChars spaced k)

/-- A key may begin behind the mark between two parts, and before the first one if it may there. -/
theorem Stands.takesSeparator {isFirst : Bool} (h : s.Stands ts (separator ',' isFirst ++ k) d)
    (allows : isFirst = true → s.allowsKey = true) :
    ∃ u, s.Reaches u ∧ u.Stands ((separator .flowEntry isFirst).reverse ++ ts) k d ∧
      u.allowsKey = true := by
  cases isFirst with
  | true => exact ⟨s, .start, h, allows rfl⟩
  | false => exact h.separates

theorem Stands.takesLeaf {l : Leaf} (h : s.Stands ts (l.chars ++ k) (d + 1))
    (readable : l.isReadable = true) (ends : IsEnd k) :
    ∃ u, s.Reaches u ∧ u.Stands (.scalar l.isPlain l.word :: ts) k (d + 1) := by
  cases plain : l.isPlain with
  | true =>
    rw [Leaf.word_of_isPlain plain]
    exact h.takesWord (Leaf.isPlainWord plain) ends
  | false =>
    cases l with
    | text ps => exact h.takesText (List.all_eq_true.mp readable)
    | null | bool _ | number _ => cases plain

end Yaml.Scan

open Yaml Yaml.Scan in
mutual

/-- A JSON document is taken for its tokens. A leaf has to stand between brackets. -/
theorem Json.takes (j : Json) (readable : j.isReadable = true) {s : Scan} {ts : List Token}
    {k : List Char} {d : Nat} (h : s.Stands ts (j.chars ++ k) d)
    (inside : j.isLeaf = true → d ≠ 0 ∧ IsEnd k) :
    ∃ u, s.Reaches u ∧ u.Stands (j.tokens.reverse ++ ts) k d := by
  match j with
  | .leaf l =>
    obtain ⟨deep, ends⟩ := inside rfl
    obtain ⟨d, rfl⟩ := Nat.exists_eq_succ_of_ne_zero deep
    exact h.takesLeaf readable ends
  | .list items =>
    obtain ⟨t, opened, stands, allows⟩ := h.opens (Or.inl ⟨rfl, rfl⟩)
    obtain ⟨u, closed, stands⟩ := items.takes readable stands fun _ => allows
    refine ⟨u, opened.trans closed, ?_⟩
    rwa [Json.tokens, List.reverse_cons, List.append_assoc]
  | .map entries =>
    obtain ⟨t, opened, stands, allows⟩ := h.opens (Or.inr ⟨rfl, rfl⟩)
    obtain ⟨u, closed, stands⟩ := entries.takes readable stands fun _ => allows
    refine ⟨u, opened.trans closed, ?_⟩
    rwa [Json.tokens, List.reverse_cons, List.append_assoc]

theorem JsonItems.takes (items : JsonItems) (readable : items.isReadable = true) {s : Scan}
    {ts : List Token} {k : List Char} {d : Nat} {isFirst : Bool}
    (h : s.Stands ts (items.chars isFirst ++ k) (d + 1))
    (allows : isFirst = true → s.allowsKey = true) :
    ∃ u, s.Reaches u ∧ u.Stands ((items.tokens isFirst).reverse ++ ts) k d := by
  match items with
  | .close blanks =>
    rw [JsonItems.chars, List.append_assoc] at h
    exact (h.passesBlanks readable).closes (Or.inl ⟨rfl, rfl⟩)
  | .item before v after rest =>
    simp only [JsonItems.isReadable, Bool.and_eq_true] at readable
    obtain ⟨⟨⟨spaced, value⟩, spacedAfter⟩, others⟩ := readable
    simp only [JsonItems.chars, List.append_assoc] at h
    obtain ⟨a, toA, stands, -⟩ := h.takesSeparator allows
    obtain ⟨b, toB, stands⟩ := v.takes value (stands.passesBlanks spaced) fun _ =>
      ⟨Nat.succ_ne_zero d, Json.isEnd_blankChars spacedAfter (rest.isEnd others k)⟩
    obtain ⟨u, toU, stands⟩ := rest.takes others (stands.passesBlanks spacedAfter)
      (absurd · Bool.false_ne_true)
    refine ⟨u, (toA.trans toB).trans toU, ?_⟩
    simpa only [JsonItems.tokens, List.reverse_append, List.append_assoc] using stands

theorem JsonEntries.takes (entries : JsonEntries) (readable : entries.isReadable = true) {s : Scan}
    {ts : List Token} {k : List Char} {d : Nat} {isFirst : Bool}
    (h : s.Stands ts (entries.chars isFirst ++ k) (d + 1))
    (allows : isFirst = true → s.allowsKey = true) :
    ∃ u, s.Reaches u ∧ u.Stands ((entries.tokens isFirst).reverse ++ ts) k d := by
  match entries with
  | .close blanks =>
    rw [JsonEntries.chars, List.append_assoc] at h
    exact (h.passesBlanks readable).closes (Or.inr ⟨rfl, rfl⟩)
  | .entry before key middle between v after rest =>
    simp only [JsonEntries.isReadable, Bool.and_eq_true] at readable
    obtain ⟨⟨⟨⟨⟨spaced, keyed⟩, spacedBetween⟩, value⟩, spacedAfter⟩, others⟩ := readable
    simp only [JsonEntries.chars, List.append_assoc, List.cons_append] at h
    obtain ⟨a, toA, stands, allows⟩ := h.takesSeparator allows
    obtain ⟨b, toB, stands⟩ := (stands.passesBlanks spaced).takesKey allows keyed
    obtain ⟨c, toC, stands⟩ := v.takes value (stands.passesBlanks spacedBetween) fun _ =>
      ⟨Nat.succ_ne_zero d, Json.isEnd_blankChars spacedAfter (rest.isEnd others k)⟩
    obtain ⟨u, toU, stands⟩ := rest.takes others (stands.passesBlanks spacedAfter)
      (absurd · Bool.false_ne_true)
    refine ⟨u, ((toA.trans toB).trans toC).trans toU, ?_⟩
    simpa only [JsonEntries.tokens, List.reverse_append, List.reverse_cons, List.append_assoc,
      List.cons_append, List.nil_append] using stands

end

namespace Json

open Yaml Yaml.Scan

theorem Blank.isAllowed_char (b : Blank) : isAllowed b.char = true := by
  cases b <;> decide

theorem all_isAllowed_blankChars (bs : List Blank) : (blankChars bs).all isAllowed = true := by
  rw [List.all_eq_true]
  intro ch mem
  obtain ⟨b, -, rfl⟩ := List.mem_map.mp mem
  exact b.isAllowed_char

theorem all_isAllowed_separator (isFirst : Bool) :
    (separator ',' isFirst).all isAllowed = true := by
  cases isFirst <;> decide

theorem all_isAllowed_textChars {ps : List Piece} (readable : ∀ p ∈ ps, p.isReadable = true) :
    (textChars ps).all isAllowed = true :=
  List.all_eq_true.mpr fun ch mem => (allowed_textChars readable ch mem).1

theorem Leaf.all_isAllowed {l : Leaf} (readable : l.isReadable = true) :
    l.chars.all isAllowed = true := by
  cases l with
  | null => decide
  | bool b => cases b <;> decide
  | number n =>
    exact List.all_eq_true.mpr fun ch mem =>
      of_isNumeralChar (p := fun ch => isAllowed ch = true) (by decide) (by decide)
        (n.isNumeralChar_of_mem mem)
  | text ps => exact all_isAllowed_textChars (List.all_eq_true.mp readable)

end Json

open Json in
mutual

/-- All characters of a JSON document may stand in a text. -/
theorem Json.all_isAllowed (j : Json) (readable : j.isReadable = true) :
    j.chars.all Yaml.isAllowed = true := by
  match j with
  | .leaf l => exact Leaf.all_isAllowed readable
  | .list items =>
    rw [Json.chars, List.all_cons, items.all_isAllowed readable]
    decide
  | .map entries =>
    rw [Json.chars, List.all_cons, entries.all_isAllowed readable]
    decide

theorem JsonItems.all_isAllowed (items : JsonItems) (readable : items.isReadable = true)
    {isFirst : Bool} : (items.chars isFirst).all Yaml.isAllowed = true := by
  match items with
  | .close blanks =>
    rw [JsonItems.chars, List.all_append, all_isAllowed_blankChars]
    decide
  | .item before v after rest =>
    simp only [JsonItems.isReadable, Bool.and_eq_true] at readable
    obtain ⟨⟨⟨-, value⟩, -⟩, others⟩ := readable
    simp only [JsonItems.chars, List.all_append, all_isAllowed_separator, all_isAllowed_blankChars,
      v.all_isAllowed value, rest.all_isAllowed others, Bool.and_self]

theorem JsonEntries.all_isAllowed (entries : JsonEntries) (readable : entries.isReadable = true)
    {isFirst : Bool} : (entries.chars isFirst).all Yaml.isAllowed = true := by
  match entries with
  | .close blanks =>
    rw [JsonEntries.chars, List.all_append, all_isAllowed_blankChars]
    decide
  | .entry before key middle between v after rest =>
    simp only [JsonEntries.isReadable, Bool.and_eq_true] at readable
    obtain ⟨⟨⟨⟨⟨-, keyed⟩, -⟩, value⟩, -⟩, others⟩ := readable
    simp only [JsonEntries.chars, List.all_append, List.all_cons, all_isAllowed_separator,
      all_isAllowed_blankChars, all_isAllowed_textChars (parts_of_isKeyReadable keyed).1,
      v.all_isAllowed value, rest.all_isAllowed others, Bool.true_and, Bool.and_true]
    decide

end

namespace Json

open Yaml Yaml.Scan

/-- A JSON document that is no leaf begins with a bracket, so no mark of the encoding begins the
text. -/
theorem head_ne_byteOrderMark {j : Json} (nested : j.isLeaf = false) (before after : List Blank) :
    (blankChars before ++ (j.chars ++ blankChars after)).head? ≠ some byteOrderMark := by
  cases before with
  | nil =>
    cases j with
    | leaf l => cases nested
    | list items => exact fun eq => absurd (Option.some.inj eq) (by decide)
    | map entries => exact fun eq => absurd (Option.some.inj eq) (by decide)
  | cons b before =>
    intro eq
    have mark : b.char = byteOrderMark := Option.some.inj eq
    cases b <;> exact absurd mark (by decide)

theorem size_start (text : List Char) : (Scan.start text).cursor.size = text.length := by
  unfold Scan.start
  dsimp only
  split
  next => exact Cursor.size_advance _
  next => rfl

theorem stands_start {text : List Char} (noMark : text.head? ≠ some byteOrderMark) :
    (Scan.start text).Stands [] text 0 := by
  have start : Scan.start text = ⟨Cursor.start text, [], 0, 0, -1, [], true, []⟩ := by
    unfold Scan.start
    dsimp only
    rw [if_neg]
    intro mark
    cases text with
    | nil => exact absurd mark (by decide)
    | cons ch text => exact noMark (congrArg some mark)
  rw [start]
  exact ⟨rfl, rfl, rfl, Nat.le_refl _, List.forall_mem_nil _, rfl, rfl⟩

/-- The tokens of a text that is a JSON document with blanks around it. -/
theorem scan_chars {j : Json} (nested : j.isLeaf = false) (readable : j.isReadable = true)
    {before after : List Blank} (spaced : isSpaced before = true)
    (spacedAfter : isSpaced after = true) :
    scan (blankChars before ++ (j.chars ++ blankChars after)) = j.tokens := by
  have allowed : (blankChars before ++ (j.chars ++ blankChars after)).all isAllowed = true := by
    rw [List.all_append, List.all_append, all_isAllowed_blankChars, all_isAllowed_blankChars,
      j.all_isAllowed readable]
    rfl
  rw [scan, if_pos allowed]
  have start := stands_start (head_ne_byteOrderMark nested before after)
  generalize text : blankChars before ++ (j.chars ++ blankChars after) = cs at start
  have fits : (Scan.start cs).cursor.rest.length < cs.length + 1 := by
    have fits := start.fits
    rw [size_start] at fits
    exact Nat.lt_succ_of_le fits
  obtain ⟨u, reaches, stands⟩ := j.takes readable ((start.congr (by rw [text])).passesBlanks spaced)
    fun leaf => by rw [leaf] at nested; cases nested
  obtain ⟨m, enough, eq⟩ := reaches.exists_run_eq fits
  rw [eq]
  cases m with
  | zero => exact absurd enough (Nat.not_lt_zero _)
  | succ m =>
    rw [← List.append_nil (blankChars after)] at stands
    rw [(stands.passesBlanks spacedAfter).run_end, List.append_nil, List.reverse_reverse]

end Json

end Gatehouse
