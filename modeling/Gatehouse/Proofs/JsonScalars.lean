import Gatehouse.Proofs.JsonText
import Gatehouse.Yaml.ScalarValue
import Mathlib.Data.List.TakeWhile

namespace Gatehouse

theorem exists_digitChar {c : Char} (h : c.isDigit = true) : ∃ d : Fin 10, c = Nat.digitChar d := by
  simp only [Char.isDigit, Bool.and_eq_true, decide_eq_true_eq] at h
  have bounds : 0x30 ≤ c.toNat ∧ c.toNat ≤ 0x39 := h
  refine ⟨⟨c.toNat - 0x30, by omega⟩, ?_⟩
  apply Char.toNat_inj.mp
  rw [Nat.toNat_digitChar_of_lt_ten (by show c.toNat - 0x30 < 10; omega)]
  show c.toNat = 48 + (c.toNat - 0x30)
  omega

/-- What holds for the ten digits holds for a character that is one. -/
theorem of_isDigit {p : Char → Prop} (digits : ∀ d : Fin 10, p (Nat.digitChar d)) {c : Char}
    (h : c.isDigit = true) : p c := by
  obtain ⟨d, rfl⟩ := exists_digitChar h
  exact digits d

theorem ne_of_isDigit {c other : Char} (h : c.isDigit = true) (hother : other.isDigit = false) :
    c ≠ other := by
  rintro rfl
  simp [h] at hother

theorem any_word_eq_false {cs : List Char} {words : List String}
    (h : ∀ word ∈ words, cs ≠ word.toList) : (words.any fun word => cs == word.toList) = false := by
  rw [List.any_eq_false]
  exact fun word mem same => h word mem (beq_iff_eq.mp same)

theorem takeDigits_append (least most : Nat) {ds rest : List Char}
    (digits : ∀ c ∈ ds, c.isDigit = true) (ends : ∀ c, rest.head? = some c → c.isDigit = false) :
    Yaml.takeDigits least most (ds ++ rest) =
      if (ds.take most).length < least then none else some (ds.take most, ds.drop most ++ rest) := by
  have front : ((ds ++ rest).take most).takeWhile Char.isDigit = ds.take most := by
    rw [List.take_append]
    refine (span_digits (fun c hc => digits c (List.mem_of_mem_take hc)) fun c hc => ends c ?_).1
    rw [List.head?_take] at hc
    split at hc
    next => cases hc
    next => exact hc
  have behind : (ds ++ rest).drop (ds.take most).length = ds.drop most ++ rest := by
    rw [List.length_take, List.drop_append_of_le_length (Nat.min_le_right _ _)]
    rcases Nat.le_total most ds.length with h | h
    · rw [Nat.min_eq_left h]
    · rw [Nat.min_eq_right h, List.drop_length, List.drop_eq_nil_of_le h]
  simp only [Yaml.takeDigits, front, behind]

namespace Binary64

theorem neg_finite (negative : Bool) (mant : Nat) (exp : Int) :
    (finite negative mant exp).neg = .finite (!negative) mant exp := rfl

theorem neg_infinite (negative : Bool) : (infinite negative).neg = .infinite (!negative) := rfl

theorem neg_ofRatio (num den : Nat) : (ofRatio false num den).neg = ofRatio true num den := by
  unfold ofRatio
  split
  next => exact neg_finite _ _ _
  next =>
    extract_lets exp mant
    generalize (if mant = Nat.pow 2 53 then (Nat.pow 2 52, exp + 1) else (mant, exp)) = p
    obtain ⟨mant, exp⟩ := p
    dsimp only
    split
    next => rfl
    next => rfl

theorem neg_ofDecimal (coef : Nat) (exp : Int) :
    (ofDecimal false coef exp).neg = ofDecimal true coef exp := by
  unfold ofDecimal
  extract_lets magnitude
  split
  next => exact neg_finite _ _ _
  next =>
    split
    next => exact neg_infinite _
    next => exact neg_ofRatio _ _

end Binary64

namespace Json

theorem isDigit_of_mem_digitChars {ds : List (Fin 10)} {c : Char} (h : c ∈ digitChars ds) :
    c.isDigit = true := by
  obtain ⟨d, -, rfl⟩ := List.mem_map.mp h
  exact (by decide : ∀ d : Fin 10, (Nat.digitChar d).isDigit = true) d

theorem Whole.isDigit_of_mem {w : Whole} {c : Char} (h : c ∈ w.chars) : c.isDigit = true := by
  cases w with
  | zero =>
    rw [List.mem_singleton.mp h]
    decide
  | led first rest =>
    rcases List.mem_cons.mp h with rfl | h
    · exact (by decide : ∀ d : Fin 9, (Nat.digitChar (d.val + 1)).isDigit = true) first
    · exact isDigit_of_mem_digitChars h

theorem Whole.chars_ne_nil (w : Whole) : w.chars ≠ [] := by
  cases w <;> exact List.cons_ne_nil _ _

theorem Whole.chars_cases (w : Whole) :
    w.chars = ['0'] ∨ ∃ c rest, w.chars = c :: rest ∧ c ≠ '0' := by
  cases w with
  | zero => exact Or.inl rfl
  | led first rest =>
    exact Or.inr ⟨_, _, rfl, (by decide : ∀ d : Fin 9, Nat.digitChar (d.val + 1) ≠ '0') first⟩

/-- A digit, a sign, a point, or the letter before a power of ten. -/
def isNumeralChar (c : Char) : Bool := c.isDigit || "+-.eE".toList.contains c

/-- What holds for the characters of numerals one by one holds for each of them. -/
theorem of_isNumeralChar {p : Char → Prop} (digits : ∀ d : Fin 10, p (Nat.digitChar d))
    (marks : p '+' ∧ p '-' ∧ p '.' ∧ p 'e' ∧ p 'E') {c : Char} (h : isNumeralChar c = true) :
    p c := by
  obtain ⟨plus, minus, point, small, capital⟩ := marks
  rw [isNumeralChar, Bool.or_eq_true, List.contains_iff_mem] at h
  rcases h with digit | mark
  · exact of_isDigit digits digit
  · simp only [String.reduceToList, List.mem_cons, List.not_mem_nil, or_false] at mark
    rcases mark with rfl | rfl | rfl | rfl | rfl
    exacts [plus, minus, point, small, capital]

theorem Exponent.isDigit_of_mem {e : Exponent} {c : Char} (h : c ∈ e.digits) : c.isDigit = true :=
  isDigit_of_mem_digitChars h

namespace Numeral

variable (n : Numeral)

theorem isDigit_of_mem_fraction {c : Char} (h : c ∈ n.fractionDigits) : c.isDigit = true := by
  unfold fractionDigits at h
  split at h
  next => exact isDigit_of_mem_digitChars h
  next => cases h

theorem isNumeralChar_of_mem {c : Char} (h : c ∈ n.chars) : isNumeralChar c = true := by
  have digit (h : c.isDigit = true) : isNumeralChar c = true := by rw [isNumeralChar, h]; rfl
  simp only [chars, magnitude, List.mem_append] at h
  rcases h with h | h | h | h
  · split at h
    next => rw [List.mem_singleton.mp h]; decide
    next => cases h
  · exact digit (Whole.isDigit_of_mem h)
  · unfold fractionChars at h
    split at h
    next =>
      rcases List.mem_cons.mp h with rfl | h
      · decide
      · exact digit (n.isDigit_of_mem_fraction h)
    next => cases h
  · unfold exponentChars at h
    cases he : n.exponent with
    | none => simp [he] at h
    | some e =>
      simp only [he, Option.map_some, Option.getD_some, Exponent.chars, List.mem_cons,
        List.mem_append] at h
      rcases h with rfl | h | h
      · split <;> decide
      · obtain ⟨negative, -, rfl⟩ := List.mem_map.mp h
        cases negative <;> decide
      · exact digit (Exponent.isDigit_of_mem h)

theorem notMem_of_not_numeralChar {c : Char} (h : isNumeralChar c = false) : c ∉ n.chars := by
  intro mem
  rw [n.isNumeralChar_of_mem mem] at h
  cases h

theorem exists_magnitude_cons : ∃ c rest, n.magnitude = c :: rest ∧ c.isDigit = true := by
  obtain ⟨c, rest, eq⟩ := List.exists_cons_of_ne_nil n.whole.chars_ne_nil
  exact ⟨c, _, by rw [magnitude, eq, List.cons_append], Whole.isDigit_of_mem (w := n.whole)
    (by rw [eq]; exact List.mem_cons_self)⟩

/-- A numeral begins with its sign or with a digit. -/
theorem exists_chars_cons : ∃ c rest, n.chars = c :: rest ∧ (c = '-' ∨ c.isDigit = true) := by
  obtain ⟨c, rest, eq, digit⟩ := n.exists_magnitude_cons
  unfold chars
  cases n.negative with
  | true => exact ⟨'-', n.magnitude, rfl, Or.inl rfl⟩
  | false => exact ⟨c, rest, eq, Or.inr digit⟩

theorem splitSign_chars : splitSign n.chars = (n.negative, n.magnitude) := by
  obtain ⟨c, rest, eq, digit⟩ := n.exists_magnitude_cons
  unfold chars
  cases n.negative with
  | true => rfl
  | false =>
    show splitSign n.magnitude = (false, n.magnitude)
    rw [eq]
    unfold splitSign
    split
    next h => exact absurd (List.cons.inj h).1 (ne_of_isDigit digit (by decide))
    next h => exact absurd (List.cons.inj h).1 (ne_of_isDigit digit (by decide))
    next => rfl

theorem dropSign_chars : Yaml.dropSign n.chars = n.magnitude := by
  obtain ⟨c, rest, eq, digit⟩ := n.exists_magnitude_cons
  unfold chars
  cases n.negative with
  | true => rfl
  | false =>
    show Yaml.dropSign n.magnitude = n.magnitude
    rw [eq, Yaml.dropSign, if_neg]
    exact fun h => h.elim (ne_of_isDigit digit (by decide)) (ne_of_isDigit digit (by decide))

/-- A text that begins neither with a sign nor with a digit is no numeral. -/
theorem chars_ne {cs : List Char} (h : cs.head?.all (fun c => c != '-' && !c.isDigit) = true) :
    n.chars ≠ cs := by
  obtain ⟨c, rest, eq, start⟩ := n.exists_chars_cons
  rintro rfl
  simp only [eq, List.head?_cons, Option.all_some, Bool.and_eq_true, bne_iff_ne,
    Bool.not_eq_true'] at h
  exact start.elim h.1 (by simp [h.2])

theorem isBoolWord_chars : Yaml.isBoolWord n.chars = false := by
  rw [Yaml.isBoolWord, List.any_eq_false]
  intro e he
  simp only [Yaml.boolWords, List.mem_cons, List.not_mem_nil, or_false] at he
  simp only [Bool.or_eq_true, beq_iff_eq, not_or]
  rcases he with rfl | rfl | rfl | rfl | rfl | rfl
  all_goals exact ⟨⟨n.chars_ne (by decide), n.chars_ne (by decide)⟩, n.chars_ne (by decide)⟩

theorem isNullWord_chars : Yaml.isNullWord n.chars = false := by
  have words : ∀ word ∈ ["", "~", "null", "Null", "NULL"],
      word.toList.head?.all (fun c => c != '-' && !c.isDigit) = true := by decide
  exact any_word_eq_false fun word mem => n.chars_ne (words word mem)

/-- Whether the numeral has a point, and a sign before the power if there is one. -/
def isPointed (n : Numeral) : Bool :=
  n.fraction.isSome && n.exponent.all fun e => e.isNegative.isSome

theorem isBare_eq (n : Numeral) : n.isBare = (!n.isWhole && !n.isPointed) := by
  unfold isBare isWhole isPointed
  cases n.fraction with
  | none => cases n.exponent <;> rfl
  | some f =>
    cases n.exponent with
    | none => rfl
    | some e => cases h : e.isNegative <;> simp [h]

theorem isSexagesimal_eq_false {cs : List Char} (h : ':' ∉ cs) : Yaml.isSexagesimal cs = false := by
  have whole : splitChars (· == ':') cs = [cs] := by
    induction cs with
    | nil => rfl
    | cons c rest ih =>
      rw [List.mem_cons, not_or] at h
      rw [splitChars, if_neg (by simpa using Ne.symm h.1), ih h.2]
  rw [Yaml.isSexagesimal, whole]

theorem isGrouped_of_digits {cs : List Char} (some : cs ≠ []) (h : ∀ c ∈ cs, c.isDigit = true) :
    Yaml.isGrouped cs = true := by
  cases cs with
  | nil => exact absurd rfl some
  | cons c rest =>
    rw [List.forall_mem_cons] at h
    rw [Yaml.isGrouped, h.1, Bool.true_and, List.all_eq_true]
    intro d hd
    rw [Yaml.isDigitOrBar, h.2 d hd, Bool.true_or]

theorem head_exponentChars {c : Char} (h : n.exponentChars.head? = some c) : c = 'e' ∨ c = 'E' := by
  unfold exponentChars at h
  cases he : n.exponent with
  | none => simp [he] at h
  | some e =>
    have letter : (if e.isCapital then 'E' else 'e') = c := by simpa [he, Exponent.chars] using h
    rw [← letter]
    cases e.isCapital <;> simp

/-- What follows the digits before the point: nothing, the point, or the letter. -/
theorem head_tail {c : Char} (h : (n.fractionChars ++ n.exponentChars).head? = some c) :
    c = '.' ∨ c = 'e' ∨ c = 'E' := by
  unfold fractionChars at h
  cases hf : n.fraction with
  | some f =>
    simp only [hf, Option.isSome_some, if_true, List.cons_append, List.head?_cons] at h
    exact Or.inl (Option.some.inj h).symm
  | none =>
    simp only [hf, Option.isSome_none, Bool.false_eq_true, if_false, List.nil_append] at h
    exact Or.inr (n.head_exponentChars h)

theorem isSignedExponent_exponentChars :
    Yaml.isSignedExponent n.exponentChars = n.exponent.all fun e => e.isNegative.isSome := by
  unfold exponentChars
  cases n.exponent with
  | none => rfl
  | some e =>
    have letter : ((if e.isCapital then 'E' else 'e') == 'e'
        || (if e.isCapital then 'E' else 'e') == 'E') = true := by
      cases e.isCapital <;> rfl
    have digits : ∀ c ∈ e.digits, c.isDigit = true := fun c => Exponent.isDigit_of_mem
    have some : Yaml.allSome Char.isDigit e.digits = true := by
      rw [Yaml.allSome, List.all_eq_true.mpr digits]
      rfl
    simp only [Option.map_some, Option.getD_some, Option.all_some, Exponent.chars,
      Exponent.signChars]
    cases sign : e.isNegative with
    | some negative =>
      have mark : ((if negative then '-' else '+') == '+'
          || (if negative then '-' else '+') == '-') = true := by
        cases negative <;> rfl
      simp [Yaml.isSignedExponent, letter, mark, some]
    | none =>
      have first : (Nat.digitChar e.first.val == '+' || Nat.digitChar e.first.val == '-') = false :=
        (by decide : ∀ d : Fin 10,
          (Nat.digitChar d.val == '+' || Nat.digitChar d.val == '-') = false) e.first
      simp [Yaml.isSignedExponent, Exponent.digits, digitChars, first]

theorem isPointed_magnitude : Yaml.isPointed Yaml.isGrouped n.magnitude = n.isPointed := by
  have plain (c : Char) (h : c.isDigit = true) : (c != '.') = true :=
    bne_iff_ne.mpr (ne_of_isDigit h (by decide))
  have digits : ∀ c ∈ n.whole.chars, (c != '.') = true := fun c hc =>
    plain c (Whole.isDigit_of_mem hc)
  unfold Yaml.isPointed magnitude
  rw [List.takeWhile_append_of_pos digits, List.dropWhile_append_of_pos digits]
  unfold isPointed fractionChars
  cases hf : n.fraction with
  | none =>
    have none : ∀ c ∈ n.exponentChars, (c != '.') = true := by
      intro c hc
      unfold exponentChars at hc
      cases he : n.exponent with
      | none => simp [he] at hc
      | some e =>
        simp only [he, Option.map_some, Option.getD_some, Exponent.chars, Exponent.signChars,
          List.mem_cons, List.mem_append] at hc
        rcases hc with rfl | hc | hc
        · cases e.isCapital <;> decide
        · obtain ⟨negative, -, rfl⟩ := List.mem_map.mp hc
          cases negative <;> decide
        · exact plain c (Exponent.isDigit_of_mem hc)
    simp [List.dropWhile_eq_nil_iff.mpr none]
  | some f =>
    have fraction : ∀ c ∈ n.fractionDigits, Yaml.isDigitOrBar c = true := fun c hc => by
      rw [Yaml.isDigitOrBar, n.isDigit_of_mem_fraction hc, Bool.true_or]
    have ends : n.exponentChars.dropWhile Yaml.isDigitOrBar = n.exponentChars := by
      cases chars : n.exponentChars with
      | nil => rfl
      | cons c rest =>
        rcases n.head_exponentChars (by rw [chars]; rfl) with rfl | rfl <;> rfl
    have grouped := isGrouped_of_digits n.whole.chars_ne_nil fun c => Whole.isDigit_of_mem
    simp [grouped, List.dropWhile_append_of_pos fraction, ends,
      n.isSignedExponent_exponentChars]

theorem magnitude_ne {cs : List Char} (h : cs.head?.all (fun c => !c.isDigit) = true) :
    n.magnitude ≠ cs := by
  obtain ⟨c, rest, eq, digit⟩ := n.exists_magnitude_cons
  rintro rfl
  simp [eq, digit] at h

theorem notMem_magnitude {c : Char} (h : isNumeralChar c = false) : c ∉ n.magnitude := fun mem =>
  n.notMem_of_not_numeralChar h (List.mem_append_right _ mem)

theorem isFloatWord_chars : Yaml.isFloatWord n.chars = n.isPointed := by
  have sexagesimal : Yaml.isSexagesimal (n.magnitude.takeWhile (· != '.')) = false :=
    isSexagesimal_eq_false fun mem =>
      n.notMem_magnitude (by decide) ((List.takeWhile_prefix _).subset mem)
  have pointFirst : ∀ d rest, n.chars = '.' :: d :: rest → False :=
    fun d rest => n.chars_ne rfl
  have infinities : ∀ word ∈ [".inf", ".Inf", ".INF"],
      word.toList.head?.all (fun c => !c.isDigit) = true := by decide
  have nothings : ∀ word ∈ [".nan", ".NaN", ".NAN"],
      word.toList.head?.all (fun c => c != '-' && !c.isDigit) = true := by decide
  have infinity := any_word_eq_false fun word mem => n.magnitude_ne (infinities word mem)
  have nothing := any_word_eq_false fun word mem => n.chars_ne (nothings word mem)
  rw [Yaml.isFloatWord]
  · simp only [n.dropSign_chars, n.isPointed_magnitude, sexagesimal, infinity, nothing,
      Bool.false_and, Bool.or_false]
  · exact pointFirst

theorem tail_eq_nil_iff : n.fractionChars ++ n.exponentChars = [] ↔ n.isWhole = true := by
  unfold fractionChars exponentChars isWhole
  cases n.fraction with
  | none => cases n.exponent <;> simp [Exponent.chars]
  | some f => simp

/-- Only digits may stand in a whole number. -/
theorem all_tail {p : Char → Bool} (marks : p '.' = false ∧ p 'e' = false ∧ p 'E' = false) :
    (n.fractionChars ++ n.exponentChars).all p = n.isWhole := by
  cases tail : n.fractionChars ++ n.exponentChars with
  | nil => rw [n.tail_eq_nil_iff.mp tail]; rfl
  | cons c rest =>
    have some : n.isWhole = false := Bool.eq_false_iff.mpr fun whole => by
      rw [n.tail_eq_nil_iff.mpr whole] at tail
      cases tail
    have mark : p c = false := by
      obtain ⟨point, small, capital⟩ := marks
      rcases n.head_tail (c := c) (by rw [tail]; rfl) with rfl | rfl | rfl
      exacts [point, small, capital]
    rw [some, List.all_cons, mark, Bool.false_and]

theorem isIntWord_chars : Yaml.isIntWord n.chars = n.isWhole := by
  have noColon : ':' ∉ n.magnitude := n.notMem_magnitude (by decide)
  rw [Yaml.isIntWord, n.dropSign_chars]
  unfold magnitude at noColon ⊢
  cases hw : n.whole with
  | zero =>
    have start : ∀ c, (n.fractionChars ++ n.exponentChars).head? = some c → c ≠ 'b' ∧ c ≠ 'x' := by
      intro c hc
      rcases n.head_tail hc with rfl | rfl | rfl <;> decide
    rw [Whole.chars, List.singleton_append]
    split
    next h => exact absurd rfl (start 'b' (by rw [(List.cons.inj h).2]; rfl)).1
    next h => exact absurd rfl (start 'x' (by rw [(List.cons.inj h).2]; rfl)).2
    next h =>
      rw [← (List.cons.inj h).2]
      exact n.all_tail (by decide)
    next h => exact absurd rfl (h _)
  | led first rest =>
    have nonzero : Nat.digitChar (first.val + 1) ≠ '0' :=
      (by decide : ∀ d : Fin 9, Nat.digitChar (d.val + 1) ≠ '0') first
    have digits : ∀ c ∈ (Whole.led first rest).chars, Yaml.isDigitOrBar c = true := fun c hc => by
      rw [Yaml.isDigitOrBar, Whole.isDigit_of_mem hc, Bool.true_or]
    rw [hw] at noColon
    rw [Whole.chars, List.cons_append] at noColon ⊢
    split
    next h => exact absurd (List.cons.inj h).1 nonzero
    next h => exact absurd (List.cons.inj h).1 nonzero
    next h => exact absurd (List.cons.inj h).1 nonzero
    next =>
      have leads := Whole.isDigit_of_mem (w := .led first rest) List.mem_cons_self
      rw [isSexagesimal_eq_false noColon, Bool.or_false, Yaml.isGrouped, leads, Bool.true_and,
        List.all_append, n.all_tail (by decide), List.all_eq_true.mpr, Bool.true_and]
      exact fun c hc => digits c (List.mem_cons_of_mem _ hc)

/-- A moment has a dash behind its year, a numeral only at its start and behind a letter. -/
theorem readTimestamp_chars (least : Nat) : Yaml.readTimestamp least n.chars = none := by
  have year : Yaml.takeDigits 4 4 n.chars = none ∨ ∃ ds rest,
      Yaml.takeDigits 4 4 n.chars = some (ds, rest) ∧ Yaml.takeMark '-' rest = none := by
    unfold chars
    cases n.negative with
    | true => exact Or.inl rfl
    | false =>
      have ends : ∀ c, (n.fractionChars ++ n.exponentChars).head? = some c →
          c.isDigit = false ∧ c ≠ '-' := by
        intro c hc
        rcases n.head_tail hc with rfl | rfl | rfl <;> decide
      have taken := takeDigits_append 4 4 (fun c => Whole.isDigit_of_mem (w := n.whole))
        fun c hc => (ends c hc).1
      simp only [Bool.false_eq_true, if_false, List.nil_append, magnitude, taken]
      split
      next => exact Or.inl rfl
      next =>
        refine Or.inr ⟨_, _, rfl, ?_⟩
        cases rest : n.whole.chars.drop 4 with
        | nil =>
          cases tail : n.fractionChars ++ n.exponentChars with
          | nil => rfl
          | cons c more => exact if_neg (ends c (by rw [tail]; rfl)).2
        | cons c more =>
          have digit : c.isDigit = true := Whole.isDigit_of_mem (w := n.whole)
            (List.mem_of_mem_drop (i := 4) (by rw [rest]; exact List.mem_cons_self))
          exact if_neg (ne_of_isDigit digit (by decide))
  unfold Yaml.readTimestamp
  rcases year with none | ⟨ds, rest, some, none⟩
  · rw [none]
    rfl
  · simp [some, none]

def tag : Yaml.Tag := if n.isBare then .text else if n.isWhole then .int else .float

theorem impliedTag_chars : Yaml.NodeReader.impliedTag (String.ofList n.chars) = n.tag := by
  have noBreak : '\n' ∉ n.chars := n.notMem_of_not_numeralChar (by decide)
  have last : n.chars.getLast? ≠ some '\n' := fun h => noBreak (List.mem_of_getLast? h)
  rw [Yaml.NodeReader.impliedTag, String.toList_ofList, if_neg (n.chars_ne (by decide)),
    if_neg last, Yaml.plainTag, n.isBoolWord_chars, n.isFloatWord_chars, n.isIntWord_chars, tag,
    n.isBare_eq]
  have merge : (n.chars == "<<".toList) = false := beq_eq_false_iff_ne.mpr (n.chars_ne (by decide))
  have equals : (n.chars == ['=']) = false := beq_eq_false_iff_ne.mpr (n.chars_ne (by decide))
  simp only [merge, equals, n.isNullWord_chars, n.readTimestamp_chars]
  cases whole : n.isWhole with
  | true =>
    have pointed : n.isPointed = false := by
      simp only [isWhole, Bool.and_eq_true, Option.isNone_iff_eq_none] at whole
      rw [isPointed, whole.1]
      rfl
    simp [pointed]
  | false => cases n.isPointed <;> rfl

theorem withoutBars_chars : Yaml.withoutBars (String.ofList n.chars) = n.chars := by
  rw [Yaml.withoutBars, String.toList_ofList, List.filter_eq_self]
  intro c hc
  rw [decide_eq_true_eq]
  rintro rfl
  exact n.notMem_of_not_numeralChar (by decide) hc

end Numeral

theorem trimNumeral_of_numeralChars {cs : List Char} (h : ∀ c ∈ cs, isNumeralChar c = true) :
    trimNumeral cs = cs := by
  have inked : ∀ c ∈ cs, isNumeralBlank c = false := fun c hc =>
    of_isNumeralChar (p := fun c => isNumeralBlank c = false) (by decide) (by decide) (h c hc)
  have kept {ds : List Char} (hd : ∀ c ∈ ds, isNumeralBlank c = false) :
      ds.dropWhile isNumeralBlank = ds := by
    cases ds with
    | nil => rfl
    | cons c rest =>
      exact List.dropWhile_cons_of_neg (by simp [hd c List.mem_cons_self])
  rw [trimNumeral, kept inked, kept fun c hc => inked c (List.mem_reverse.mp hc),
    List.reverse_reverse]

theorem plainDigit_of_numeralChars {cs : List Char} (h : ∀ c ∈ cs, isNumeralChar c = true) :
    cs.map plainDigit = cs := by
  have same : ∀ c ∈ cs, plainDigit c = id c := fun c hc =>
    of_isNumeralChar (p := fun c => plainDigit c = id c) (by decide) (by decide) (h c hc)
  rw [List.map_congr_left same, List.map_id]

theorem isNumeralChar_of_isDigit {c : Char} (h : c.isDigit = true) : isNumeralChar c = true := by
  rw [isNumeralChar, h, Bool.true_or]

theorem splitSign_of_digit {c : Char} (h : c.isDigit = true) (rest : List Char) :
    splitSign (c :: rest) = (false, c :: rest) := by
  unfold splitSign
  split
  next eq => exact absurd (List.cons.inj eq).1 (ne_of_isDigit h (by decide))
  next eq => exact absurd (List.cons.inj eq).1 (ne_of_isDigit h (by decide))
  next => rfl

theorem digitIn?_of_isDigit {c : Char} (h : c.isDigit = true) :
    Yaml.digitIn? 10 c = some (c.toNat - 0x30) :=
  of_isDigit (p := fun c => Yaml.digitIn? 10 c = some (c.toNat - 0x30)) (by decide) h

theorem foldl_digitIn? {cs : List Char} (h : ∀ c ∈ cs, c.isDigit = true) (n : Nat) :
    cs.foldl (fun n c => 10 * n + (Yaml.digitIn? 10 c).getD 0) n =
      cs.foldl (fun n d => 10 * n + (d.toNat - 0x30)) n := by
  induction cs generalizing n with
  | nil => rfl
  | cons c rest ih =>
    rw [List.forall_mem_cons] at h
    rw [List.foldl_cons, List.foldl_cons, digitIn?_of_isDigit h.1, ih h.2]
    rfl

theorem wholeNumber_of_digits {cs : List Char} (some : cs ≠ []) (h : ∀ c ∈ cs, c.isDigit = true)
    (readable : cs.length ≤ Value.mostDigits) :
    Yaml.wholeNumber 10 cs = .ok (Nat.ofDigitChars 10 cs 0) := by
  have numeral : ∀ c ∈ cs, isNumeralChar c = true := fun c hc => isNumeralChar_of_isDigit (h c hc)
  have sign : splitSign cs = (false, cs) := by
    obtain ⟨c, rest, rfl⟩ := List.exists_cons_of_ne_nil some
    exact splitSign_of_digit (h c List.mem_cons_self) rest
  have unmarked : Yaml.dropBaseMark 10 cs = cs := by
    unfold Yaml.dropBaseMark
    split
    next => exact if_neg nofun
    next => rfl
  have known : cs.takeWhile (fun c => (Yaml.digitIn? 10 c).isSome) = cs :=
    List.takeWhile_eq_self_iff.mpr fun c hc => by rw [digitIn?_of_isDigit (h c hc)]; rfl
  rw [Yaml.wholeNumber, trimNumeral_of_numeralChars numeral, plainDigit_of_numeralChars numeral]
  simp only [sign, unmarked, known, foldl_digitIn? h, Nat.not_lt.mpr readable, and_false, if_false,
    some, Nat.lt_irrefl, or_self]
  rfl

namespace Numeral

variable {n : Numeral}

theorem intValue_chars (whole : n.isWhole = true) (readable : n.isReadable = true) :
    Yaml.intValue (String.ofList n.chars) =
      .ok (Binary64.signed n.negative (Nat.ofDigitChars 10 n.whole.chars 0)) := by
  have digits : ∀ c ∈ n.whole.chars, c.isDigit = true := fun c => Whole.isDigit_of_mem
  have few : n.whole.chars.length ≤ Value.mostDigits := by simpa [isReadable, whole] using readable
  have number := wholeNumber_of_digits n.whole.chars_ne_nil digits few
  have magnitude : n.magnitude = n.whole.chars := by
    rw [magnitude, n.tail_eq_nil_iff.mpr whole, List.append_nil]
  rw [Yaml.intValue, n.withoutBars_chars, n.splitSign_chars, magnitude]
  rcases n.whole.chars_cases with zero | ⟨c, rest, eq, nonzero⟩
  · rw [zero]
    cases n.negative <;> rfl
  · have noColon : ':' ∉ c :: rest := fun mem =>
      absurd (digits ':' (by rwa [eq])) (by decide)
    rw [eq] at number ⊢
    dsimp only
    split
    next h => cases h
    next h => exact absurd (List.cons.inj h).1 nonzero
    next h => exact absurd (List.cons.inj h).1 nonzero
    next h => exact absurd (List.cons.inj h).1 nonzero
    next h => exact absurd (List.cons.inj h).1 nonzero
    next =>
      rw [if_neg noColon, number]
      cases n.negative <;> rfl

/-- The numeral with a small letter before its power. -/
def small (n : Numeral) : Numeral :=
  { n with exponent := n.exponent.map fun e => { e with isCapital := false } }

theorem lowerChars_chars (n : Numeral) : lowerChars n.chars = n.small.chars := by
  have digits {cs : List Char} (h : ∀ c ∈ cs, c.isDigit = true) : cs.flatMap lowerChar = cs := by
    induction cs with
    | nil => rfl
    | cons c rest ih =>
      rw [List.forall_mem_cons] at h
      have same := of_isDigit (p := fun c => lowerChar c = [c]) (by decide) h.1
      rw [List.flatMap_cons, same, ih h.2]
      rfl
  have whole := digits fun c => Whole.isDigit_of_mem (w := n.whole)
  have fraction : n.fractionChars.flatMap lowerChar = n.small.fractionChars := by
    unfold fractionChars
    split
    next h =>
      rw [List.flatMap_cons, digits fun c => n.isDigit_of_mem_fraction]
      simp [small, h, fractionDigits, show lowerChar '.' = ['.'] by decide]
    next h => simp [small, h]
  have exponent : n.exponentChars.flatMap lowerChar = n.small.exponentChars := by
    unfold exponentChars small
    cases n.exponent with
    | none => rfl
    | some e =>
      have letter : lowerChar (if e.isCapital then 'E' else 'e') = ['e'] := by
        cases e.isCapital <;> decide
      have sign : e.signChars.flatMap lowerChar = e.signChars := by
        unfold Exponent.signChars
        cases e.isNegative with
        | none => rfl
        | some negative => cases negative <;> decide
      simp only [Option.map_some, Option.getD_some, Exponent.chars, List.flatMap_cons,
        List.flatMap_append, letter, sign, digits fun c => Exponent.isDigit_of_mem (e := e)]
      rfl
  rw [lowerChars_of_plain (n.notMem_of_not_numeralChar (by decide)), chars, magnitude,
    List.flatMap_append, List.flatMap_append, List.flatMap_append, whole, fraction, exponent]
  cases h : n.negative with
  | true => simp [chars, magnitude, small, h, show lowerChar '-' = ['-'] by decide]
  | false => simp [chars, magnitude, small, h]

theorem joinGroups_of_plain {cs : List Char} (h : '_' ∉ cs) (before : Option Char) :
    joinGroups before cs = some cs := by
  induction cs generalizing before with
  | nil => rfl
  | cons c rest ih =>
    rw [List.mem_cons, not_or] at h
    unfold joinGroups
    split
    next => contradiction
    next eq => exact absurd (List.cons.inj eq).1.symm h.1
    next eq =>
      obtain ⟨rfl, rfl⟩ := List.cons.inj eq
      rw [ih h.2]
      rfl

theorem readExponent_chars (n : Numeral) :
    readExponent n.exponentChars = some ((n.exponent.map Exponent.power).getD 0) := by
  unfold exponentChars
  cases n.exponent with
  | none => rfl
  | some e =>
    have letter : (if e.isCapital then 'E' else 'e') = 'e' ∨
        (if e.isCapital then 'E' else 'e') = 'E' := by
      cases e.isCapital <;> simp
    have digits : e.digits ≠ [] ∧ e.digits.all Char.isDigit = true :=
      ⟨List.cons_ne_nil _ _, List.all_eq_true.mpr fun c => Exponent.isDigit_of_mem⟩
    have sign : splitSign (e.signChars ++ e.digits) = (e.isNegative.getD false, e.digits) := by
      unfold Exponent.signChars
      cases e.isNegative with
      | none => exact splitSign_of_digit (Exponent.isDigit_of_mem (e := e) List.mem_cons_self) _
      | some negative => cases negative <;> rfl
    simp only [Option.map_some, Option.getD_some, Exponent.chars, readExponent, if_pos letter, sign,
      if_pos digits]
    rfl

theorem splitFraction_tail (n : Numeral) :
    splitFraction (n.fractionChars ++ n.exponentChars) = (n.fractionDigits, n.exponentChars) := by
  have letter := @head_exponentChars n
  unfold fractionChars
  cases hf : n.fraction with
  | none =>
    have none : n.fractionDigits = [] := by rw [fractionDigits, hf]
    rw [none]
    exact splitFraction_of_unpointed fun point => absurd (letter point) (by decide)
  | some f =>
    have fraction : ∀ c ∈ n.fractionDigits, c.isDigit = true := fun c => n.isDigit_of_mem_fraction
    obtain ⟨front, back⟩ := span_digits fraction fun c hc => by
      rcases letter hc with rfl | rfl <;> decide
    rw [Option.isSome_some, if_pos rfl, List.cons_append, splitFraction, front, back]

theorem readNumeral?_magnitude (n : Numeral) : readNumeral? n.magnitude =
    some (.ofDecimal false (Nat.ofDigitChars 10 (n.whole.chars ++ n.fractionDigits) 0)
      ((n.exponent.map Exponent.power).getD 0 - n.fractionDigits.length)) := by
  have numeral : ∀ c ∈ n.magnitude, isNumeralChar c = true := fun c hc =>
    n.isNumeralChar_of_mem (List.mem_append_right _ hc)
  obtain ⟨c, rest, eq, digit⟩ := n.exists_magnitude_cons
  have sign : splitSign n.magnitude = (false, n.magnitude) := by
    rw [eq]
    exact splitSign_of_digit digit rest
  have word (other : String) (h : other.toList.head?.all (fun c => !c.isDigit) = true) :
      String.ofList (n.magnitude.map Char.toLower) ≠ other := by
    have same : c.toLower = c := of_isDigit (p := fun c => c.toLower = c) (by decide) digit
    rintro rfl
    rw [String.toList_ofList, eq, List.map_cons, same] at h
    simp [digit] at h
  have whole : ∀ c ∈ n.whole.chars, c.isDigit = true := fun c => Whole.isDigit_of_mem
  have tail := readMagnitude_append false n.whole.chars_ne_nil whole fun c hc => by
    rcases n.head_tail hc with rfl | rfl | rfl <;> decide
  rw [readNumeral?, trimNumeral_of_numeralChars numeral, plainDigit_of_numeralChars numeral,
    joinGroups_of_plain (n.notMem_magnitude (by decide))]
  simp only [bind, Option.bind, sign]
  rw [if_neg (not_or.mpr ⟨word "inf" (by decide), word "infinity" (by decide)⟩),
    if_neg (word "nan" (by decide)), magnitude, tail, n.splitFraction_tail, n.readExponent_chars]
  rfl

theorem floatValue_chars (n : Numeral) : Yaml.floatValue (String.ofList n.chars) =
    .ok (.ofDecimal n.negative (Nat.ofDigitChars 10 (n.whole.chars ++ n.fractionDigits) 0)
      ((n.exponent.map Exponent.power).getD 0 - n.fractionDigits.length)) := by
  have power : (n.small.exponent.map Exponent.power).getD 0 =
      (n.exponent.map Exponent.power).getD 0 := by
    unfold small
    cases n.exponent <;> rfl
  have read : readNumeral? n.small.magnitude =
      some (.ofDecimal false (Nat.ofDigitChars 10 (n.whole.chars ++ n.fractionDigits) 0)
        ((n.exponent.map Exponent.power).getD 0 - n.fractionDigits.length)) := by
    rw [readNumeral?_magnitude, power]
    rfl
  obtain ⟨c, rest, eq, -⟩ := n.small.exists_chars_cons
  rw [Yaml.floatValue, n.withoutBars_chars, n.lowerChars_chars, n.small.splitSign_chars]
  simp only [if_neg (show n.small.chars ≠ [] by simp [eq]),
    if_neg (show n.small.magnitude ≠ ".inf".toList from n.small.magnitude_ne (by decide)),
    if_neg (show n.small.magnitude ≠ ".nan".toList from n.small.magnitude_ne (by decide)),
    if_neg (n.small.notMem_magnitude (c := ':') (by decide)), Yaml.floatPart, read]
  cases h : n.negative with
  | false => simp [small, h, Except.map]
  | true => simp [small, h, Except.map, Binary64.neg_ofDecimal]

/-- What a numeral is loaded as. -/
theorem scalarValue_chars (n : Numeral) (readable : n.isReadable = true) :
    Yaml.scalarValue n.tag (String.ofList n.chars) = .ok n.loaded := by
  unfold tag loaded value
  cases n.isBare with
  | true => rfl
  | false =>
    cases whole : n.isWhole with
    | true => exact congrArg (Except.map Value.int) (intValue_chars whole readable)
    | false => exact congrArg (Except.map Value.float) n.floatValue_chars

end Numeral

namespace Leaf

/-- Texts are marked by their quotes. -/
def isPlain : Leaf → Bool
  | text _ => false
  | _ => true

/-- The text of a leaf without the marks around it. -/
def word : Leaf → String
  | text ps => String.ofList (loadedChars ps)
  | l => String.ofList l.chars

def tag : Leaf → Yaml.Tag
  | null => .null
  | bool _ => .bool
  | number n => n.tag
  | text _ => .text

theorem ofScalar_word (l : Leaf) :
    Yaml.NodeReader.Tagging.absent.ofScalar l.isPlain l.word = l.tag := by
  cases l with
  | null => decide
  | bool b => cases b <;> decide
  | number n => exact n.impliedTag_chars
  | text ps => rfl

theorem scalarValue_word {l : Leaf} (readable : l.isReadable = true) :
    Yaml.scalarValue l.tag l.word = .ok l.loaded := by
  cases l with
  | null => rfl
  | bool b => cases b <;> rfl
  | number n => exact n.scalarValue_chars readable
  | text ps => rfl

end Leaf

end Json

end Gatehouse
