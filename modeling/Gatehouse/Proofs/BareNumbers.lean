import Gatehouse.Proofs.NumeralReading
import Gatehouse.Proofs.QuotedValues

namespace Gatehouse

theorem isBlank_of_isNumeralMark {c : Char} (h : isNumeralMark (plainDigit c) = true) :
    isBlank c = false :=
  isBlank_eq_false_of (p := fun c => isNumeralMark (plainDigit c)) (by decide) h

theorem trimChars_append {front cs back : List Char} (before : ∀ c ∈ front, isBlank c = true)
    (inked : ∀ c ∈ cs, isBlank c = false) (after : ∀ c ∈ back, isBlank c = true) :
    trimChars (front ++ (cs ++ back)) = cs := by
  have back' : ∀ c ∈ back.reverse, isBlank c = true := fun c hc => after c (List.mem_reverse.mp hc)
  have kept {ds : List Char} (inked : ∀ c ∈ ds, isBlank c = false) (more : List Char)
      (some : ds ≠ []) : (ds ++ more).dropWhile isBlank = ds ++ more := by
    cases ds with
    | nil => exact absurd rfl some
    | cons c ds => exact List.dropWhile_cons_of_neg (by simp [inked c List.mem_cons_self])
  rw [trimChars, List.dropWhile_append_of_pos before]
  by_cases some : cs = []
  · rw [some, List.nil_append, List.dropWhile_eq_nil_iff.mpr after]
    rfl
  · have turned := kept (fun c hc => inked c (List.mem_reverse.mp hc)) [] (by simpa using some)
    rw [List.append_nil] at turned
    rw [kept inked back some, trimEndChars, List.reverse_append,
      List.dropWhile_append_of_pos back', turned, List.reverse_reverse]

theorem trimChars_eq_self {cs : List Char} (inked : ∀ c ∈ cs, isBlank c = false) :
    trimChars cs = cs := by
  have trimmed := trimChars_append (List.forall_mem_nil _) inked (List.forall_mem_nil _)
  rwa [List.append_nil] at trimmed

theorem exists_trimNumeral_split (cs : List Char) : ∃ front back,
    cs = front ++ (trimNumeral cs ++ back) ∧ (∀ c ∈ front, isBlank c = true) ∧
      ∀ c ∈ back, isBlank c = true := by
  have blank {ds : List Char} : ∀ c ∈ ds.takeWhile isNumeralBlank, isBlank c = true :=
    fun c hc => (Bool.and_eq_true_iff.mp (List.mem_takeWhile_imp (p := isNumeralBlank) hc)).1
  refine ⟨cs.takeWhile isNumeralBlank,
    ((cs.dropWhile isNumeralBlank).reverse.takeWhile isNumeralBlank).reverse, ?_, blank,
    fun c hc => blank c (List.mem_reverse.mp hc)⟩
  rw [trimNumeral, ← List.reverse_append, List.takeWhile_append_dropWhile, List.reverse_reverse,
    List.takeWhile_append_dropWhile]

theorem trimChars_eq_trimNumeral {cs : List Char}
    (inked : ∀ c ∈ trimNumeral cs, isBlank c = false) : trimChars cs = trimNumeral cs := by
  obtain ⟨front, back, whole, before, after⟩ := exists_trimNumeral_split cs
  exact (congrArg trimChars whole).trans (trimChars_append before inked after)

theorem IsNumeral.inked {cs : List Char} {q : Quantity} (h : IsNumeral cs q) :
    ∀ c ∈ cs, isBlank c = false := h.forall_mem (by decide) (by decide) (by decide)

theorem plainDigit_of_ascii {cs : List Char} (ascii : cs.all (·.toNat < 0x80) = true) :
    cs.map plainDigit = cs := by
  have same : ∀ n < 0x80, plainDigit (Char.ofNat n) = Char.ofNat n := by decide
  have each : ∀ c ∈ cs, plainDigit c = id c := fun c hc => by
    have := same c.toNat (of_decide_eq_true (List.all_eq_true.mp ascii c hc))
    rwa [Char.ofNat_toNat] at this
  rw [List.map_congr_left each, List.map_id]

/-- A text that is read as a number is a numeral of the generated program and stands for this number
only if it is a plain numeral. -/
theorem exists_isNumeral_iff {cs : List Char} {x : Binary64} (read : readNumeral? cs = some x) :
    (∃ q, IsNumeral (trimChars cs) q ∧ q.IsSame (.double x)) ↔ IsPlainNumeral (trimChars cs) x := by
  constructor
  · rintro ⟨q, numeral, same⟩
    exact numeral.isPlain same
  · intro plain
    obtain ⟨js, joined, found⟩ := exists_of_readNumeral? read
    have trimmed := trimChars_eq_trimNumeral fun c hc =>
      isBlank_of_isNumeralMark (isNumeralMark_of_readNumeral? read c hc)
    rw [← trimmed, plainDigit_of_ascii plain.ascii] at joined
    refine exists_isNumeral_of_read plain joined (found.resolve_left fun word => ?_)
    -- a word begins with a letter
    obtain ⟨ss, last, -, -, -, bare, inner⟩ := exists_of_joinGroups_sign rfl joined
    have led := plain.led
    rw [← head_joinGroups bare inner] at led
    have letter : ∀ w ∈ numberWords, w.toList.head?.any Char.isDigit = false := by decide
    have first := letter _ word
    rw [String.toList_ofList] at first
    cases body : (splitSign js).2 with
    | nil =>
      rw [body] at led
      cases led
    | cons c rest =>
      rw [body] at led first
      have digit := of_isDigit (p := fun c => c.toLower.isDigit = true) (by decide) led
      rw [List.map_cons, List.head?_cons, Option.any_some, digit] at first
      cases first

theorem length_le_escapeApostrophes (cs : List Char) :
    cs.length ≤ (escapeApostrophes cs).length := by
  induction cs with
  | nil => exact Nat.zero_le _
  | cons c cs ih =>
    by_cases apostrophe : c = '\''
    · rw [apostrophe, escapeApostrophes_apostrophe]
      simp only [List.length_cons]
      omega
    · rw [escapeApostrophes_cons apostrophe]
      simp only [List.length_cons]
      omega

namespace Value

/-- The number that a value denotes; a text denotes the double that it is read as. -/
def quantity? : Value → Option Quantity
  | int i => some (.whole i)
  | float x => some (.double x)
  | text s => (readNumeral? s.toList).map .double
  | _ => none

/-- The literal of the value is a numeral of the generated program and stands for the number that
the value denotes. -/
def IsBareNumber (v : Value) : Prop :=
  ∃ q p, IsNumeral (trimChars v.literal.toList) q ∧ v.quantity? = some p ∧ q.IsSame p

/-- Whole numbers, finite doubles, and the texts that are plain numerals. -/
def IsPlainNumber : Value → Prop
  | int _ => True
  | float x => ∃ negative mant exp, x = .finite negative mant exp
  | text s => ∀ x, readNumeral? s.toList = some x → IsPlainNumeral (trimChars s.toList) x
  | _ => False

theorem isNumeric_of_literal {v : Value} (unquoted : v.literal = v.bare) : v.isNumeric = true := by
  by_contra quoted
  rw [literal, if_neg quoted] at unquoted
  have length := congrArg (fun s => s.toList.length) unquoted
  have longer := length_le_escapeApostrophes v.bare.toList
  simp only [Value.quoted, quotedChars, String.toList_ofList, List.cons_append, List.length_cons,
    List.length_append] at length
  omega

theorem isBareNumber_iff {v : Value} (unquoted : v.literal = v.bare)
    (double : ∀ x, v = .float x → x.IsDouble) : v.IsBareNumber ↔ v.IsPlainNumber := by
  have numeric := isNumeric_of_literal unquoted
  cases v with
  | int i =>
    have numeral := isNumeral_toString i
    refine iff_of_true ⟨.whole i, .whole i, ?_, rfl, rfl⟩ trivial
    rwa [unquoted, show (Value.int i).bare = toString i from rfl, trimChars_eq_self numeral.inked]
  | float x =>
    have text : (Value.float x).literal = x.text := unquoted
    constructor
    · rintro ⟨q, p, numeral, quantity, same⟩
      cases quantity
      rw [text] at numeral
      have led := (numeral.isPlain same).led
      cases x with
      | finite negative mant exp => exact ⟨negative, mant, exp, rfl⟩
      | infinite negative => cases negative <;> exact absurd led (by decide)
      | nan => exact absurd led (by decide)
    · rintro ⟨negative, mant, exp, rfl⟩
      have numeral := Binary64.isNumeral_text (double _ rfl)
      refine ⟨.double _, _, ?_, rfl, rfl⟩
      rwa [text, trimChars_eq_self numeral.inked]
  | text s =>
    obtain ⟨x, read⟩ := Option.isSome_iff_exists.mp (Bool.and_eq_true_iff.mp numeric).2
    have text : (Value.text s).literal = s := unquoted
    have plain := exists_isNumeral_iff read
    simp only [IsBareNumber, IsPlainNumber, text, quantity?, read, Option.map_some,
      Option.some.injEq]
    constructor
    · rintro ⟨q, -, numeral, rfl, same⟩ x rfl
      exact plain.mp ⟨q, numeral, same⟩
    · intro all
      obtain ⟨q, numeral, same⟩ := plain.mpr (all x rfl)
      exact ⟨q, _, numeral, rfl, same⟩
  | _ => cases numeric

/-- A word is no number, a text and a double that a document holds are. -/
theorem isBareNumber_word_and_numeral :
    ((text "nan").literal = (text "nan").bare ∧ ¬(text "nan").IsBareNumber) ∧
      ((text " -1_0.50E3").literal = (text " -1_0.50E3").bare ∧
        (text " -1_0.50E3").IsBareNumber) ∧
      ∃ x, Yaml.scalarValue .float "-2.50" = .ok (.float x) ∧
        (float x).literal = (float x).bare ∧ (float x).IsBareNumber := by
  have word : (text "nan").literal = (text "nan").bare := if_pos (by decide)
  have numeral : (text " -1_0.50E3").literal = (text " -1_0.50E3").bare := if_pos (by decide)
  refine ⟨⟨word, fun bare => ?_⟩, ⟨numeral, (isBareNumber_iff numeral nofun).mpr fun x _ => ?_⟩, ?_⟩
  · have plain := (isBareNumber_iff word nofun).mp bare .nan (by decide)
    exact absurd plain.led (by decide)
  · exact ⟨by decide, by decide, by decide, by decide, fun point => absurd (by decide) point⟩
  · have read : (Yaml.floatValue "-2.50").toOption =
        some (.finite true 5629499534213120 (-51)) := by decide +kernel
    cases given : Yaml.floatValue "-2.50" with
    | error fault =>
      rw [given] at read
      cases read
    | ok x =>
      have loaded : Yaml.scalarValue .float "-2.50" = .ok (.float x) := by
        rw [Yaml.scalarValue, given]
        rfl
      rw [given] at read
      cases Option.some.inj read
      have unquoted : (float (.finite true 5629499534213120 (-51))).literal =
          (float (.finite true 5629499534213120 (-51))).bare := if_pos (by decide)
      refine ⟨_, loaded, unquoted, (isBareNumber_iff unquoted fun y same => ?_).mpr ⟨_, _, _, rfl⟩⟩
      rw [same] at loaded
      exact Yaml.isDouble_of_scalarValue loaded

end Value

end Gatehouse
