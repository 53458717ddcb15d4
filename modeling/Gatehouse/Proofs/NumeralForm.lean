import Gatehouse.Number.Layout
import Gatehouse.Proofs.JsonScalars
import Gatehouse.Proofs.ShortestDecimal

namespace Gatehouse

/-- Digits with single underscores between them, and the digits alone. -/
inductive IsGrouped : List Char → List Char → Prop
  | last {c : Char} (digit : c.isDigit = true) : IsGrouped [c] [c]
  | next {c : Char} {gs ds : List Char} (digit : c.isDigit = true) (more : IsGrouped gs ds) :
      IsGrouped (c :: gs) (c :: ds)
  | bar {c : Char} {gs ds : List Char} (digit : c.isDigit = true) (more : IsGrouped gs ds) :
      IsGrouped (c :: '_' :: gs) (c :: ds)

inductive IsSign : List Char → Bool → Prop
  | none : IsSign [] false
  | plus : IsSign ['+'] false
  | minus : IsSign ['-'] true

/-- Nothing, or a point and the digits behind it. -/
inductive IsFraction : List Char → List Char → Prop
  | none : IsFraction [] []
  | some {gs ds : List Char} (digits : IsGrouped gs ds) : IsFraction ('.' :: gs) ds

/-- Nothing, or a letter and a power of ten. -/
inductive IsPower : List Char → Int → Prop
  | none : IsPower [] 0
  | some {c : Char} {ss gs ds : List Char} {negative : Bool} (letter : c = 'e' ∨ c = 'E')
      (sign : IsSign ss negative) (digits : IsGrouped gs ds) :
      IsPower (c :: (ss ++ gs)) (Binary64.signed negative (Nat.ofDigitChars 10 ds 0))

/-- A number of the generated program. -/
inductive Quantity where
  | whole (i : Int)
  | double (x : Binary64)

/-- The text is a numeral of the generated program and stands for the number. -/
inductive IsNumeral : List Char → Quantity → Prop
  | whole {ss gs ds : List Char} {negative : Bool} (sign : IsSign ss negative)
      (digits : IsGrouped gs ds) (unpadded : gs.head? = some '0' → gs = ['0']) :
      IsNumeral (ss ++ gs) (.whole (Binary64.signed negative (Nat.ofDigitChars 10 ds 0)))
  | double {ss gs ds fs es ps : List Char} {negative : Bool} {power : Int}
      (sign : IsSign ss negative) (digits : IsGrouped gs ds)
      (unpadded : gs.head? = some '0' → gs = ['0']) (fraction : IsFraction fs es)
      (scale : IsPower ps power) (marked : fs ≠ [] ∨ ps ≠ []) :
      IsNumeral (ss ++ (gs ++ (fs ++ ps)))
        (.double (.ofDecimal negative (Nat.ofDigitChars 10 (ds ++ es) 0) (power - es.length)))

theorem isGrouped_self {ds : List Char} (some : ds ≠ []) (digits : ∀ c ∈ ds, c.isDigit = true) :
    IsGrouped ds ds := by
  induction ds with
  | nil => exact absurd rfl some
  | cons c ds ih =>
    obtain ⟨digit, rest⟩ := List.forall_mem_cons.mp digits
    cases ds with
    | nil => exact .last digit
    | cons d ds => exact .next digit (ih (List.cons_ne_nil d ds) rest)

theorem head_toDigits {n : ℕ} (hn : 0 < n) : (Nat.toDigits 10 n).head? ≠ some '0' := by
  induction n using Nat.strong_induction_on with
  | _ n ih =>
    rw [Nat.toDigits_eq_if (by norm_num)]
    split
    next small =>
      have digit : ∀ d < 10, 0 < d → Nat.digitChar d ≠ '0' := by decide
      exact fun eq => digit n small hn (Option.some.inj eq)
    next large =>
      rw [List.head?_append_of_ne_nil _ Nat.toDigits_ne_nil]
      exact ih (n / 10) (by omega) (by omega)

theorem unpadded_toDigits (n : ℕ) (zero : (Nat.toDigits 10 n).head? = some '0') :
    Nat.toDigits 10 n = ['0'] := by
  rcases Nat.eq_zero_or_pos n with rfl | hn
  · exact Nat.toDigits_zero 10
  · exact absurd zero (head_toDigits hn)

theorem ofDigitChars_append (ds es : List Char) :
    Nat.ofDigitChars 10 (ds ++ es) 0 =
      10 ^ es.length * Nat.ofDigitChars 10 ds 0 + Nat.ofDigitChars 10 es 0 := by
  rw [Nat.ofDigitChars_append, Nat.ofDigitChars_eq_ofDigitChars_zero]

theorem ofDigitChars_zeros (n : ℕ) : Nat.ofDigitChars 10 (zeros n) 0 = 0 := by
  rw [zeros, Nat.ofDigitChars_replicate_zero, Nat.mul_zero]

theorem ofDigitChars_append_zeros (ds : List Char) (n : ℕ) :
    Nat.ofDigitChars 10 (ds ++ zeros n) 0 = 10 ^ n * Nat.ofDigitChars 10 ds 0 := by
  rw [ofDigitChars_append, ofDigitChars_zeros, Nat.add_zero, zeros, List.length_replicate]

theorem ofDigitChars_zeros_append (n : ℕ) (ds : List Char) :
    Nat.ofDigitChars 10 (zeros n ++ ds) 0 = Nat.ofDigitChars 10 ds 0 := by
  rw [ofDigitChars_append, ofDigitChars_zeros, Nat.mul_zero, Nat.zero_add]

theorem isDigit_of_mem_zeros {n : ℕ} {c : Char} (h : c ∈ zeros n) : c.isDigit = true := by
  rw [List.eq_of_mem_replicate h]
  rfl

/-- A whole number is written as the numeral that stands for it. -/
theorem isNumeral_toString (i : Int) : IsNumeral (toString i).toList (.whole i) := by
  have digits (n : ℕ) : IsGrouped (Nat.toDigits 10 n) (Nat.toDigits 10 n) :=
    isGrouped_self Nat.toDigits_ne_nil fun c => Nat.isDigit_of_mem_toDigits (by decide) (by decide)
  have chars (n : ℕ) : (toString n).toList = Nat.toDigits 10 n := by
    rw [Nat.toString_eq_ofList_toDigits, String.toList_ofList]
  cases i with
  | ofNat n =>
    have numeral := IsNumeral.whole .none (digits n) (unpadded_toDigits n)
    rw [Nat.ofDigitChars_ten_toDigits] at numeral
    rwa [show toString (Int.ofNat n) = toString n from rfl, chars]
  | negSucc n =>
    have numeral := IsNumeral.whole .minus (digits (n + 1)) (unpadded_toDigits (n + 1))
    rw [Nat.ofDigitChars_ten_toDigits] at numeral
    rwa [show toString (Int.negSucc n) = "-" ++ toString (n + 1) from rfl, String.toList_append,
      chars]

theorem exists_dropTrailingZeros (ds : List Char) : ∃ k, ds = dropTrailingZeros ds ++ zeros k := by
  refine ⟨(ds.reverse.takeWhile (· == '0')).length, ?_⟩
  have zero : ∀ c ∈ ds.reverse.takeWhile (· == '0'), c = '0' := fun c hc =>
    beq_iff_eq.mp (List.mem_takeWhile_imp (p := (· == '0')) hc)
  have split := List.takeWhile_append_dropWhile (p := (· == '0')) (l := ds.reverse)
  rw [List.eq_replicate_of_mem zero] at split
  rw [← List.reverse_inj, List.reverse_append, dropTrailingZeros, List.reverse_reverse, zeros,
    List.reverse_replicate]
  exact split.symm

theorem isPower_exponentChars (width : ℕ) (power : Int) :
    IsPower (exponentChars width power) power := by
  have digits : ∀ c ∈ zeros (width - (Nat.toDigits 10 power.natAbs).length) ++
      Nat.toDigits 10 power.natAbs, c.isDigit = true :=
    List.forall_mem_append.mpr
      ⟨fun c => isDigit_of_mem_zeros, fun c => Nat.isDigit_of_mem_toDigits (by decide) (by decide)⟩
  have grouped := isGrouped_self (by simp [Nat.toDigits_ne_nil]) digits
  have value : Nat.ofDigitChars 10 (zeros (width - (Nat.toDigits 10 power.natAbs).length) ++
      Nat.toDigits 10 power.natAbs) 0 = power.natAbs := by
    rw [ofDigitChars_zeros_append, Nat.ofDigitChars_ten_toDigits]
  unfold exponentChars
  dsimp only
  split
  next below =>
    have scale := IsPower.some (Or.inl rfl) .minus grouped
    rwa [value, Binary64.signed, if_pos rfl, Int.ofNat_natAbs_of_nonpos below.le, neg_neg] at scale
  next above =>
    have scale := IsPower.some (Or.inl rfl) .plus grouped
    rwa [value, Binary64.signed, if_neg (by decide),
      Int.natAbs_of_nonneg (not_lt.mp above)] at scale

/-- Digits that begin with one other than zero. -/
structure AreLeading (ds : List Char) : Prop where
  nonempty : ds ≠ []
  digits : ∀ c ∈ ds, c.isDigit = true
  head : ds.head? ≠ some '0'

theorem areLeading_dropTrailingZeros {n : ℕ} (hn : 0 < n) :
    AreLeading (dropTrailingZeros (Nat.toDigits 10 n)) := by
  obtain ⟨k, split⟩ := exists_dropTrailingZeros (Nat.toDigits 10 n)
  have some : dropTrailingZeros (Nat.toDigits 10 n) ≠ [] := by
    intro none
    have value : Nat.ofDigitChars 10 (Nat.toDigits 10 n) 0 = n := Nat.ofDigitChars_ten_toDigits
    rw [split, none, List.nil_append, ofDigitChars_zeros] at value
    omega
  have head := head_toDigits hn
  rw [split, List.head?_append_of_ne_nil _ some] at head
  refine ⟨some, fun c hc => ?_, head⟩
  have listed : c ∈ Nat.toDigits 10 n := by
    rw [split]
    exact List.mem_append_left _ hc
  exact Nat.isDigit_of_mem_toDigits (by decide) (by decide) listed

/-- The value of digits whose first counts a power of ten. -/
def placed (ds : List Char) (power : Int) : ℚ :=
  Nat.ofDigitChars 10 ds 0 * 10 ^ (power + 1 - ds.length)

section

variable {ds : List Char} (leading : AreLeading ds)

include leading

theorem placePoint_form (power : Int) : ∃ gs es, placePoint ds (power + 1) = gs ++ '.' :: es ∧
    (gs ≠ [] ∧ ∀ c ∈ gs, c.isDigit = true) ∧ (es ≠ [] ∧ ∀ c ∈ es, c.isDigit = true) ∧
    (gs.head? = some '0' → gs = ['0']) ∧
    (Nat.ofDigitChars 10 (gs ++ es) 0 : ℚ) * 10 ^ (-(es.length : ℤ)) = placed ds power := by
  have lead := leading.nonempty
  have digits := leading.digits
  have ten : (10 : ℚ) ≠ 0 := by norm_num
  unfold placePoint placed
  split
  next small =>
    refine ⟨['0'], zeros (-(power + 1)).toNat ++ ds, rfl, by simp, ⟨by simp [lead], ?_⟩,
      fun _ => rfl, ?_⟩
    · exact List.forall_mem_append.mpr ⟨fun c => isDigit_of_mem_zeros, digits⟩
    · rw [show ['0'] ++ (zeros (-(power + 1)).toNat ++ ds) = zeros 1 ++ (zeros _ ++ ds) from rfl,
        ofDigitChars_zeros_append, ofDigitChars_zeros_append, zeros, List.length_append,
        List.length_replicate]
      congr 2
      omega
  next large =>
    dsimp only
    split
    next short =>
      refine ⟨ds ++ zeros ((power + 1).toNat - ds.length), ['0'], rfl, ⟨by simp [lead], ?_⟩,
        by simp, ?_, ?_⟩
      · exact List.forall_mem_append.mpr ⟨digits, fun c => isDigit_of_mem_zeros⟩
      · rw [List.head?_append_of_ne_nil _ lead]
        exact fun zero => absurd zero leading.head
      · have power_eq : power + 1 - ds.length =
            (((power + 1).toNat - ds.length + 1 : ℕ) : ℤ) + -(1 : ℕ) := by omega
        have zero :
            Nat.ofDigitChars 10 (ds ++ zeros ((power + 1).toNat - ds.length) ++ ['0']) 0 = _ :=
          ofDigitChars_append_zeros _ 1
        rw [zero, ofDigitChars_append_zeros, power_eq, zpow_add₀ ten, zpow_natCast,
          List.length_singleton]
        push_cast
        ring
    next long =>
      obtain ⟨n, hn⟩ : ∃ n, (power + 1).toNat = n + 1 := ⟨(power + 1).toNat - 1, by omega⟩
      have whole : ds.take (power + 1).toNat ≠ [] := by simp [hn, lead]
      have rest : ds.drop (power + 1).toNat ≠ [] := by simpa using long
      refine ⟨ds.take (power + 1).toNat, ds.drop (power + 1).toNat, rfl,
        ⟨whole, fun c hc => digits c (List.mem_of_mem_take hc)⟩,
        ⟨rest, fun c hc => digits c (List.mem_of_mem_drop hc)⟩, ?_, ?_⟩
      · rw [hn, List.head?_take, if_neg (Nat.succ_ne_zero n)]
        exact fun zero => absurd zero leading.head
      · rw [List.take_append_drop, List.length_drop]
        congr 2
        omega

/-- Digits are laid out as a numeral of their value. -/
theorem exists_isNumeral_layout (layout : DecimalLayout) {ss : List Char} {negative : Bool}
    (sign : IsSign ss negative) (power : Int) : ∃ coef exp,
    IsNumeral (ss ++ layout.chars ds power) (.double (.ofDecimal negative coef exp)) ∧
      (coef : ℚ) * 10 ^ exp = placed ds power := by
  unfold DecimalLayout.chars
  split
  next =>
    obtain ⟨gs, es, form, ⟨whole, front⟩, ⟨rest, back⟩, unpadded, value⟩ :=
      placePoint_form leading power
    have numeral := IsNumeral.double sign (isGrouped_self whole front) unpadded
      (.some (isGrouped_self rest back)) .none (Or.inl (List.cons_ne_nil _ _))
    rw [List.append_nil, zero_sub, ← form] at numeral
    exact ⟨_, _, numeral, value⟩
  next =>
    have scale := isPower_exponentChars layout.exponentWidth power
    have marked : exponentChars layout.exponentWidth power ≠ [] := List.cons_ne_nil _ _
    generalize exponentChars layout.exponentWidth power = ps at scale marked
    cases ds with
    | nil => exact absurd rfl leading.nonempty
    | cons d ds =>
      obtain ⟨digit, rest⟩ := List.forall_mem_cons.mp leading.digits
      have unpadded : [d].head? = some '0' → [d] = ['0'] := fun zero => absurd zero leading.head
      cases ds with
      | nil =>
        have numeral := IsNumeral.double sign (.last digit) unpadded .none scale (Or.inr marked)
        refine ⟨_, _, numeral, ?_⟩
        rw [placed, List.append_nil]
        simp
      | cons e ds =>
        have fraction := IsFraction.some (isGrouped_self (List.cons_ne_nil e ds) rest)
        have numeral := IsNumeral.double sign (.last digit) unpadded fraction scale (Or.inr marked)
        refine ⟨_, _, numeral, ?_⟩
        rw [placed, List.singleton_append]
        congr 2
        simp only [List.length_cons]
        omega

end

namespace Binary64

theorem shortest_coef_pos {m : ℕ} (hm : 0 < m) (e : ℤ) : 0 < (shortest m e).coef := by
  unfold shortest
  dsimp only
  split
  next d found =>
    obtain ⟨n, -, hn⟩ := List.exists_of_findSome?_eq_some found
    have read := of_nearestOnGrid? hn
    refine Nat.pos_of_ne_zero fun zero => ?_
    rw [zero, ofDecimal_eq, if_pos (Or.inl rfl)] at read
    injection read
    omega
  next => exact hm

variable {negative : Bool} {m : ℕ} {e : ℤ}

/-- A double is written as a numeral of the fewest digits found for it. -/
theorem exists_isNumeral_text (negative : Bool) (hm : 0 < m) (e : ℤ) : ∃ coef exp,
    IsNumeral (finite negative m e).text.toList (.double (ofDecimal negative coef exp)) ∧
      (coef : ℚ) * 10 ^ exp = (shortest m e).coef * 10 ^ (shortest m e).exp := by
  have sign : IsSign (if negative then ['-'] else []) negative := by
    cases negative with
    | true => exact .minus
    | false => exact .none
  have hc := shortest_coef_pos hm e
  obtain ⟨k, split⟩ := exists_dropTrailingZeros (Nat.toDigits 10 (shortest m e).coef)
  obtain ⟨coef, exp, numeral, value⟩ := exists_isNumeral_layout (areLeading_dropTrailingZeros hc)
    documentLayout sign ((shortest m e).exp + (Nat.toDigits 10 (shortest m e).coef).length - 1)
  refine ⟨coef, exp, ?_, value.trans ?_⟩
  · rwa [text, String.toList_ofList, chars, magnitudeChars, if_neg hm.ne']
  · have coef : (shortest m e).coef =
        10 ^ k *
          Nat.ofDigitChars 10 (dropTrailingZeros (Nat.toDigits 10 (shortest m e).coef)) 0 := by
      conv_lhs =>
        rw [← Nat.ofDigitChars_ten_toDigits (n := (shortest m e).coef), split,
          ofDigitChars_append_zeros]
    have length : ((Nat.toDigits 10 (shortest m e).coef).length : ℤ) =
        (dropTrailingZeros (Nat.toDigits 10 (shortest m e).coef)).length + k := by
      conv_lhs => rw [split, List.length_append, zeros, List.length_replicate, Nat.cast_add]
    rw [placed, length]
    generalize dropTrailingZeros (Nat.toDigits 10 (shortest m e).coef) = ds at coef ⊢
    have power : (shortest m e).exp + (ds.length + k) - 1 + 1 - ds.length =
        (k : ℤ) + (shortest m e).exp := by ring
    rw [coef, power, zpow_add₀ (by norm_num), zpow_natCast]
    push_cast
    ring

theorem isNumeral_text_zero (negative : Bool) (e : ℤ) :
    IsNumeral (finite negative 0 e).text.toList (.double (finite negative 0 (-1074))) := by
  have zero {ss : List Char} (sign : IsSign ss negative) :
      IsNumeral (ss ++ ['0', '.', '0']) (.double (finite negative 0 (-1074))) :=
    .double sign (.last rfl) (fun _ => rfl) (.some (.last rfl)) .none
      (Or.inl (List.cons_ne_nil _ _))
  rw [text, String.toList_ofList]
  cases negative with
  | true => exact zero .minus
  | false => exact zero .none

/-- A double is written as a numeral that stands for it. -/
theorem isNumeral_text (double : (finite negative m e).IsDouble) :
    IsNumeral (finite negative m e).text.toList (.double (finite negative m e)) := by
  rcases Nat.eq_zero_or_pos m with rfl | hm
  · have least : e = -1074 := double.2.2.2.resolve_left (by norm_num)
    rw [least]
    exact isNumeral_text_zero negative (-1074)
  · obtain ⟨coef, exp, numeral, value⟩ := exists_isNumeral_text negative hm e
    have read := ofDecimal_shortest (show (finite false m e).IsDouble from double) hm
    have signed : ofDecimal negative (shortest m e).coef (shortest m e).exp =
        finite negative m e := by
      cases negative with
      | false => exact read
      | true => rw [← neg_ofDecimal, read, neg_finite, Bool.not_false]
    rwa [ofDecimal_congr negative value, signed] at numeral

end Binary64

end Gatehouse
