import Gatehouse.Number.Binary64
import Mathlib.Algebra.Order.Field.Power
import Mathlib.Tactic.FieldSimp
import Mathlib.Tactic.Linarith
import Mathlib.Tactic.NormNum.Pow
import Mathlib.Tactic.Positivity
import Mathlib.Tactic.Ring

namespace Gatehouse

theorem pow_toNat_div (b : ℚ) (e : ℤ) : b ^ e.toNat / b ^ (-e).toNat = b ^ e := by
  rcases le_total 0 e with h | h
  · rw [show (-e).toNat = 0 by omega, pow_zero, div_one, ← zpow_natCast, Int.toNat_of_nonneg h]
  · rw [show e.toNat = 0 by omega, pow_zero, one_div, ← zpow_natCast,
      Int.toNat_of_nonneg (by omega), zpow_neg, inv_inv]

/-- Powers with one of two opposite exponents go to the numerator or to the denominator. -/
theorem scaled_ratio {b : ℕ} (hb : b ≠ 0) (num den : ℕ) (e : ℤ) :
    ((num * b ^ (-e).toNat : ℕ) : ℚ) / ((den * b ^ e.toNat : ℕ) : ℚ) = num / den / (b : ℚ) ^ e := by
  have base : (b : ℚ) ≠ 0 := Nat.cast_ne_zero.mpr hb
  rw [← pow_toNat_div b e]
  push_cast
  field_simp

theorem ratio_eq_iff {num den num' den' : ℕ} (hd : 0 < den) (hd' : 0 < den') :
    (num : ℚ) / den = num' / den' ↔ num * den' = num' * den := by
  rw [div_eq_div_iff (by positivity) (by positivity)]
  norm_cast

theorem divNearest_cases (num den : ℕ) :
    (divNearest num den = num / den ∧ 2 * (num % den) ≤ den) ∨
      (divNearest num den = num / den + 1 ∧ den ≤ 2 * (num % den)) := by
  unfold divNearest
  dsimp only
  split
  next low => exact Or.inl ⟨rfl, by omega⟩
  next high => exact Or.inr ⟨rfl, by omega⟩

/-- The rounded quotient is off by a half at most. -/
theorem abs_sub_divNearest (num : ℕ) {den : ℕ} (hd : 0 < den) :
    |(num : ℚ) / den - divNearest num den| ≤ 1 / 2 := by
  have whole : (num : ℚ) = den * (num / den : ℕ) + (num % den : ℕ) := by
    exact_mod_cast (Nat.div_add_mod num den).symm
  have pos : (0 : ℚ) < den := Nat.cast_pos.mpr hd
  have quotient : (num : ℚ) / den = (num / den : ℕ) + (num % den : ℕ) / den := by
    rw [div_eq_iff pos.ne', add_mul, div_mul_cancel₀ _ pos.ne', mul_comm]
    exact whole
  have rest : ((num % den : ℕ) : ℚ) / den < 1 := by
    rw [div_lt_one pos]
    exact_mod_cast Nat.mod_lt num hd
  have nonneg : (0 : ℚ) ≤ ((num % den : ℕ) : ℚ) / den := by positivity
  rcases divNearest_cases num den with ⟨eq, low⟩ | ⟨eq, high⟩
  · have bound : ((num % den : ℕ) : ℚ) / den ≤ 1 / 2 := by
      rw [div_le_div_iff₀ pos two_pos, one_mul, mul_comm]
      exact_mod_cast low
    rw [eq, quotient, abs_le]
    constructor <;> linarith
  · have bound : 1 / 2 ≤ ((num % den : ℕ) : ℚ) / den := by
      rw [div_le_div_iff₀ two_pos pos, one_mul, mul_comm]
      exact_mod_cast high
    rw [eq, quotient, abs_le]
    push_cast
    constructor <;> linarith

theorem divNearest_eq_of_near {num den m : ℕ} (hd : 0 < den)
    (near : |(num : ℚ) / den - m| < 1 / 2) : divNearest num den = m := by
  have rounded := abs_le.mp (abs_sub_divNearest num hd)
  have close := abs_lt.mp near
  have below : (divNearest num den : ℚ) < m + 1 := by linarith
  have above : (m : ℚ) < divNearest num den + 1 := by linarith
  have := Nat.lt_succ_iff.mp (by exact_mod_cast below)
  have := Nat.lt_succ_iff.mp (by exact_mod_cast above)
  omega

theorem divNearest_scale (num den : ℕ) {c : ℕ} (hc : 0 < c) :
    divNearest (num * c) (den * c) = divNearest num den := by
  have double : 2 * (num % den * c) = 2 * (num % den) * c := by rw [Nat.mul_assoc]
  unfold divNearest
  simp only [Nat.mul_div_mul_right _ _ hc, Nat.mul_mod_mul_right, double,
    Nat.mul_lt_mul_right hc, Nat.mul_right_cancel_iff hc]

theorem divNearest_congr {num den num' den' : ℕ} (hd : 0 < den) (hd' : 0 < den')
    (same : (num : ℚ) / den = num' / den') : divNearest num den = divNearest num' den' := by
  rw [← divNearest_scale num den hd', (ratio_eq_iff hd hd').mp same, Nat.mul_comm den den',
    divNearest_scale num' den' hd]

namespace Binary64

/-- The form of the doubles: at most 53 bits, fewer only with the least exponent. -/
def IsDouble : Binary64 → Prop
  | finite _ mant exp => mant < 2 ^ 53 ∧ -1074 ≤ exp ∧ exp ≤ 971 ∧ (2 ^ 52 ≤ mant ∨ exp = -1074)
  | infinite _ => True
  | nan => True

instance : DecidablePred IsDouble
  | finite _ _ _ => inferInstanceAs (Decidable (_ ∧ _ ∧ _ ∧ _))
  | infinite _ => isTrue trivial
  | nan => isTrue trivial

/-- The exponent of the last bit that is kept of a ratio. -/
structure IsLastBit (q : ℚ) (e : ℤ) : Prop where
  least : -1074 ≤ e
  below : q < 2 ^ (e + 53)
  above : e = -1074 ∨ 2 ^ (e + 52) ≤ q

theorem IsLastBit.le {q : ℚ} {e f : ℤ} (he : IsLastBit q e) (hf : IsLastBit q f) : e ≤ f := by
  rcases he.above with rfl | above
  · exact hf.least
  · have powers : (2 : ℚ) ^ (e + 52) < 2 ^ (f + 53) := above.trans_lt hf.below
    have := (zpow_lt_zpow_iff_right₀ (by norm_num)).mp powers
    omega

theorem IsLastBit.unique {q : ℚ} {e f : ℤ} (he : IsLastBit q e) (hf : IsLastBit q f) : e = f :=
  le_antisymm (he.le hf) (hf.le he)

theorem log2_bounds {n : ℕ} (hn : 0 < n) :
    (2 : ℚ) ^ (Nat.log2 n : ℤ) ≤ n ∧ (n : ℚ) < 2 ^ ((Nat.log2 n : ℤ) + 1) := by
  constructor
  · rw [zpow_natCast]
    exact_mod_cast Nat.log2_self_le hn.ne'
  · rw [show (Nat.log2 n : ℤ) + 1 = ((Nat.log2 n + 1 : ℕ) : ℤ) by push_cast; ring, zpow_natCast]
    exact_mod_cast Nat.lt_log2_self

variable {num den : ℕ}

/-- The difference of the binary logarithms is that of the ratio or one more. -/
theorem ratio_log2_bounds (hn : 0 < num) (hd : 0 < den) :
    (2 : ℚ) ^ ((Nat.log2 num : ℤ) - Nat.log2 den - 1) < num / den ∧
      (num : ℚ) / den < 2 ^ ((Nat.log2 num : ℤ) - Nat.log2 den + 1) := by
  have pos : (0 : ℚ) < den := Nat.cast_pos.mpr hd
  obtain ⟨numLow, numHigh⟩ := log2_bounds hn
  obtain ⟨denLow, denHigh⟩ := log2_bounds hd
  rw [lt_div_iff₀ pos, div_lt_iff₀ pos]
  constructor
  · calc (2 : ℚ) ^ ((Nat.log2 num : ℤ) - Nat.log2 den - 1) * den
        < 2 ^ ((Nat.log2 num : ℤ) - Nat.log2 den - 1) * 2 ^ ((Nat.log2 den : ℤ) + 1) := by
          gcongr
      _ = 2 ^ (Nat.log2 num : ℤ) := by
          rw [← zpow_add₀ two_ne_zero]
          congr 1
          ring
      _ ≤ num := numLow
  · calc (num : ℚ) < 2 ^ ((Nat.log2 num : ℤ) + 1) := numHigh
      _ = 2 ^ ((Nat.log2 num : ℤ) - Nat.log2 den + 1) * 2 ^ (Nat.log2 den : ℤ) := by
          rw [← zpow_add₀ two_ne_zero]
          congr 1
          ring
      _ ≤ 2 ^ ((Nat.log2 num : ℤ) - Nat.log2 den + 1) * den := by gcongr

theorem isLastBit_lastBit (hn : 0 < num) (hd : 0 < den) :
    IsLastBit ((num : ℚ) / den) (lastBit num den) := by
  obtain ⟨low, high⟩ := ratio_log2_bounds hn hd
  have pos : (0 : ℚ) < den := Nat.cast_pos.mpr hd
  obtain ⟨guess, hguess⟩ : ∃ guess, guess = (Nat.log2 num : ℤ) - Nat.log2 den - 52 := ⟨_, rfl⟩
  rw [show (Nat.log2 num : ℤ) - Nat.log2 den - 1 = guess - 1 + 52 by omega] at low
  rw [show (Nat.log2 num : ℤ) - Nat.log2 den + 1 = guess + 53 by omega] at high
  have full : den * Nat.pow 2 guess.toNat * Nat.pow 2 52 ≤ num * Nat.pow 2 (-guess).toNat ↔
      (2 : ℚ) ^ (guess + 52) ≤ num / den := by
    have scaled : (0 : ℚ) < ((den * 2 ^ guess.toNat : ℕ) : ℚ) := by positivity
    have ratio := scaled_ratio two_ne_zero num den guess
    rw [Nat.cast_ofNat] at ratio
    rw [zpow_add₀ two_ne_zero, ← le_div_iff₀' (by positivity), ← ratio, le_div_iff₀ scaled]
    simp only [Nat.pow_eq, mul_comm _ (2 ^ 52)]
    norm_cast
  have form : lastBit num den =
      max (if (2 : ℚ) ^ (guess + 52) ≤ num / den then guess else guess - 1) (-1074) := by
    rw [lastBit, ← hguess]
    simp only [full]
  have kept (e : ℤ) (below : (num : ℚ) / den < 2 ^ (e + 53))
      (above : (2 : ℚ) ^ (e + 52) ≤ num / den) : IsLastBit ((num : ℚ) / den) (max e (-1074)) := by
    rcases le_total e (-1074) with small | large
    · rw [max_eq_right small]
      refine ⟨le_rfl, below.trans_le ?_, Or.inl rfl⟩
      exact zpow_le_zpow_right₀ (by norm_num) (by omega)
    · rw [max_eq_left large]
      exact ⟨large, below, Or.inr above⟩
  rw [form]
  split
  next reached => exact kept guess high reached
  next missed =>
    refine kept (guess - 1) ?_ low.le
    rw [show guess - 1 + 53 = guess + 52 by ring]
    exact not_le.mp missed

theorem lastBit_eq {e : ℤ} (hn : 0 < num) (hd : 0 < den) (h : IsLastBit ((num : ℚ) / den) e) :
    lastBit num den = e := (isLastBit_lastBit hn hd).unique h

/-- A mantissa of 54 bits is a power of two, which takes one bit. -/
def carry (mant : ℕ) (exp : ℤ) : ℕ × ℤ :=
  if mant = Nat.pow 2 53 then (Nat.pow 2 52, exp + 1) else (mant, exp)

theorem carry_full (exp : ℤ) : carry (2 ^ 53) exp = (2 ^ 52, exp + 1) := if_pos rfl

theorem carry_of_ne {mant : ℕ} (h : mant ≠ 2 ^ 53) (exp : ℤ) : carry mant exp = (mant, exp) :=
  if_neg h

theorem ofRatio_eq (negative : Bool) (hn : 0 < num) {e : ℤ} (bit : lastBit num den = e) {m : ℕ}
    (mant : divNearest (num * 2 ^ (-e).toNat) (den * 2 ^ e.toNat) = m) :
    ofRatio negative num den = if 971 < (carry m e).2 then .infinite negative
      else .finite negative (carry m e).1 (carry m e).2 := by
  have kept : divNearest (num * Nat.pow 2 (-e).toNat) (den * Nat.pow 2 e.toNat) = m := by
    simpa only [Nat.pow_eq] using mant
  unfold ofRatio
  rw [if_neg hn.ne']
  extract_lets exp mant
  rw [show mant = m by rw [← kept, ← bit], show exp = e from bit]
  rfl

/-- The double of a ratio depends on its value alone. -/
theorem ofRatio_congr (negative : Bool) {num' den' : ℕ} (hd : 0 < den) (hd' : 0 < den')
    (same : (num : ℚ) / den = num' / den') :
    ofRatio negative num den = ofRatio negative num' den' := by
  rcases Nat.eq_zero_or_pos num with rfl | hn
  · have zero : num' = 0 := by simpa [hd.ne', hd'.ne'] using (ratio_eq_iff hd hd').mp same
    rw [zero, ofRatio, ofRatio, if_pos rfl, if_pos rfl]
  · have hn' : 0 < num' := by
      have cross := (ratio_eq_iff hd hd').mp same
      exact Nat.pos_of_mul_pos_right (cross ▸ Nat.mul_pos hn hd')
    have bit : lastBit num' den' = lastBit num den :=
      lastBit_eq hn' hd' (same ▸ isLastBit_lastBit hn hd)
    rw [ofRatio_eq negative hn rfl rfl, ofRatio_eq negative hn' bit rfl]
    rw [divNearest_congr (by positivity) (by positivity)
      ((scaled_ratio two_ne_zero num den _).trans
        ((congrArg (· / _) same).trans (scaled_ratio two_ne_zero num' den' _).symm))]

theorem isDouble_ofRatio (negative : Bool) (num : ℕ) (hd : 0 < den) :
    (ofRatio negative num den).IsDouble := by
  rcases Nat.eq_zero_or_pos num with rfl | hn
  · rw [ofRatio, if_pos rfl]
    exact ⟨by norm_num, le_rfl, by norm_num, Or.inr rfl⟩
  · have bit := isLastBit_lastBit hn hd
    rw [ofRatio_eq negative hn rfl rfl]
    generalize lastBit num den = e at bit
    have positive : (0 : ℚ) < 2 ^ e := by positivity
    have scaled : 0 < den * 2 ^ e.toNat := by positivity
    have near := abs_le.mp (abs_sub_divNearest (num * 2 ^ (-e).toNat) scaled)
    rw [scaled_ratio two_ne_zero, Nat.cast_ofNat] at near
    generalize divNearest (num * 2 ^ (-e).toNat) (den * 2 ^ e.toNat) = m at near
    have high : m ≤ 2 ^ 53 := by
      have below : (num : ℚ) / den / 2 ^ e < 2 ^ 53 := by
        rw [div_lt_iff₀ positive, ← zpow_natCast, ← zpow_add₀ two_ne_zero]
        exact bit.below.trans_eq (by congr 1; push_cast; ring)
      have : (m : ℚ) < ((2 ^ 53 + 1 : ℕ) : ℚ) := by push_cast; linarith
      exact Nat.lt_succ_iff.mp (by exact_mod_cast this)
    have low : e = -1074 ∨ 2 ^ 52 ≤ m := by
      refine bit.above.imp_right fun above => ?_
      have : (2 : ℚ) ^ 52 ≤ num / den / 2 ^ e := by
        rw [le_div_iff₀ positive, ← zpow_natCast, ← zpow_add₀ two_ne_zero]
        exact above.trans_eq' (by congr 1; push_cast; ring)
      have : ((2 ^ 52 : ℕ) : ℚ) < ((m + 1 : ℕ) : ℚ) := by push_cast; linarith
      exact Nat.lt_succ_iff.mp (by exact_mod_cast this)
    have least := bit.least
    split
    next => trivial
    next small =>
      by_cases full : m = 2 ^ 53
      · subst full
        rw [carry_full] at small ⊢
        exact ⟨by norm_num, by dsimp only; omega, not_lt.mp small, Or.inl le_rfl⟩
      · rw [carry_of_ne full] at small ⊢
        exact ⟨by omega, least, not_lt.mp small, low.symm⟩

theorem IsDouble.neg {x : Binary64} (double : x.IsDouble) : x.neg.IsDouble := by
  cases x with
  | finite negative mant exp => exact double
  | infinite negative => trivial
  | nan => trivial

/-- Whatever is added, the sum is rounded. -/
theorem isDouble_add (x y : Binary64) : (x.add y).IsDouble := by
  cases x with
  | nan => trivial
  | infinite a =>
    cases y with
    | nan => trivial
    | finite b n f => trivial
    | infinite b =>
      rw [add]
      split
      next => trivial
      next => trivial
  | finite a m e =>
    cases y with
    | nan => trivial
    | infinite b => trivial
    | finite b n f =>
      have some (k : ℤ) : 0 < denominator k := Nat.pow_pos two_pos
      exact isDouble_ofRatio _ _ (Nat.mul_pos (some e) (some f))

theorem carry_value (mant : ℕ) (exp : ℤ) :
    ((carry mant exp).1 : ℚ) * 2 ^ (carry mant exp).2 = mant * 2 ^ exp := by
  by_cases full : mant = 2 ^ 53
  · subst full
    rw [carry_full, zpow_add₀ two_ne_zero]
    push_cast
    ring
  · rw [carry_of_ne full]

theorem abs_sub_le_of_half {x : ℚ} {k : ℕ} (near : |x - k| ≤ 1 / 2) (j : ℕ) :
    |x - k| ≤ |x - j| := by
  by_cases same : j = k
  · rw [same]
  · have apart : (1 : ℚ) ≤ |(j : ℚ) - k| := by
      have : (1 : ℤ) ≤ |(j : ℤ) - k| := Int.one_le_abs (sub_ne_zero.mpr (by exact_mod_cast same))
      exact_mod_cast this
    have triangle := abs_sub_abs_le_abs_sub ((j : ℚ) - k) (x - k)
    rw [sub_sub_sub_cancel_right, abs_sub_comm (j : ℚ) x] at triangle
    linarith

/-- A double lies on the grid of the last bit that is kept, or on the far side of a point of it. -/
theorem IsLastBit.exists_grid {q : ℚ} {b : ℤ} (bit : IsLastBit q b) {n : ℕ} {f : ℤ}
    (double : (finite false n f).IsDouble) :
    ∃ j : ℕ, |q - j * 2 ^ b| ≤ |q - n * 2 ^ f| := by
  obtain ⟨bits, least, -, -⟩ := double
  rcases le_or_gt b f with above | below
  · have power : (2 : ℚ) ^ f = 2 ^ (f - b).toNat * 2 ^ b := by
      rw [← zpow_natCast, ← zpow_add₀ two_ne_zero, Int.toNat_of_nonneg (by omega), sub_add_cancel]
    refine ⟨n * 2 ^ (f - b).toNat, ?_⟩
    rw [power, ← mul_assoc]
    push_cast
    exact le_rfl
  · have reached : (2 : ℚ) ^ 52 * 2 ^ b ≤ q := by
      have high := bit.above.resolve_left (by omega)
      rwa [show b + 52 = b + (52 : ℕ) from rfl, zpow_add₀ two_ne_zero, zpow_natCast,
        mul_comm] at high
    have top : (n : ℚ) ≤ 2 ^ 53 := by exact_mod_cast bits.le
    have beneath : (n : ℚ) * 2 ^ f ≤ 2 ^ 52 * 2 ^ b := by
      calc (n : ℚ) * 2 ^ f ≤ 2 ^ 53 * 2 ^ (b - 1) :=
            mul_le_mul top (zpow_le_zpow_right₀ (by norm_num) (by omega)) (by positivity)
              (by positivity)
        _ = 2 ^ 52 * 2 ^ b := by
            rw [zpow_sub₀ two_ne_zero]
            ring
    refine ⟨2 ^ 52, ?_⟩
    push_cast
    rw [abs_of_nonneg (by linarith), abs_of_nonneg (by linarith)]
    linarith

/-- No double is nearer to a ratio than the one that it is rounded to. -/
theorem abs_sub_ofRatio_le {m n : ℕ} {e f : ℤ} (hd : 0 < den)
    (rounded : ofRatio false num den = .finite false m e) (double : (finite false n f).IsDouble) :
    |(num : ℚ) / den - m * 2 ^ e| ≤ |(num : ℚ) / den - n * 2 ^ f| := by
  rcases Nat.eq_zero_or_pos num with rfl | hn
  · rw [ofRatio, if_pos rfl] at rounded
    cases rounded
    rw [Nat.cast_zero, zero_div, zero_mul, sub_zero, abs_zero]
    exact abs_nonneg _
  · have bit := isLastBit_lastBit hn hd
    have scaled : 0 < den * 2 ^ (lastBit num den).toNat := by positivity
    have near := abs_sub_divNearest (num * 2 ^ (-lastBit num den).toNat) scaled
    rw [scaled_ratio two_ne_zero, Nat.cast_ofNat] at near
    rw [ofRatio_eq false hn rfl rfl] at rounded
    split at rounded
    next => cases rounded
    next =>
      cases rounded
      rw [carry_value]
      generalize lastBit num den = b at bit near
      generalize divNearest _ _ = k at near
      have positive : (0 : ℚ) < 2 ^ b := by positivity
      have units (j : ℕ) : |(num : ℚ) / den - j * 2 ^ b| =
          |(num : ℚ) / den / 2 ^ b - j| * 2 ^ b := by
        rw [← abs_of_pos positive, ← abs_mul, abs_of_pos positive, sub_mul,
          div_mul_cancel₀ _ positive.ne']
      obtain ⟨j, nearer⟩ := bit.exists_grid double
      refine le_trans ?_ nearer
      rw [units, units]
      exact mul_le_mul_of_nonneg_right (abs_sub_le_of_half near j) positive.le

/-- A ratio is rounded to a double that is closer than a 54th binary place of it. -/
theorem ofRatio_of_near {negative : Bool} {m : ℕ} {e : ℤ}
    (double : (finite negative m e).IsDouble) (hm : 0 < m) (hd : 0 < den)
    (near : |(num : ℚ) / den - m * 2 ^ e| < m * 2 ^ e / 2 ^ 54) :
    ofRatio negative num den = .finite negative m e := by
  obtain ⟨bits, least, most, full⟩ := double
  have positive : (0 : ℚ) < 2 ^ e := by positivity
  have mant : (0 : ℚ) < m := Nat.cast_pos.mpr hm
  have top : (m : ℚ) + 1 ≤ 2 ^ 53 := by exact_mod_cast bits
  have ratio (f : ℤ) := scaled_ratio two_ne_zero num den f
  simp only [Nat.cast_ofNat] at ratio
  -- in units of the last bit of the double
  obtain ⟨x, hx⟩ : ∃ x : ℚ, x = num / den / 2 ^ e := ⟨_, rfl⟩
  have whole : (num : ℚ) / den = x * 2 ^ e := by rw [hx, div_mul_cancel₀ _ positive.ne']
  have close : |x - m| < m / 2 ^ 54 := by
    rw [whole, ← sub_mul, abs_mul, abs_of_pos positive, mul_div_right_comm] at near
    exact lt_of_mul_lt_mul_right near positive.le
  obtain ⟨low, high⟩ := abs_lt.mp close
  have hn : 0 < num := by
    have : (0 : ℚ) < num / den := by
      rw [whole]
      exact mul_pos (by linarith) positive
    exact Nat.cast_pos.mp ((div_pos_iff_of_pos_right (Nat.cast_pos.mpr hd)).mp this)
  have bound (k : ℕ) : (2 : ℚ) ^ (e + k) = 2 ^ k * 2 ^ e := by
    rw [zpow_add₀ two_ne_zero, zpow_natCast, mul_comm]
  by_cases inside : e = -1074 ∨ 2 ^ 52 ≤ x
  · have bit : IsLastBit ((num : ℚ) / den) e := by
      refine ⟨least, ?_, inside.imp_right fun above => ?_⟩
      · rw [whole, show e + 53 = e + (53 : ℕ) from rfl, bound]
        exact mul_lt_mul_of_pos_right (by linarith) positive
      · rw [whole, show e + 52 = e + (52 : ℕ) from rfl, bound]
        exact mul_le_mul_of_nonneg_right above positive.le
    have rounded : divNearest (num * 2 ^ (-e).toNat) (den * 2 ^ e.toNat) = m := by
      refine divNearest_eq_of_near (by positivity) ?_
      rw [ratio, ← hx]
      linarith
    rw [ofRatio_eq negative hn (lastBit_eq hn hd bit) rounded, carry_of_ne bits.ne, if_neg]
    exact not_lt.mpr most
  · -- below a power of two the bits are half as far apart, and rounding up carries
    obtain ⟨above, below⟩ := not_or.mp inside
    have half : (m : ℚ) < ((2 ^ 52 + 1 : ℕ) : ℚ) := by
      push_cast
      linarith
    have power : m = 2 ^ 52 := by
      have : m < 2 ^ 52 + 1 := by exact_mod_cast half
      have := full.resolve_right above
      omega
    subst power
    push_cast at low
    have bit : IsLastBit ((num : ℚ) / den) (e - 1) := by
      refine ⟨by omega, ?_, Or.inr ?_⟩
      · rw [show e - 1 + 53 = e + (52 : ℕ) by push_cast; ring, whole, bound]
        exact mul_lt_mul_of_pos_right (not_le.mp below) positive
      · rw [show e - 1 + 52 = e + (51 : ℕ) by push_cast; ring, whole, bound]
        exact mul_le_mul_of_nonneg_right (by linarith) positive.le
    have rounded : divNearest (num * 2 ^ (-(e - 1)).toNat) (den * 2 ^ (e - 1).toNat) = 2 ^ 53 := by
      refine divNearest_eq_of_near (by positivity) ?_
      rw [ratio, whole, zpow_sub₀ two_ne_zero, zpow_one, div_div_eq_mul_div, mul_assoc,
        mul_comm _ 2, ← mul_assoc, mul_div_cancel_right₀ _ positive.ne', abs_lt]
      push_cast
      constructor <;> linarith
    rw [ofRatio_eq negative hn (lastBit_eq hn hd bit) rounded, carry_full, sub_add_cancel, if_neg]
    exact not_lt.mpr most

end Binary64

end Gatehouse
