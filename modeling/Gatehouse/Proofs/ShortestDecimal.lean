import Gatehouse.Number.Shortest
import Gatehouse.Proofs.NearestDouble
import Mathlib.Data.Nat.Digits.Defs

namespace Gatehouse

theorem toDigits_bounds {n : ℕ} (hn : 0 < n) :
    (10 : ℚ) ^ (((Nat.toDigits 10 n).length : ℤ) - 1) ≤ n ∧
      (n : ℚ) < 10 ^ ((Nat.toDigits 10 n).length : ℤ) := by
  obtain ⟨k, hk⟩ : ∃ k, (Nat.toDigits 10 n).length = k + 1 :=
    Nat.exists_eq_add_one.mpr Nat.length_toDigits_pos
  have high : n < 10 ^ (k + 1) :=
    (Nat.length_toDigits_le_iff (by norm_num) (by omega)).mp hk.le
  have low : 10 ^ k ≤ n := by
    rcases Nat.eq_zero_or_pos k with rfl | some
    · exact hn
    · have long : ¬(Nat.toDigits 10 n).length ≤ k := by omega
      exact not_lt.mp (mt (Nat.length_toDigits_le_iff (by norm_num) some).mpr long)
  rw [hk, Nat.cast_add_one, add_sub_cancel_right, ← Nat.cast_add_one, zpow_natCast, zpow_natCast]
  exact ⟨by exact_mod_cast low, by exact_mod_cast high⟩

namespace Binary64

/-- The power of ten above a decimal. -/
def decimalPlaces (coef : ℕ) (exp : ℤ) : ℤ := ((Nat.toDigits 10 coef).length : ℤ) + exp

theorem decimal_bounds {coef : ℕ} (hc : 0 < coef) (exp : ℤ) :
    (10 : ℚ) ^ (decimalPlaces coef exp - 1) ≤ coef * 10 ^ exp ∧
      (coef : ℚ) * 10 ^ exp < 10 ^ decimalPlaces coef exp := by
  obtain ⟨low, high⟩ := toDigits_bounds hc
  have positive : (0 : ℚ) < 10 ^ exp := by positivity
  rw [decimalPlaces, zpow_add₀ (by norm_num), add_sub_right_comm, zpow_add₀ (by norm_num)]
  exact ⟨mul_le_mul_of_nonneg_right low positive.le, mul_lt_mul_of_pos_right high positive⟩

theorem decimal_ratio (coef : ℕ) (exp : ℤ) :
    ((coef * 10 ^ exp.toNat : ℕ) : ℚ) / ((10 ^ (-exp).toNat : ℕ) : ℚ) = coef * 10 ^ exp := by
  rw [← pow_toNat_div 10 exp]
  push_cast
  rw [mul_div_assoc]

theorem ofDecimal_eq (negative : Bool) (coef : ℕ) (exp : ℤ) : ofDecimal negative coef exp =
    if coef = 0 ∨ decimalPlaces coef exp < -330 then .finite negative 0 (-1074)
    else if 310 < decimalPlaces coef exp then .infinite negative
    else ofRatio negative (coef * 10 ^ exp.toNat) (10 ^ (-exp).toNat) := rfl

theorem isDouble_ofDecimal (negative : Bool) (coef : ℕ) (exp : ℤ) :
    (ofDecimal negative coef exp).IsDouble := by
  rw [ofDecimal_eq]
  split
  next => exact ⟨by norm_num, le_rfl, by norm_num, Or.inr rfl⟩
  next =>
    split
    next => trivial
    next => exact isDouble_ofRatio negative _ (by positivity)

/-- The double of a decimal depends on its value alone. -/
theorem ofDecimal_congr (negative : Bool) {coef coef' : ℕ} {exp exp' : ℤ}
    (same : (coef : ℚ) * 10 ^ exp = coef' * 10 ^ exp') :
    ofDecimal negative coef exp = ofDecimal negative coef' exp' := by
  have power (e : ℤ) : (10 : ℚ) ^ e ≠ 0 := by positivity
  have zero : coef = 0 ↔ coef' = 0 := by
    rw [← Nat.cast_eq_zero (R := ℚ), ← mul_eq_zero_iff_right (power exp), same,
      mul_eq_zero_iff_right (power exp'), Nat.cast_eq_zero]
  rcases Nat.eq_zero_or_pos coef with none | hc
  · rw [ofDecimal_eq, ofDecimal_eq, if_pos (Or.inl none), if_pos (Or.inl (zero.mp none))]
  · have hc' : 0 < coef' := Nat.pos_of_ne_zero (mt zero.mpr hc.ne')
    have le {a b : ℕ} {e f : ℤ} (ha : 0 < a) (hb : 0 < b) (same : (a : ℚ) * 10 ^ e = b * 10 ^ f) :
        decimalPlaces a e ≤ decimalPlaces b f := by
      have powers := (decimal_bounds ha e).1.trans_lt (same.trans_lt (decimal_bounds hb f).2)
      have := (zpow_lt_zpow_iff_right₀ (by norm_num)).mp powers
      omega
    have places := le_antisymm (le hc hc' same) (le hc' hc same.symm)
    have ratio := ofRatio_congr negative (by positivity) (by positivity)
      ((decimal_ratio coef exp).trans (same.trans (decimal_ratio coef' exp').symm))
    simp only [ofDecimal_eq, places, ratio, hc.ne', hc'.ne']

theorem half_least : (10 : ℚ) ^ (-330 : ℤ) ≤ 2 ^ (-1074 : ℤ) / 2 := by
  have whole : 2 ^ 1074 * 2 ≤ 10 ^ 330 := by decide +kernel
  have powers : (2 : ℚ) ^ (1074 : ℤ) * 2 ≤ 10 ^ (330 : ℤ) := by exact_mod_cast whole
  rw [zpow_neg, zpow_neg, div_eq_mul_inv, ← mul_inv]
  exact inv_anti₀ (by positivity) powers

theorem most_double : (2 : ℚ) ^ (1024 : ℤ) * 2 ≤ 10 ^ (309 : ℤ) := by
  have whole : 2 ^ 1024 * 2 ≤ 10 ^ 309 := by decide +kernel
  exact_mod_cast whole

theorem value_bounds {m : ℕ} {e : ℤ} (double : (finite false m e).IsDouble) (hm : 0 < m) :
    (2 : ℚ) ^ (-1074 : ℤ) ≤ m * 2 ^ e ∧ (m : ℚ) * 2 ^ e < 2 ^ (1024 : ℤ) := by
  obtain ⟨bits, least, most, -⟩ := double
  have one : (1 : ℚ) ≤ m := by exact_mod_cast hm
  have top : (m : ℚ) < 2 ^ (53 : ℤ) := by exact_mod_cast bits
  constructor
  · calc (2 : ℚ) ^ (-1074 : ℤ) ≤ 2 ^ e := zpow_le_zpow_right₀ (by norm_num) least
      _ ≤ m * 2 ^ e := le_mul_of_one_le_left (by positivity) one
  · calc (m : ℚ) * 2 ^ e < 2 ^ (53 : ℤ) * 2 ^ e := by gcongr
      _ ≤ 2 ^ (53 : ℤ) * 2 ^ (971 : ℤ) := by
          gcongr
          norm_num
      _ = 2 ^ (1024 : ℤ) := by rw [← zpow_add₀ two_ne_zero]; norm_num

/-- No double is nearer to a decimal than the one that it is read as. -/
theorem abs_sub_ofDecimal_le {coef m n : ℕ} {exp e f : ℤ}
    (read : ofDecimal false coef exp = .finite false m e) (double : (finite false n f).IsDouble) :
    |(coef : ℚ) * 10 ^ exp - m * 2 ^ e| ≤ |(coef : ℚ) * 10 ^ exp - n * 2 ^ f| := by
  rw [ofDecimal_eq] at read
  split at read
  next small =>
    cases read
    rw [Nat.cast_zero, zero_mul, sub_zero]
    rcases Nat.eq_zero_or_pos coef with rfl | hc
    · rw [Nat.cast_zero, zero_mul, abs_zero]
      exact abs_nonneg _
    · rcases Nat.eq_zero_or_pos n with rfl | hn
      · rw [Nat.cast_zero, zero_mul, sub_zero]
      · -- half of the least double is still larger
        have tiny : (coef : ℚ) * 10 ^ exp ≤ 10 ^ (-330 : ℤ) :=
          (decimal_bounds hc exp).2.le.trans
            (zpow_le_zpow_right₀ (by norm_num) (small.resolve_left hc.ne').le)
        have half := half_least
        have least := (value_bounds double hn).1
        have nonneg : (0 : ℚ) ≤ coef * 10 ^ exp := by positivity
        rw [abs_of_nonneg nonneg, abs_sub_comm, abs_of_nonneg (by linarith)]
        linarith
  next =>
    split at read
    next => cases read
    next =>
      have nearest := abs_sub_ofRatio_le (by positivity) read double
      rwa [decimal_ratio] at nearest

/-- A decimal is read as a double that is closer than a 54th binary place of it. -/
theorem ofDecimal_of_near {negative : Bool} {m coef : ℕ} {e exp : ℤ}
    (double : (finite negative m e).IsDouble) (hm : 0 < m)
    (near : |(coef : ℚ) * 10 ^ exp - m * 2 ^ e| < m * 2 ^ e / 2 ^ 54) :
    ofDecimal negative coef exp = .finite negative m e := by
  have value := value_bounds (show (finite false m e).IsDouble from double) hm
  obtain ⟨low, high⟩ := abs_lt.mp near
  have positive : (0 : ℚ) < m * 2 ^ e := by positivity
  have small : (m : ℚ) * 2 ^ e / 2 ^ 54 < m * 2 ^ e / 2 :=
    div_lt_div_of_pos_left positive two_pos (by norm_num)
  have some : coef ≠ 0 := by
    rintro rfl
    rw [Nat.cast_zero, zero_mul] at low
    linarith
  obtain ⟨front, back⟩ := decimal_bounds (Nat.pos_of_ne_zero some) exp
  have lower : ¬decimalPlaces coef exp < -330 := by
    have powers : (10 : ℚ) ^ (-330 : ℤ) < 10 ^ decimalPlaces coef exp := by
      calc (10 : ℚ) ^ (-330 : ℤ) ≤ 2 ^ (-1074 : ℤ) / 2 := half_least
        _ ≤ m * 2 ^ e / 2 := by linarith [value.1]
        _ < coef * 10 ^ exp := by linarith
        _ < 10 ^ decimalPlaces coef exp := back
    have := (zpow_lt_zpow_iff_right₀ (by norm_num)).mp powers
    omega
  have upper : ¬310 < decimalPlaces coef exp := by
    have powers : (10 : ℚ) ^ (decimalPlaces coef exp - 1) < 10 ^ (309 : ℤ) := by
      calc (10 : ℚ) ^ (decimalPlaces coef exp - 1) ≤ coef * 10 ^ exp := front
        _ < m * 2 ^ e * 2 := by linarith
        _ < 2 ^ (1024 : ℤ) * 2 := by linarith [value.2]
        _ ≤ 10 ^ (309 : ℤ) := most_double
    have := (zpow_lt_zpow_iff_right₀ (by norm_num)).mp powers
    omega
  rw [ofDecimal_eq, if_neg (not_or.mpr ⟨some, lower⟩), if_neg upper]
  refine ofRatio_of_near double hm (by positivity) ?_
  rwa [decimal_ratio]

/-- A ratio is at least the power of ten of its first digit. -/
theorem pow_decimalMagnitude_le {num den : ℕ} (hn : 0 < num) (hd : 0 < den) :
    (10 : ℚ) ^ (decimalMagnitude num den - 1) ≤ num / den := by
  have pos : (0 : ℚ) < den := Nat.cast_pos.mpr hd
  unfold decimalMagnitude
  split
  next large =>
    have whole : ((num / den : ℕ) : ℚ) ≤ num / den := by
      rw [le_div_iff₀ pos]
      exact_mod_cast Nat.div_mul_le_self num den
    exact (toDigits_bounds (Nat.div_pos large hd)).1.trans whole
  next small =>
    have below : (den : ℚ) < num * 10 ^ ((Nat.toDigits 10 (den / num)).length : ℤ) := by
      have high := (toDigits_bounds (Nat.div_pos (not_le.mp small).le hn)).2
      rw [zpow_natCast] at high ⊢
      have high : den / num < 10 ^ (Nat.toDigits 10 (den / num)).length := by exact_mod_cast high
      rw [Nat.div_lt_iff_lt_mul hn, Nat.mul_comm] at high
      exact_mod_cast high
    have least : 0 < (Nat.toDigits 10 (den / num)).length := Nat.length_toDigits_pos
    dsimp only
    generalize (Nat.toDigits 10 (den / num)).length = d at below least ⊢
    rw [le_div_iff₀ pos]
    split
    next exact_ =>
      have power : (den : ℚ) = num * 10 ^ ((d : ℤ) - 1) := by
        rw [show (d : ℤ) - 1 = ((d - 1 : ℕ) : ℤ) by omega, zpow_natCast]
        exact_mod_cast exact_.symm
      rw [power, mul_comm, mul_assoc, ← zpow_add₀ (by norm_num),
        show (d : ℤ) - 1 + (2 - d - 1) = 0 by ring, zpow_zero, mul_one]
    next =>
      calc (10 : ℚ) ^ (1 - (d : ℤ) - 1) * den
          ≤ 10 ^ (1 - (d : ℤ) - 1) * (num * 10 ^ (d : ℤ)) := by gcongr
        _ = num := by
            rw [mul_comm, mul_assoc, ← zpow_add₀ (by norm_num),
              show (d : ℤ) + (1 - d - 1) = 0 by ring, zpow_zero, mul_one]

theorem numerator_div_denominator (m : ℕ) (e : ℤ) :
    (numerator m e : ℚ) / denominator e = m * 2 ^ e := by
  rw [← pow_toNat_div 2 e, numerator, denominator]
  push_cast [Nat.pow_eq]
  rw [mul_div_assoc]

variable {m : ℕ} {e exp : ℤ}

/-- The multiple of a power of ten next to a double. -/
def onGrid (m : ℕ) (e exp : ℤ) : ℕ :=
  divNearest (numerator m e * 10 ^ (-exp).toNat) (denominator e * 10 ^ exp.toNat)

theorem denominator_pos (e : ℤ) : 0 < denominator e := Nat.pow_pos two_pos

theorem abs_sub_onGrid (m : ℕ) (e exp : ℤ) :
    |(onGrid m e exp : ℚ) * 10 ^ exp - m * 2 ^ e| ≤ 10 ^ exp / 2 := by
  have positive : (0 : ℚ) < 10 ^ exp := by positivity
  have scaled : 0 < denominator e * 10 ^ exp.toNat :=
    Nat.mul_pos (denominator_pos e) (by positivity)
  have half := abs_sub_divNearest (numerator m e * 10 ^ (-exp).toNat) scaled
  rw [scaled_ratio (by norm_num), numerator_div_denominator, abs_sub_comm, ← onGrid,
    Nat.cast_ofNat] at half
  calc |(onGrid m e exp : ℚ) * 10 ^ exp - m * 2 ^ e|
      = |(onGrid m e exp : ℚ) - m * 2 ^ e / 10 ^ exp| * 10 ^ exp := by
        rw [← abs_of_pos positive, ← abs_mul, abs_of_pos positive, sub_mul,
          div_mul_cancel₀ _ positive.ne']
    _ ≤ 1 / 2 * 10 ^ exp := mul_le_mul_of_nonneg_right half positive.le
    _ = 10 ^ exp / 2 := by ring

theorem of_nearestOnGrid? {d : Decimal} (h : nearestOnGrid? m e exp = some d) :
    ofDecimal false d.coef d.exp = .finite false m e := by
  obtain ⟨coef, found, rfl⟩ := Option.map_eq_some_iff.mp h
  simpa using List.find?_some found

/-- A grid has a decimal for the double if the nearest multiple is read as it. -/
theorem isSome_nearestOnGrid? (h : ofDecimal false (onGrid m e exp) exp = .finite false m e) :
    (nearestOnGrid? m e exp).isSome = true := by
  unfold nearestOnGrid?
  extract_lets num den below lowFirst order
  have near : onGrid m e exp ∈ order := by
    have := divNearest_cases num den
    have eq : onGrid m e exp = divNearest num den := rfl
    have either : onGrid m e exp = below ∨ onGrid m e exp = below + 1 := by omega
    simp only [order]
    split <;> simp [either, or_comm]
  rw [Option.isSome_map, List.find?_isSome]
  exact ⟨_, near, by simp [h]⟩

/-- The fewest digits that are found for a double are read as this double. -/
theorem ofDecimal_shortest (double : (finite false m e).IsDouble) (hm : 0 < m) :
    ofDecimal false (shortest m e).coef (shortest m e).exp = .finite false m e := by
  obtain ⟨power, hp⟩ : ∃ power, power = decimalMagnitude (numerator m e) (denominator e) := ⟨_, rfl⟩
  have hn : 0 < numerator m e := Nat.mul_pos hm (Nat.pow_pos two_pos)
  have value := pow_decimalMagnitude_le hn (denominator_pos e)
  rw [numerator_div_denominator, ← hp] at value
  -- seventeen digits are always enough
  have last : ofDecimal false (onGrid m e (power - 1 - (16 : ℕ))) (power - 1 - (16 : ℕ)) =
      .finite false m e := by
    refine ofDecimal_of_near double hm ((abs_sub_onGrid m e _).trans_lt ?_)
    have positive : (0 : ℚ) < 10 ^ (power - 1) := by positivity
    rw [zpow_sub₀ (by norm_num), zpow_natCast]
    calc (10 : ℚ) ^ (power - 1) / 10 ^ 16 / 2 = 10 ^ (power - 1) / (10 ^ 16 * 2) := by ring
      _ < 10 ^ (power - 1) / 2 ^ 54 := div_lt_div_of_pos_left positive (by norm_num) (by norm_num)
      _ ≤ m * 2 ^ e / 2 ^ 54 := by gcongr
  have found : ((List.range 17).findSome? fun (n : ℕ) =>
      nearestOnGrid? m e (power - 1 - n)).isSome = true := by
    rw [List.findSome?_isSome_iff]
    exact ⟨16, by simp, isSome_nearestOnGrid? last⟩
  unfold shortest
  rw [← hp]
  obtain ⟨d, hd⟩ := Option.isSome_iff_exists.mp found
  simp only [hd]
  obtain ⟨n, -, hn⟩ := List.exists_of_findSome?_eq_some hd
  exact of_nearestOnGrid? hn

end Binary64

end Gatehouse
