import CacheAside.Proofs.Number.Nearest

/-! # What a decimal is read as

A decimal is read as the double nearest to its value, far exponents included, so each decimal with the very
value of a double is read back to it (`toFloat_of_value`). The decimal that a double is written with is either a
candidate that was tried or its very value; so it reads back to the double (`toFloat_shortest`). -/

namespace CacheAside.Decimal
set_option autoImplicit false
open Rounding Packing
open Float.Model Float.Model.UnpackedFloat

def value (d : Decimal) : ℚ := d.digits * 10 ^ d.exponent

/-! ## Digits -/

theorem width_le_iff {n k : ℕ} (hk : 0 < k) : width n ≤ k ↔ n < 10 ^ k :=
  Nat.length_toDigits_le_iff (by norm_num) hk

theorem width_pos (n : ℕ) : 0 < width n := Nat.length_toDigits_pos

theorem lt_pow_width (n : ℕ) : n < 10 ^ width n := (width_le_iff (width_pos n)).1 le_rfl

theorem pow_le_of_width {n : ℕ} (hn : 0 < n) : 10 ^ (width n - 1) ≤ n := by
  by_contra h
  rcases Nat.eq_zero_or_pos (width n - 1) with h₀ | h₀
  · rw [h₀] at h
    omega
  · have hle := (width_le_iff h₀).2 (not_le.1 h)
    have := width_pos n
    omega

theorem width_mul_ten {n : ℕ} (hn : 0 < n) : width (n * 10) = width n + 1 := by
  have hiff : ∀ k, 0 < k → (width (n * 10) ≤ k + 1 ↔ width n ≤ k) := by
    intro k hk
    rw [width_le_iff hk, width_le_iff (by omega), pow_succ]
    omega
  have h₁ := (hiff (width n) (width_pos n)).2 le_rfl
  have h₂ : 1 < width (n * 10) := by
    by_contra h
    have := (width_le_iff one_pos).1 (not_lt.1 h)
    omega
  have h₃ := (hiff (width (n * 10) - 1) (by omega)).1 (by omega)
  omega

theorem width_le_log2 {n : ℕ} (hn : 0 < n) : width n ≤ n.log2 + 1 := by
  have h : 2 ^ (width n - 1) ≤ n := by
    refine le_trans ?_ (pow_le_of_width hn)
    exact Nat.pow_le_pow_left (by norm_num) _
  have := (Nat.le_log2 hn.ne').2 h
  omega

/-! ## Reading -/

theorem toFloat_eq_rounded {d : Decimal} (hd : 0 < d.digits) (hlow : -330 ≤ (width d.digits : ℤ) + d.exponent)
    (hhigh : (width d.digits : ℤ) + d.exponent ≤ 310) : d.toFloat = rounded d.value := by
  have hwidth := width_le_log2 hd
  have hpos := width_pos d.digits
  rw [toFloat, if_neg hd.ne']
  simp only [not_lt.2 hlow, not_lt.2 hhigh, if_false]
  rw [ofScientific_eq_rounded hd _ (by omega) (by intro h; simp at h; omega), value]
  congr 3
  simp only [decide_eq_true_eq]
  split <;> omega

/-- Reading depends on the number alone: a zero at the end can be left out. -/
theorem toFloat_mul_ten (n : ℕ) (e : ℤ) : toFloat ⟨n * 10, e⟩ = toFloat ⟨n, e + 1⟩ := by
  rcases Nat.eq_zero_or_pos n with rfl | hn
  · rfl
  have hmag : (width (n * 10) : ℤ) + e = width n + (e + 1) := by
    rw [width_mul_ten hn]
    push_cast
    ring
  by_cases hhigh : (width n : ℤ) + (e + 1) > 310
  · simp only [toFloat, hmag, hhigh, if_true, hn.ne', mul_eq_zero, or_false, OfNat.ofNat_ne_zero]
  by_cases hlow : (width n : ℤ) + (e + 1) < -330
  · simp only [toFloat, hmag, hhigh, hlow, if_true, hn.ne', mul_eq_zero, or_false, OfNat.ofNat_ne_zero]
  rw [toFloat_eq_rounded (by simpa using hn) (by simp only [hmag]; omega) (by simp only [hmag]; omega),
    toFloat_eq_rounded hn (by simp only; omega) (by simp only; omega)]
  simp only [value]
  congr 1
  rw [zpow_add₀ (by norm_num)]
  push_cast
  ring


/-- What a finite double holds is in its own form. -/
theorem canonical_of_content {x : Float} {s : Sign} {m : ℕ} {e : ℤ} {hm : 0 < m}
    (h : content x = .finite s m e hm) :
    m < 2 ^ 53 ∧ -1074 ≤ e ∧ e ≤ 971 ∧ Format.binary64.targetExponent (totalExponent m e) = e := by
  have hexp : x.toBits.toNat / 2 ^ 52 % 2 ^ 11 < 2 ^ 11 := Nat.mod_lt _ (by positivity)
  have hman : x.toBits.toNat % 2 ^ 52 < 2 ^ 52 := Nat.mod_lt _ (by positivity)
  rw [content_eq_ofFields] at h
  generalize x.toBits.toNat / 2 ^ 52 % 2 ^ 11 = i at h hexp
  generalize x.toBits.toNat % 2 ^ 52 = j at h hman
  unfold ofFields at h
  split at h
  · split at h <;> cases h
  · split at h
    · split at h
      · cases h
      · rename_i hj
        cases h
        have hlog : m.log2 < 52 := (Nat.log2_lt hj).2 hman
        refine ⟨by omega, le_rfl, by omega, ?_⟩
        simp only [totalExponent, Format.targetExponent, Format.mantissaBits, Format.minExponent]
        norm_num
        omega
    · cases h
      have hlog : (2 ^ 52 + j).log2 = 52 := by
        rw [Nat.log2_eq_iff hm.ne']
        omega
      refine ⟨by omega, by omega, by omega, ?_⟩
      simp only [totalExponent, hlog, Format.targetExponent, Format.mantissaBits, Format.minExponent]
      norm_num
      omega

/-- A double is read back from each decimal of its own value. -/
theorem toFloat_of_value {x : Float} {m : ℕ} {e : ℤ} {hm : 0 < m}
    (h : content x = .finite .positive m e hm) {d : Decimal} (hd : d.value = m * 2 ^ e) :
    d.toFloat = x := by
  obtain ⟨hlt, hlow, hhigh, htarget⟩ := canonical_of_content h
  have hq : (0 : ℚ) < d.value := by
    rw [hd]
    positivity
  have hdigits : 0 < d.digits := by
    by_contra h₀
    rw [value, Nat.eq_zero_of_not_pos h₀] at hq
    simp at hq
  have hten : (0 : ℚ) < 10 ^ d.exponent := by positivity
  have hbelow : (2 : ℚ) ^ (-1074 : ℤ) ≤ d.value := by
    have hm' : (1 : ℚ) ≤ m := by exact_mod_cast hm
    rw [hd]
    calc (2 : ℚ) ^ (-1074 : ℤ) ≤ 2 ^ e := zpow_le_zpow_right₀ one_le_two hlow
      _ ≤ m * 2 ^ e := le_mul_of_one_le_left (by positivity) hm'
  have habove : d.value < (2 : ℚ) ^ (1024 : ℤ) := by
    have hm' : (m : ℚ) < 2 ^ (53 : ℤ) := by exact_mod_cast hlt
    rw [hd]
    calc (m : ℚ) * 2 ^ e < 2 ^ (53 : ℤ) * 2 ^ e := by gcongr
      _ = 2 ^ (53 + e) := (zpow_add₀ two_ne_zero _ _).symm
      _ ≤ 2 ^ (1024 : ℤ) := zpow_le_zpow_right₀ one_le_two (by omega)
  have hwidth := width_pos d.digits
  -- the digits stand between two neighbouring powers of ten
  have hupper : d.value < (10 : ℚ) ^ ((width d.digits : ℤ) + d.exponent) := by
    have hlt' : (d.digits : ℚ) < 10 ^ width d.digits := by exact_mod_cast lt_pow_width d.digits
    rw [value, zpow_add₀ (by norm_num), zpow_natCast]
    gcongr
  have hlower : (10 : ℚ) ^ ((width d.digits : ℤ) - 1 + d.exponent) ≤ d.value := by
    have hle' : ((10 : ℕ) ^ (width d.digits - 1) : ℕ) ≤ (d.digits : ℚ) := by
      exact_mod_cast pow_le_of_width hdigits
    rw [value, zpow_add₀ (by norm_num), show (width d.digits : ℤ) - 1 = (width d.digits - 1 : ℕ) by omega,
      zpow_natCast]
    push_cast at hle'
    gcongr
  have h₁ : -330 < (width d.digits : ℤ) + d.exponent := by
    have hten : (10 : ℚ) ^ (-330 : ℤ) < 2 ^ (-1074 : ℤ) := by
      have h : (2 : ℕ) ^ 1074 < 10 ^ 330 := by decide +kernel
      rw [zpow_neg, zpow_neg]
      exact inv_strictAnti₀ (by positivity) (by exact_mod_cast h)
    exact (zpow_lt_zpow_iff_right₀ (by norm_num : (1 : ℚ) < 10)).1
      (hten.trans (hbelow.trans_lt hupper))
  have h₂ : (width d.digits : ℤ) - 1 + d.exponent < 309 := by
    have hten : (2 : ℚ) ^ (1024 : ℤ) < 10 ^ (309 : ℤ) := by
      have h : (2 : ℕ) ^ 1024 < 10 ^ 309 := by decide +kernel
      exact_mod_cast h
    exact (zpow_lt_zpow_iff_right₀ (by norm_num : (1 : ℚ) < 10)).1
      (hlower.trans_lt (habove.trans hten))
  rw [toFloat_eq_rounded hdigits h₁.le (by omega), hd, rounded, nearest_canonical .positive hm htarget,
    ← h, pack_content]

/-! ## The shortest decimal -/

theorem toFloat_strip (fuel : ℕ) (d : Decimal) : (strip fuel d).toFloat = d.toFloat := by
  induction fuel generalizing d with
  | zero => rfl
  | succ fuel ih =>
    rw [strip]
    split
    · rename_i h
      have hten := toFloat_mul_ten (d.digits / 10) d.exponent
      rw [Nat.div_mul_cancel (Nat.dvd_of_mod_eq_zero h.2)] at hten
      rw [ih, ← hten]
    · rfl

theorem value_exact (m : ℕ) (e : ℤ) :
    (exact (fraction m e).1 (fraction m e).2).value = m * 2 ^ e := by
  have hlog : (2 ^ (-e).toNat).log2 = (-e).toNat := Nat.log2_two_pow
  simp only [exact, fraction, value, Nat.pow_eq, hlog]
  have hten : (5 : ℚ) ^ (-e).toNat * 10 ^ (-((-e).toNat : ℤ)) = 2 ^ (-((-e).toNat : ℤ)) := by
    rw [zpow_neg, zpow_neg, zpow_natCast, zpow_natCast, show (10 : ℚ) = 5 * 2 by norm_num, mul_pow]
    field_simp
  have htwo : (2 : ℚ) ^ e.toNat * 2 ^ (-((-e).toNat : ℤ)) = 2 ^ e := by
    rw [← zpow_natCast, ← zpow_add₀ two_ne_zero]
    congr 1
    omega
  push_cast
  rw [mul_assoc, hten, mul_assoc, htwo]

/-- The decimal that a positive double is written with reads back to it. -/
theorem toFloat_shortest {x : Float} {m : ℕ} {e : ℤ} {hm : 0 < m}
    (h : content x = .finite .positive m e hm) : (shortest x).toFloat = x := by
  simp only [shortest, parts_of_content h]
  split
  · rename_i d hd
    have hfound := List.find?_some hd
    rw [toFloat_strip]
    exact of_decide_eq_true hfound
  · exact toFloat_of_value h (value_exact m e)

end CacheAside.Decimal
