import Mathlib

/-! # Rounding positive numbers

`extended x` is what is kept of `x` when its digits behind the point are dropped: enough to round it
and to go on dropping. Every way to compute with doubles ends in `roundWithAccuracy`; whatever mantissa
and exponent it starts from, what it gives depends on the exact number alone (`roundWithAccuracy_eq`),
and a number that needs no rounding comes out as it is (`nearest_canonical`). -/

namespace CacheAside.Rounding
set_option autoImplicit false
open Float.Model Float.Model.UnpackedFloat

/-! ## What is kept of a number -/

def extended (x : ℚ) : ExtendedMantissa :=
  ⟨⌊x⌋₊, decide (1 / 2 ≤ Int.fract x), decide (Int.fract x ≠ 0 ∧ Int.fract x ≠ 1 / 2)⟩

theorem extended_add (k : ℕ) {r : ℚ} (h₀ : 0 ≤ r) (h₁ : r < 1) :
    extended (k + r) = ⟨k, decide (1 / 2 ≤ r), decide (r ≠ 0 ∧ r ≠ 1 / 2)⟩ := by
  have hfloor : ⌊(k : ℚ) + r⌋₊ = k := by
    rw [Nat.floor_eq_iff (by positivity)]
    constructor <;> linarith
  have hfract : Int.fract ((k : ℚ) + r) = r := by
    rw [Int.fract_natCast_add, Int.fract_eq_self]
    exact ⟨h₀, h₁⟩
  rw [extended, hfloor, hfract]

theorem exists_add {x : ℚ} (hx : 0 ≤ x) : ∃ (k : ℕ) (r : ℚ), x = k + r ∧ 0 ≤ r ∧ r < 1 := by
  refine ⟨⌊x⌋₊, x - ⌊x⌋₊, by ring, ?_, ?_⟩
  · linarith [Nat.floor_le hx]
  · linarith [Nat.lt_floor_add_one x]

theorem extended_natCast (k : ℕ) :
    extended k = ExtendedMantissa.ofMantissaAndAccuracy k .exact := by
  have h := extended_add k (le_refl 0) zero_lt_one
  rw [add_zero] at h
  rw [h]
  simp [ExtendedMantissa.ofMantissaAndAccuracy]

/-- A quotient of naturals keeps its whole part and how the remainder compares with half the divisor. -/
theorem extended_div (n : ℕ) {d : ℕ} (hd : 0 < d) :
    extended (n / d) =
      ExtendedMantissa.ofMantissaAndAccuracy (n / d) (accuracyOfFraction (n % d) d) := by
  have hd' : (0 : ℚ) < d := by exact_mod_cast hd
  have hlt : n % d < d := Nat.mod_lt n hd
  have hsplit : (n : ℚ) / d = (n / d : ℕ) + ((n % d : ℕ) : ℚ) / d := by
    rw [eq_comm, ← sub_eq_zero]
    field_simp
    have h := Nat.div_add_mod n d
    have h' : (d : ℚ) * (n / d : ℕ) + (n % d : ℕ) = n := by exact_mod_cast h
    linarith
  have h₁ : ((n % d : ℕ) : ℚ) / d < 1 := by
    rw [div_lt_one hd']
    exact_mod_cast hlt
  rw [hsplit, extended_add _ (by positivity) h₁]
  generalize n % d = r at hlt
  have hhalf : (1 / 2 ≤ (r : ℚ) / d) ↔ d ≤ 2 * r := by
    rw [le_div_iff₀ hd']
    constructor
    · intro h
      have : (d : ℚ) ≤ 2 * r := by linarith
      exact_mod_cast this
    · intro h
      have : (d : ℚ) ≤ 2 * r := by exact_mod_cast h
      linarith
  have heq : ((r : ℚ) / d = 1 / 2) ↔ d = 2 * r := by
    rw [div_eq_div_iff hd'.ne' two_ne_zero]
    constructor
    · intro h
      have : (d : ℚ) = 2 * r := by linarith
      exact_mod_cast this
    · intro h
      have : (d : ℚ) = 2 * r := by exact_mod_cast h
      linarith
  have hzero : ((r : ℚ) / d = 0) ↔ r = 0 := by
    rw [div_eq_zero_iff]
    simp [hd.ne']
  simp only [hhalf, ne_eq, heq, hzero, accuracyOfFraction]
  by_cases hr : r = 0
  · subst hr
    simp [ExtendedMantissa.ofMantissaAndAccuracy, hd.ne']
  · rw [if_neg hr]
    rcases Nat.lt_trichotomy (2 * r) d with h | h | h
    · rw [Nat.compare_eq_lt.2 h]
      simp [ExtendedMantissa.ofMantissaAndAccuracy, hr]
      omega
    · rw [Nat.compare_eq_eq.2 h]
      simp [ExtendedMantissa.ofMantissaAndAccuracy, h]
    · rw [Nat.compare_eq_gt.2 h]
      simp [ExtendedMantissa.ofMantissaAndAccuracy, hr]
      omega

theorem ofMantissaAndAccuracy_mantissa (m : ℕ) (a : Accuracy) :
    (ExtendedMantissa.ofMantissaAndAccuracy m a).mantissa = m := by
  unfold ExtendedMantissa.ofMantissaAndAccuracy
  split <;> rfl

theorem shiftRightOne_extended {x : ℚ} (hx : 0 ≤ x) :
    (extended x).shiftRightOne = extended (x / 2) := by
  obtain ⟨k, r, rfl, h₀, h₁⟩ := exists_add hx
  have hk : (k : ℚ) = 2 * (k / 2 : ℕ) + (k % 2 : ℕ) := by exact_mod_cast (Nat.div_add_mod k 2).symm
  have hsplit : ((k : ℚ) + r) / 2 = (k / 2 : ℕ) + (((k % 2 : ℕ) : ℚ) + r) / 2 := by
    rw [hk]
    ring
  have hsticky : (decide (1 / 2 ≤ r) || decide (r ≠ 0 ∧ r ≠ 1 / 2)) = decide (r ≠ 0) := by
    rw [← Bool.decide_or, decide_eq_decide]
    constructor
    · rintro (h | h)
      · linarith
      · exact h.1
    · intro h
      by_cases h' : r = 1 / 2
      · exact .inl h'.ge
      · exact .inr ⟨h, h'⟩
  rw [hsplit, extended_add k h₀ h₁]
  rcases Nat.mod_two_eq_zero_or_one k with hm | hm
  · have h₂ : ¬ 1 / 2 ≤ r / 2 := by linarith
    have h₃ : r / 2 ≠ 1 / 2 := by linarith
    rw [hm, Nat.cast_zero, zero_add, extended_add _ (by linarith) (by linarith)]
    simp [-one_div, -not_le, -Bool.decide_and, ExtendedMantissa.shiftRightOne, hm, hsticky, h₂, h₃]
  · have h₂ : 1 / 2 ≤ (1 + r) / 2 := by linarith
    have h₃ : (1 + r) / 2 ≠ 0 := by linarith
    have h₄ : (1 + r) / 2 = 1 / 2 ↔ r = 0 := by constructor <;> intro h <;> linarith
    rw [hm, Nat.cast_one, extended_add _ (by linarith) (by linarith)]
    simp [-one_div, -Bool.decide_and, ExtendedMantissa.shiftRightOne, hm, hsticky, h₂, h₃, h₄]

theorem shiftRight_extended {x : ℚ} (hx : 0 ≤ x) (n : ℕ) : extended x >>> n = extended (x / 2 ^ n) := by
  change n.repeat ExtendedMantissa.shiftRightOne (extended x) = _
  induction n with
  | zero => simp [Nat.repeat]
  | succ n ih =>
    rw [Nat.repeat, ih, shiftRightOne_extended (by positivity), div_div, pow_succ]

/-! ## The exponent that a number is rounded at -/

/-- A number has fifty-three binary digits at this exponent, or as many as the least exponent leaves. -/
def scale (q : ℚ) : ℤ := Format.binary64.targetExponent (Int.log 2 q + 1)

theorem scale_eq_max (q : ℚ) : scale q = max (Int.log 2 q - 52) (-1074) := by
  simp only [scale, Format.targetExponent, Format.mantissaBits, Format.minExponent]
  norm_num
  omega

theorem log_eq_of_floor {q : ℚ} (hq : 0 < q) {m : ℕ} (hm : 0 < m) {e : ℤ} (hle : m * 2 ^ e ≤ q)
    (hlt : q < (m + 1) * 2 ^ e) : Int.log 2 q = m.log2 + e := by
  have hlow : (2 : ℚ) ^ ((m.log2 : ℤ) + e) ≤ q := by
    refine le_trans ?_ hle
    rw [zpow_add₀ two_ne_zero, zpow_natCast]
    gcongr
    exact_mod_cast Nat.log2_self_le hm.ne'
  have hhigh : q < (2 : ℚ) ^ ((m.log2 : ℤ) + e + 1) := by
    refine lt_of_lt_of_le hlt ?_
    rw [show (m.log2 : ℤ) + e + 1 = ((m.log2 + 1 : ℕ) : ℤ) + e by push_cast; ring,
      zpow_add₀ two_ne_zero, zpow_natCast]
    gcongr
    exact_mod_cast Nat.lt_log2_self
  have h₁ := (Int.zpow_le_iff_le_log Nat.one_lt_two hq).1 (by exact_mod_cast hlow)
  have h₂ := (Int.lt_zpow_iff_log_lt Nat.one_lt_two hq).1 (by exact_mod_cast hhigh)
  omega

/-- What is left of a number above the exponent that it is rounded at tells that exponent. -/
theorem targetExponent_floor {q : ℚ} (hq : 0 < q) {e : ℤ} (he : e ≤ scale q) :
    Format.binary64.targetExponent (totalExponent ⌊q / 2 ^ e⌋₊ e) = scale q := by
  have h2 : (0 : ℚ) < 2 ^ e := by positivity
  have hlt : q / 2 ^ e < ⌊q / 2 ^ e⌋₊ + 1 := Nat.lt_floor_add_one _
  have hle : (⌊q / 2 ^ e⌋₊ : ℚ) ≤ q / 2 ^ e := Nat.floor_le (by positivity)
  rw [le_div_iff₀ h2] at hle
  rw [div_lt_iff₀ h2] at hlt
  generalize ⌊q / 2 ^ e⌋₊ = m at hlt hle
  rcases Nat.eq_zero_or_pos m with rfl | hm
  · -- nothing is left only below the least exponent
    have hlog : Int.log 2 q < e := by
      rw [← Int.lt_zpow_iff_log_lt Nat.one_lt_two hq]
      rw [Nat.cast_zero, zero_add, one_mul] at hlt
      exact_mod_cast hlt
    rw [scale_eq_max] at he ⊢
    simp only [totalExponent, Format.targetExponent, Format.mantissaBits, Format.minExponent]
    norm_num
    omega
  · rw [scale, log_eq_of_floor hq hm hle hlt, totalExponent]
    congr 1
    omega

/-! ## Rounding -/

/-- A rounded mantissa at its exponent; one that has become a digit too long is shortened. -/
def settle (s : Sign) (m : ℕ) (e : ℤ) : UnpackedFloat :=
  let shifted := shiftToTargetExponent Format.binary64 m e .exact
  if h : shifted.1.mantissa = 0 then .zero s
  else .finite s shifted.1.mantissa shifted.2 (Nat.pos_of_ne_zero h)

/-- The double nearest to a positive number, ties to even. -/
def nearest (s : Sign) (q : ℚ) : UnpackedFloat :=
  settle s (extended (q / 2 ^ scale q)).roundedMantissa (scale q)

/-- The result of rounding depends on the exact number alone, not on the mantissa and the exponent at
which it was kept. -/
theorem roundWithAccuracy_eq (s : Sign) {q : ℚ} (hq : 0 < q) {m : ℕ} {e : ℤ} {a : Accuracy}
    (he : e ≤ scale q) (hkept : ExtendedMantissa.ofMantissaAndAccuracy m a = extended (q / 2 ^ e)) :
    roundWithAccuracy Format.binary64 s m e a = nearest s q := by
  have hm : m = ⌊q / 2 ^ e⌋₊ := by
    have h := congrArg ExtendedMantissa.mantissa hkept
    rwa [extended, ofMantissaAndAccuracy_mantissa] at h
  have htarget : Format.binary64.targetExponent (totalExponent m e) = scale q := by
    rw [hm]
    exact targetExponent_floor hq he
  have hshift : shiftToTargetExponent Format.binary64 m e a
      = (extended (q / 2 ^ scale q), scale q) := by
    simp only [shiftToTargetExponent, shiftToExponent, htarget, hkept]
    rw [shiftRight_extended (by positivity)]
    have hn : ((scale q - e).toNat : ℤ) = scale q - e := Int.toNat_of_nonneg (by omega)
    rw [hn, div_div, ← zpow_natCast, hn, ← zpow_add₀ two_ne_zero]
    simp
  rw [roundWithAccuracy, hshift]
  rfl

theorem scale_mul_zpow {m : ℕ} (hm : 0 < m) (e : ℤ) :
    scale (m * 2 ^ e) = Format.binary64.targetExponent (totalExponent m e) := by
  have hq : (0 : ℚ) < m * 2 ^ e := by positivity
  have hlt : (m : ℚ) * 2 ^ e < (m + 1) * 2 ^ e := by gcongr; linarith
  rw [scale, log_eq_of_floor hq hm le_rfl hlt, totalExponent]
  congr 1
  omega

/-- A number that has its own exponent already is rounded to itself. -/
theorem nearest_canonical (s : Sign) {m : ℕ} (hm : 0 < m) {e : ℤ}
    (he : Format.binary64.targetExponent (totalExponent m e) = e) :
    nearest s (m * 2 ^ e) = .finite s m e hm := by
  have h2 : (2 : ℚ) ^ e ≠ 0 := by positivity
  rw [nearest, scale_mul_zpow hm, he, mul_div_assoc, div_self h2, mul_one, extended_natCast]
  have hround : (ExtendedMantissa.ofMantissaAndAccuracy m .exact).roundedMantissa = m := rfl
  have hshift : shiftToTargetExponent Format.binary64 m e .exact
      = (ExtendedMantissa.ofMantissaAndAccuracy m .exact, e) := by
    simp only [shiftToTargetExponent, shiftToExponent, he, sub_self]
    simp [HShiftRight.hShiftRight, Nat.repeat]
  rw [hround]
  simp only [settle, hshift]
  rw [dif_neg]
  · rfl
  · exact hm.ne'

/-! ## Computing with doubles -/

theorem scale_mono {q r : ℚ} (hq : 0 < q) (h : q ≤ r) : scale q ≤ scale r := by
  have := Int.log_mono_right (b := 2) hq h
  rw [scale_eq_max, scale_eq_max]
  omega

theorem mul_finite (s₁ s₂ : Sign) {m₁ m₂ : ℕ} (h₁ : 0 < m₁) (h₂ : 0 < m₂) {e₁ e₂ : ℤ}
    (he : e₁ + e₂ ≤ scale (m₁ * 2 ^ e₁ * (m₂ * 2 ^ e₂))) :
    mul Format.binary64 (.finite s₁ m₁ e₁ h₁) (.finite s₂ m₂ e₂ h₂)
      = nearest (s₁ * s₂) (m₁ * 2 ^ e₁ * (m₂ * 2 ^ e₂)) := by
  have hq : (0 : ℚ) < m₁ * 2 ^ e₁ * (m₂ * 2 ^ e₂) := by positivity
  refine roundWithAccuracy_eq _ hq he ?_
  rw [← extended_natCast, zpow_add₀ two_ne_zero]
  congr 1
  field_simp
  push_cast
  ring

theorem div_finite (s₁ s₂ : Sign) {m₁ m₂ : ℕ} (h₁ : 0 < m₁) (h₂ : 0 < m₂) (e₁ e₂ : ℤ) :
    div Format.binary64 (.finite s₁ m₁ e₁ h₁) (.finite s₂ m₂ e₂ h₂)
      = nearest (s₁ / s₂) (m₁ * 2 ^ e₁ / (m₂ * 2 ^ e₂)) := by
  have hq : (0 : ℚ) < m₁ * 2 ^ e₁ / (m₂ * 2 ^ e₂) := by positivity
  have hlog : totalExponent m₁ e₁ - totalExponent m₂ e₂
      ≤ Int.log 2 ((m₁ * 2 ^ e₁ : ℚ) / (m₂ * 2 ^ e₂)) + 1 := by
    have hlow : (2 : ℚ) ^ ((m₁.log2 : ℤ) + e₁ - (m₂.log2 + 1 + e₂))
        ≤ m₁ * 2 ^ e₁ / (m₂ * 2 ^ e₂) := by
      rw [zpow_sub₀ two_ne_zero, zpow_add₀ two_ne_zero, zpow_natCast, zpow_add₀ two_ne_zero]
      gcongr
      · exact_mod_cast Nat.log2_self_le h₁.ne'
      · exact_mod_cast Nat.lt_log2_self.le
    have h := (Int.zpow_le_iff_le_log Nat.one_lt_two hq).1 (by exact_mod_cast hlow)
    simp only [totalExponent]
    omega
  set t := Format.binary64.targetExponent (totalExponent m₁ e₁ - totalExponent m₂ e₂) with ht
  have hscale : t ≤ scale (m₁ * 2 ^ e₁ / (m₂ * 2 ^ e₂)) := by
    simp only [ht, scale, Format.targetExponent]
    omega
  refine roundWithAccuracy_eq _ hq (le_trans (min_le_right _ _) hscale) ?_
  rw [← extended_div _ h₂]
  congr 1
  have hshift : ((e₁ - e₂ - min (e₁ - e₂) t).toNat : ℤ) = e₁ - e₂ - min (e₁ - e₂) t :=
    Int.toNat_of_nonneg (by omega)
  rw [Nat.shiftLeft_eq, Nat.cast_mul, Nat.cast_pow, Nat.cast_ofNat, ← zpow_natCast, hshift,
    zpow_sub₀ two_ne_zero, zpow_sub₀ two_ne_zero, ← ht]
  field_simp

/-- A decimal is read as the double nearest to it, unless its exponent is far outside their range. -/
theorem ofScientific_eq {m : ℕ} (hm : 0 < m) {e : ℤ} (hlow : -(2048 + m.log2 : ℤ) ≤ e)
    (hhigh : e ≤ 2048) :
    ofScientific Format.binary64 m e = nearest .positive (m * 10 ^ e) := by
  rw [UnpackedFloat.ofScientific, dif_neg hm.ne', if_neg (by norm_num; omega),
    if_neg (by norm_num; omega)]
  split
  · rename_i h
    obtain ⟨k, rfl⟩ := Int.eq_ofNat_of_zero_le h
    have hvalue : ((m <<< Format.binary64.mantissaBits : ℕ) : ℚ)
        * 2 ^ (-(Format.binary64.mantissaBits : ℤ)) * ((10 ^ k : ℕ) * 2 ^ (0 : ℤ))
        = m * 10 ^ (k : ℤ) := by
      rw [Nat.shiftLeft_eq]
      push_cast
      rw [zpow_neg, zpow_natCast, zpow_natCast]
      field_simp
    have hone : scale 1 ≤ scale (m * 10 ^ (k : ℤ)) := by
      refine scale_mono one_pos ?_
      have h₁ : (1 : ℚ) ≤ m := by exact_mod_cast hm
      have h₂ : (1 : ℚ) ≤ 10 ^ (k : ℤ) := by
        rw [zpow_natCast]
        exact one_le_pow₀ (by norm_num)
      nlinarith
    have hscale : -(Format.binary64.mantissaBits : ℤ) + 0 ≤ scale (m * 10 ^ (k : ℤ)) := by
      refine le_trans ?_ hone
      rw [scale_eq_max, Int.log_one_right]
      decide
    rw [← hvalue] at hscale ⊢
    exact mul_finite .positive .positive _ _ hscale
  · rename_i h
    obtain ⟨k, rfl⟩ : ∃ k : ℕ, e = -k := ⟨(-e).toNat, by omega⟩
    have hvalue : (m : ℚ) * 2 ^ (0 : ℤ) / (((10 ^ k : ℕ) : ℚ) * 2 ^ (0 : ℤ)) = m * 10 ^ (-(k : ℤ)) := by
      rw [zpow_neg, zpow_natCast]
      push_cast
      field_simp
    rw [← hvalue]
    simp only [neg_neg, Int.toNat_natCast]
    exact div_finite .positive .positive _ _ 0 0

end CacheAside.Rounding
