import CacheAside.Proofs.Number.Rounding
import CacheAside.Proofs.Number.Packing

/-! # Decimals and the doubles nearest to them

Multiplying and dividing two doubles rounds the exact result once. A decimal with few digits and a small
exponent is made in one such step; every other one is given as many bits as rounding needs. -/

namespace CacheAside.Rounding
set_option autoImplicit false
open Float.Model Float.Model.UnpackedFloat Packing

theorem content_ofBits (c : UInt64) :
    content (Float.ofBits c) = UnpackedFloat.unpack Format.binary64 c.toBitVec := by
  have hbits : (@unpackExponent Format.binary64 c.toBitVec).toNat < 2 ^ 11 := BitVec.isLt _
  have hman : (@unpackMantissa Format.binary64 c.toBitVec).toNat < 2 ^ 52 := BitVec.isLt _
  change content (.ofModel (Float.Model.pack (UnpackedFloat.unpack Format.binary64 c.toBitVec))) = _
  rw [unpack_eq_ofFields, content_ofModel_pack _ hbits hman]

def rounded (q : ℚ) : Float := .ofModel (Float.Model.pack (nearest .positive q))

theorem power_of_bits {c : UInt64} {k : ℕ} (hsign : c.toNat < 2 ^ 63)
    (h₀ : 1023 ≤ c.toNat / 2 ^ 52 % 2 ^ 11) (h₁ : c.toNat / 2 ^ 52 % 2 ^ 11 < 2047)
    (hvalue : (2 ^ 52 + c.toNat % 2 ^ 52) * 2 ^ (c.toNat / 2 ^ 52 % 2 ^ 11 - 1023) = 10 ^ k * 2 ^ 52) :
    ∃ (p : ℕ) (e : ℤ) (hp : 0 < p), content (Float.ofBits c) = .finite .positive p e hp ∧
      (p : ℚ) * 2 ^ e = 10 ^ k := by
  have hsign' : @unpackSign Format.binary64 c.toBitVec = 0#1 := by
    apply BitVec.eq_of_toNat_eq
    rw [toNat_unpackSign]
    exact Nat.div_eq_of_lt hsign
  have hexp : (@unpackExponent Format.binary64 c.toBitVec).toNat = c.toNat / 2 ^ 52 % 2 ^ 11 :=
    toNat_unpackExponent _
  have hman : (@unpackMantissa Format.binary64 c.toBitVec).toNat = c.toNat % 2 ^ 52 :=
    toNat_unpackMantissa _
  obtain ⟨j, hj⟩ : ∃ j, c.toNat / 2 ^ 52 % 2 ^ 11 = 1023 + j := Nat.exists_eq_add_of_le h₀
  rw [hj, Nat.add_sub_cancel_left] at hvalue
  refine ⟨2 ^ 52 + c.toNat % 2 ^ 52, (1023 + j : ℕ) - 1075, by positivity, ?_, ?_⟩
  · rw [content_ofBits, unpack_eq_ofFields, hsign', hexp, hman, hj, ofFields, if_neg (by omega),
      if_neg (by omega)]
    rfl
  · have h : ((2 ^ 52 + c.toNat % 2 ^ 52 : ℕ) : ℚ) * 2 ^ j = 10 ^ k * 2 ^ 52 := by
      exact_mod_cast hvalue
    rw [show ((1023 + j : ℕ) : ℤ) - 1075 = (j : ℤ) - (52 : ℕ) by push_cast; ring,
      zpow_sub₀ two_ne_zero, zpow_natCast, zpow_natCast, mul_div_assoc', h, mul_div_assoc,
      div_self (by positivity), mul_one]

theorem content_power {k : ℕ} (hk : k < Float.exactlyRepresentablePowersOfTen.size) :
    ∃ (p : ℕ) (e : ℤ) (hp : 0 < p),
      content Float.exactlyRepresentablePowersOfTen[k] = .finite .positive p e hp ∧
        (p : ℚ) * 2 ^ e = 10 ^ k := by
  have hk' : k < 23 := hk
  interval_cases k
  all_goals exact power_of_bits (by decide) (by decide) (by decide) (by decide)

theorem round_eq_nearest (s : Sign) {m : ℕ} (hm : 0 < m) (e : ℤ) :
    round Format.binary64 s m e = nearest s (m * 2 ^ e) := by
  have hq : (0 : ℚ) < m * 2 ^ e := by positivity
  simp only [UnpackedFloat.round, decreaseExponent, ← scale_mul_zpow hm]
  set n := (e - scale (m * 2 ^ e)).toNat with hn
  refine roundWithAccuracy_eq s hq (by omega) ?_
  rw [← extended_natCast, Nat.shiftLeft_eq, zpow_sub₀ two_ne_zero, zpow_natCast]
  congr 1
  push_cast
  field_simp

/-- A natural number of at most fifty-three digits is a double. -/
theorem exists_content_toFloat {m : ℕ} (hm : 0 < m) (hlt : m < 2 ^ 53) :
    ∃ (p : ℕ) (e : ℤ) (hp : 0 < p), content m.toUInt64.toFloat = .finite .positive p e hp ∧
      (p : ℚ) * 2 ^ e = m ∧ 2 ^ 52 ≤ p := by
  have hlog : m.log2 < 53 := (Nat.log2_lt hm.ne').2 hlt
  obtain ⟨k, hk⟩ : ∃ k, m.log2 + k = 52 := ⟨52 - m.log2, by omega⟩
  -- the digits moved up to the fifty-third place
  have hlow : 2 ^ 52 ≤ m * 2 ^ k := by
    rw [← hk, Nat.pow_add]
    exact Nat.mul_le_mul_right _ (Nat.log2_self_le hm.ne')
  have hhigh : m * 2 ^ k < 2 ^ 53 := by
    rw [show 53 = m.log2 + 1 + k by omega, Nat.pow_add]
    exact Nat.mul_lt_mul_of_pos_right Nat.lt_log2_self (by positivity)
  have hp : 0 < m * 2 ^ k := by positivity
  have hvalue : ((m * 2 ^ k : ℕ) : ℚ) * 2 ^ (-(k : ℤ)) = m := by
    rw [zpow_neg, zpow_natCast]
    push_cast
    field_simp
  refine ⟨m * 2 ^ k, -k, hp, ?_, hvalue, hlow⟩
  have htarget : Format.binary64.targetExponent (totalExponent (m * 2 ^ k) (-k)) = -k := by
    have hlog' : (m * 2 ^ k).log2 = 52 := by
      rw [Nat.log2_eq_iff hp.ne']
      omega
    simp only [totalExponent, hlog', Format.targetExponent, Format.mantissaBits, Format.minExponent]
    norm_num
    omega
  have hcompare : compare (m : ℤ) 0 = .gt := by
    rw [Int.compare_eq_gt]
    omega
  have hofNat : UnpackedFloat.ofUInt64 Format.binary64 m.toUInt64
      = .finite .positive (m * 2 ^ k) (-k) hp := by
    have htoNat : m.toUInt64.toNat = m := by
      simp
      omega
    rw [UnpackedFloat.ofUInt64, UnpackedFloat.ofNat, UnpackedFloat.ofInt, UnpackedFloat.normalize, htoNat, hcompare]
    change round Format.binary64 .positive m 0 = _
    rw [round_eq_nearest _ hm, zpow_zero, mul_one, ← hvalue, nearest_canonical _ hp htarget]
  have hfields : UnpackedFloat.finite .positive (m * 2 ^ k) (-k) hp
      = ofFields .positive (1075 - k) (m * 2 ^ k - 2 ^ 52) := by
    have h₁ : 2 ^ 52 + (m * 2 ^ k - 2 ^ 52) = m * 2 ^ k := by omega
    have h₂ : ((1075 - k : ℕ) : ℤ) - 1075 = -k := by omega
    simp only [ofFields, show ¬ 1075 - k = 2047 by omega, show ¬ 1075 - k = 0 by omega, if_false,
      h₁, h₂]
  change content (.ofModel (Float.Model.pack (UnpackedFloat.ofUInt64 Format.binary64 m.toUInt64))) = _
  rw [hofNat, hfields, content_ofModel_pack _ (by omega) (by omega)]


theorem le_scale_of_digits {p₁ p₂ : ℕ} (h₁ : 2 ^ 52 ≤ p₁) (h₂ : 0 < p₂) (e₁ e₂ : ℤ) :
    e₁ + e₂ ≤ scale (p₁ * 2 ^ e₁ * (p₂ * 2 ^ e₂)) := by
  have hp : 0 < p₁ := lt_of_lt_of_le (by positivity) h₁
  have hq : (0 : ℚ) < p₁ * 2 ^ e₁ * (p₂ * 2 ^ e₂) := by positivity
  have hlow : (2 : ℚ) ^ ((52 : ℕ) + e₁ + e₂) ≤ p₁ * 2 ^ e₁ * (p₂ * 2 ^ e₂) := by
    have h₁' : (2 : ℚ) ^ 52 ≤ p₁ := by exact_mod_cast h₁
    have h₂' : (1 : ℚ) ≤ p₂ := by exact_mod_cast h₂
    rw [zpow_add₀ two_ne_zero, zpow_add₀ two_ne_zero, zpow_natCast]
    gcongr
    exact le_mul_of_one_le_left (by positivity) h₂'
  have h := (Int.zpow_le_iff_le_log Nat.one_lt_two hq).1 (by exact_mod_cast hlow)
  rw [scale_eq_max]
  omega

theorem ofScientific_eq_rounded {m : ℕ} (hm : 0 < m) (s : Bool) {k : ℕ}
    (hlow : k ≤ 2048 + m.log2) (hhigh : s = false → k ≤ 2048) :
    Float.ofScientific m s k = rounded (m * 10 ^ (if s then -(k : ℤ) else k)) := by
  rw [Float.ofScientific]
  split
  · rename_i h
    have hk : k < Float.exactlyRepresentablePowersOfTen.size := by
      change k < 23
      omega
    obtain ⟨p, e, hp, hcontent, hvalue, hdigits⟩ := exists_content_toFloat hm h.1
    obtain ⟨p', e', hp', hcontent', hvalue'⟩ := content_power hk
    cases s with
    | true =>
      change Float.ofModel (Float.Model.pack (UnpackedFloat.div Format.binary64
        (content m.toUInt64.toFloat) (content Float.exactlyRepresentablePowersOfTen[k]))) = _
      rw [hcontent, hcontent', div_finite, hvalue, hvalue', rounded, if_pos rfl, zpow_neg,
        zpow_natCast, ← div_eq_mul_inv]
      rfl
    | false =>
      change Float.ofModel (Float.Model.pack (UnpackedFloat.mul Format.binary64
        (content m.toUInt64.toFloat) (content Float.exactlyRepresentablePowersOfTen[k]))) = _
      rw [hcontent, hcontent', mul_finite _ _ hp hp' (le_scale_of_digits hdigits hp' e e'), hvalue,
        hvalue', rounded, if_neg (by decide), zpow_natCast]
      rfl
  · change Float.ofModel (Float.Model.pack (UnpackedFloat.ofScientific Format.binary64 m
      (if s = true then Int.negOfNat k else Int.ofNat k))) = _
    cases s with
    | true =>
      have hneg : Int.negOfNat k = -(k : ℤ) := Int.negOfNat_eq
      rw [if_pos rfl, hneg, ofScientific_eq hm (by omega) (by omega)]
      rfl
    | false =>
      have hle := hhigh rfl
      rw [if_neg (by decide), ofScientific_eq hm (by simp; omega) (by simp; omega)]
      rfl

end CacheAside.Rounding
