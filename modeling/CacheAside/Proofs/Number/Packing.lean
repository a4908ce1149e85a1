import Mathlib
import CacheAside.Number.Notation

/-! # Doubles as bits

The bits of a double are three fields: a sign, eleven bits of exponent and fifty-two bits of mantissa. What they
say is `ofFields` of these numbers. Unpacking the bits and packing them again gives them back (`pack_unpack`), so
a double is determined by its `content`, and `Decimal.parts` are the mantissa and the exponent of it. -/

namespace CacheAside.Packing
set_option autoImplicit false
open Float.Model Float.Model.UnpackedFloat

theorem toNat_unpackMantissa (b : BitVec Format.binary64.numBits) :
    (unpackMantissa b).toNat = b.toNat % 2 ^ 52 := by
  simp [unpackMantissa]

theorem toNat_unpackExponent (b : BitVec Format.binary64.numBits) :
    (unpackExponent b).toNat = b.toNat / 2 ^ 52 % 2 ^ 11 := by
  simp [unpackExponent, Nat.shiftRight_eq_div_pow]

theorem toNat_unpackSign (b : BitVec Format.binary64.numBits) :
    (unpackSign b).toNat = b.toNat / 2 ^ 63 := by
  simp [unpackSign, Nat.shiftRight_eq_div_pow]
  have := b.isLt
  simp [Format.numBits] at this
  omega

theorem toNat_packComponents (s : Sign) (e : BitVec 11) (m : BitVec 52) :
    (packComponents Format.binary64 s e m).toNat = s.toBitVec.toNat * 2 ^ 63 + e.toNat * 2 ^ 52 + m.toNat := by
  rw [packComponents, BitVec.toNat_append, BitVec.toNat_append]
  rw [← Nat.shiftLeft_add_eq_or_of_lt m.isLt, ← Nat.shiftLeft_add_eq_or_of_lt e.isLt]
  simp only [Nat.shiftLeft_eq]
  ring

theorem toBitVec_ofBitVec (b : BitVec 1) : (Sign.ofBitVec b).toBitVec = b := by
  revert b
  decide

theorem ofBitVec_toBitVec (s : Sign) : Sign.ofBitVec s.toBitVec = s := by cases s <;> rfl

/-- The three fields are all of the bits. -/
theorem packComponents_unpack (b : BitVec Format.binary64.numBits) :
    packComponents Format.binary64 (Sign.ofBitVec (unpackSign b)) (unpackExponent b)
      (unpackMantissa b) = b := by
  apply BitVec.eq_of_toNat_eq
  have hlt : b.toNat < 2 ^ 64 := b.isLt
  rw [toNat_packComponents, toBitVec_ofBitVec, toNat_unpackSign, toNat_unpackExponent,
    toNat_unpackMantissa]
  omega

theorem toNat_implicit (m : BitVec 52) : (1#1 ++ m).toNat = 2 ^ 52 + m.toNat := by
  rw [BitVec.toNat_append, ← Nat.shiftLeft_add_eq_or_of_lt m.isLt]
  simp [Nat.shiftLeft_eq]

/-- The number with this exponent field and this mantissa field. -/
def ofFields (s : Sign) (e m : ℕ) : UnpackedFloat :=
  if e = 2047 then if m = 0 then .infinity s else .notANumber
  else if e = 0 then if h : m = 0 then .zero s else .finite s m (-1074) (Nat.pos_of_ne_zero h)
  else .finite s (2 ^ 52 + m) ((e : ℤ) - 1075) (by positivity)

theorem unpack_eq_ofFields (b : BitVec Format.binary64.numBits) :
    unpack Format.binary64 b = ofFields (Sign.ofBitVec (unpackSign b)) (unpackExponent b).toNat
      (unpackMantissa b).toNat := by
  have hones : unpackExponent b = -1#_ ↔ (unpackExponent b).toNat = 2047 := by
    rw [← BitVec.toNat_inj]
    rfl
  have hexp : unpackExponent b = 0#_ ↔ (unpackExponent b).toNat = 0 := by
    rw [← BitVec.toNat_inj]
    rfl
  have hman : unpackMantissa b = 0#_ ↔ (unpackMantissa b).toNat = 0 := by
    rw [← BitVec.toNat_inj]
    rfl
  unfold UnpackedFloat.unpack ofFields
  simp only [hones, hexp, hman]
  split
  · rfl
  · split
    · rename_i h
      simp only [h]
      split <;> rfl
    · simp only [toNat_implicit]
      rfl

theorem pack_subnormal (s : Sign) {m : ℕ} (hm : 0 < m) (hlt : m < 2 ^ 52) :
    UnpackedFloat.pack Format.binary64 (.finite s m (-1074) hm)
      = packComponents Format.binary64 s (0#11) (BitVec.ofNat _ m) := by
  have hlog : m.log2 < 52 := (Nat.log2_lt hm.ne').2 hlt
  have h₁ : ¬ 2 ^ Format.binary64.exponentBits
      ≤ ((-1074 : ℤ) + Format.binary64.exponentBias + Format.binary64.mantissaBitsWithoutImplicit).toNat + 1 := by
    decide
  have h₂ : ¬ m.log2 + 1 = Format.binary64.mantissaBits := by
    simp only [Format.mantissaBits]
    omega
  rw [UnpackedFloat.pack]
  simp only [h₁, h₂, if_false]

theorem pack_normal (s : Sign) {e m : ℕ} (hlt : e < 2047) (hm : m < 2 ^ 52)
    (hpos : 0 < 2 ^ 52 + m) :
    UnpackedFloat.pack Format.binary64 (.finite s (2 ^ 52 + m) ((e : ℤ) - 1075) hpos)
      = packComponents Format.binary64 s (BitVec.ofNat _ e) (BitVec.ofNat _ m) := by
  have hlog : (2 ^ 52 + m).log2 = 52 := by
    rw [Nat.log2_eq_iff hpos.ne']
    omega
  have hbiased : ((e : ℤ) - 1075 + Format.binary64.exponentBias
      + Format.binary64.mantissaBitsWithoutImplicit).toNat = e := by
    simp only [Format.exponentBias]
    omega
  have h₁ : ¬ 2 ^ Format.binary64.exponentBits ≤ e + 1 := by
    norm_num
    omega
  have h₂ : (2 ^ 52 + m).log2 + 1 = Format.binary64.mantissaBits := by
    rw [hlog]
    rfl
  rw [UnpackedFloat.pack]
  simp only [hbiased, h₁, h₂, if_false, if_true]
  congr 1
  apply BitVec.eq_of_toNat_eq
  simp

theorem pack_ofFields (s : Sign) (e : BitVec 11) (m : BitVec 52) (h : e.toNat = 2047 → m.toNat = 0) :
    UnpackedFloat.pack Format.binary64 (ofFields s e.toNat m.toNat)
      = packComponents Format.binary64 s e m := by
  have he : e.toNat < 2048 := e.isLt
  by_cases h₁ : e.toNat = 2047
  · have he' : e = -1#_ := BitVec.eq_of_toNat_eq h₁
    have hm' : m = 0 := BitVec.eq_of_toNat_eq (h h₁)
    rw [ofFields, if_pos h₁, if_pos (h h₁), he', hm']
    rfl
  rw [ofFields, if_neg h₁]
  by_cases h₀ : e.toNat = 0
  · have he' : e = 0 := BitVec.eq_of_toNat_eq h₀
    rw [if_pos h₀]
    split
    · rename_i hm
      have hm' : m = 0 := BitVec.eq_of_toNat_eq hm
      rw [he', hm']
      rfl
    · rw [pack_subnormal s _ m.isLt, he', BitVec.ofNat_toNat, BitVec.setWidth_eq]
      rfl
  · rw [if_neg h₀, pack_normal s (by omega) m.isLt]
    simp

/-- Packing undoes unpacking. -/
theorem pack_unpack {b : BitVec Format.binary64.numBits} (hb : Format.binary64.Valid b) :
    UnpackedFloat.pack Format.binary64 (UnpackedFloat.unpack Format.binary64 b) = b := by
  rw [unpack_eq_ofFields]
  by_cases h : (unpackExponent b).toNat = 2047 ∧ (unpackMantissa b).toNat ≠ 0
  · rw [ofFields, if_pos h.1, if_neg h.2]
    have hexp : unpackExponent b = -1#_ := BitVec.eq_of_toNat_eq h.1
    have hman : unpackMantissa b ≠ 0#_ := by
      intro h'
      exact h.2 (by rw [h']; rfl)
    exact (hb.eq_packedNaN hexp hman).symm
  · rw [pack_ofFields _ _ _ (by tauto), packComponents_unpack]

theorem unpackSign_packComponents (s : Sign) (e : BitVec 11) (m : BitVec 52) :
    unpackSign (packComponents Format.binary64 s e m) = s.toBitVec := by
  apply BitVec.eq_of_toNat_eq
  rw [toNat_unpackSign, toNat_packComponents]
  have he := e.isLt
  have hm := m.isLt
  omega

theorem unpack_pack_ofFields (s : Sign) (e : BitVec 11) (m : BitVec 52)
    (h : e.toNat = 2047 → m.toNat = 0) :
    UnpackedFloat.unpack Format.binary64
      (UnpackedFloat.pack Format.binary64 (ofFields s e.toNat m.toNat)) = ofFields s e.toNat m.toNat := by
  rw [pack_ofFields s e m h, unpack_eq_ofFields, unpackExponent_packComponents,
    unpackMantissa_packComponents, unpackSign_packComponents, ofBitVec_toBitVec]

/-! ## Doubles -/

/-- What a double is. -/
def content (x : Float) : UnpackedFloat := x.toModel.unpack

theorem pack_content (x : Float) : Float.ofModel (Float.Model.pack (content x)) = x := by
  obtain ⟨⟨bits, hvalid⟩⟩ := x
  simp only [content, Float.Model.unpack, Float.Model.pack, pack_unpack hvalid]

/-- A double is determined by what it is. -/
theorem eq_of_content_eq {x y : Float} (h : content x = content y) : x = y := by
  rw [← pack_content x, ← pack_content y, h]

def signOf (x : Float) : Sign := if Number.isNegative x then .negative else .positive

theorem content_eq_ofFields (x : Float) :
    content x = ofFields (signOf x) (x.toBits.toNat / 2 ^ 52 % 2 ^ 11) (x.toBits.toNat % 2 ^ 52) := by
  have hsign : Sign.ofBitVec (@unpackSign Format.binary64 x.toModel.toBits.toBitVec) = signOf x := by
    have hlt : x.toBits.toNat < 2 ^ 64 := x.toBits.toBitVec.isLt
    have hbit : (@unpackSign Format.binary64 x.toModel.toBits.toBitVec).toNat
        = x.toBits.toNat / 2 ^ 63 := toNat_unpackSign _
    have hzero : @unpackSign Format.binary64 x.toModel.toBits.toBitVec = 0#1
        ↔ ¬ 2 ^ 63 ≤ x.toBits.toNat := by
      rw [← BitVec.toNat_inj, hbit]
      simp only [BitVec.toNat_ofNat]
      omega
    simp only [Sign.ofBitVec, hzero, signOf, Number.isNegative, Nat.pow_eq, decide_eq_true_eq, ite_not]
  rw [content, Float.Model.unpack, unpack_eq_ofFields, toNat_unpackExponent, toNat_unpackMantissa, hsign]
  rfl

theorem parts_of_content {x : Float} {s : Sign} {m : ℕ} {e : ℤ} {hm : 0 < m}
    (h : content x = .finite s m e hm) : Decimal.parts x = (m, e) := by
  rw [content_eq_ofFields] at h
  unfold ofFields at h
  simp only [Decimal.parts, Nat.pow_eq]
  split at h
  · split at h <;> cases h
  · split at h
    · rename_i h₀
      rw [if_pos h₀]
      split at h
      · cases h
      · cases h
        rfl
    · rename_i h₀
      rw [if_neg h₀]
      cases h
      rw [Nat.add_comm]

theorem unpack_pack_of_lt (s : Sign) {e m : ℕ} (he : e < 2 ^ 11) (hm : m < 2 ^ 52) :
    UnpackedFloat.unpack Format.binary64
      (UnpackedFloat.pack Format.binary64 (ofFields s e m)) = ofFields s e m := by
  by_cases h : e = 2047 → m = 0
  · have hfields := unpack_pack_ofFields s (BitVec.ofNat 11 e) (BitVec.ofNat 52 m)
    simp only [BitVec.toNat_ofNat, Nat.mod_eq_of_lt he, Nat.mod_eq_of_lt hm] at hfields
    exact hfields h
  · push Not at h
    rw [ofFields, if_pos h.1, if_neg h.2]
    rfl

theorem content_ofModel_pack (s : Sign) {e m : ℕ} (he : e < 2 ^ 11) (hm : m < 2 ^ 52) :
    content (.ofModel (Float.Model.pack (ofFields s e m))) = ofFields s e m :=
  unpack_pack_of_lt s he hm

theorem neg_ofFields (s : Sign) (e m : ℕ) : (ofFields s e m).neg = ofFields (-s) e m := by
  unfold ofFields
  split
  · split <;> rfl
  · split
    · split <;> rfl
    · rfl

theorem abs_ofFields (s : Sign) (e m : ℕ) : (ofFields s e m).abs = ofFields .positive e m := by
  unfold ofFields
  split
  · split <;> rfl
  · split
    · split <;> rfl
    · rfl

theorem content_neg (x : Float) : content (-x) = (content x).neg := by
  have hbits : x.toBits.toNat / 2 ^ 52 % 2 ^ 11 < 2 ^ 11 := Nat.mod_lt _ (by positivity)
  have hman : x.toBits.toNat % 2 ^ 52 < 2 ^ 52 := Nat.mod_lt _ (by positivity)
  change content (.ofModel (Float.Model.pack (content x).neg)) = _
  rw [content_eq_ofFields x, neg_ofFields, content_ofModel_pack _ hbits hman]

theorem content_abs (x : Float) : content x.abs = (content x).abs := by
  have hbits : x.toBits.toNat / 2 ^ 52 % 2 ^ 11 < 2 ^ 11 := Nat.mod_lt _ (by positivity)
  have hman : x.toBits.toNat % 2 ^ 52 < 2 ^ 52 := Nat.mod_lt _ (by positivity)
  change content (.ofModel (Float.Model.pack (content x).abs)) = _
  rw [content_eq_ofFields x, abs_ofFields, content_ofModel_pack _ hbits hman]

end CacheAside.Packing
