import CacheAside.Json.Reader
import CacheAside.Json.Writer
import Mathlib.Tactic

/-! # Strings read back

A character is written as itself, as a letter after a backslash, or as one or two units of sixteen bits.
`units` are the units it is read as; put together again they give the character, because a character is
never a surrogate. Only a surrogate without its partner is lost in reading. -/

namespace CacheAside.Json
set_option autoImplicit false

/-! ## Units -/

/-- The units of sixteen bits that a character is written with, or its own number. -/
def units (c : Char) : List ℕ :=
  if c.toNat < 0x10000 then [c.toNat]
  else [0xD800 + (c.toNat - 0x10000) / 1024, 0xDC00 + (c.toNat - 0x10000) % 1024]

theorem toNat_valid (c : Char) : c.toNat < 0xD800 ∨ 0xDFFF < c.toNat ∧ c.toNat < 0x110000 := c.valid

theorem charOf_toNat (c : Char) : charOf c.toNat = c := by
  have hvalid := toNat_valid c
  have hhigh : isHigh c.toNat = false := by
    rw [isHigh, decide_eq_false_iff_not]
    omega
  have hlow : isLow c.toNat = false := by
    rw [isLow, decide_eq_false_iff_not]
    omega
  rw [charOf, hhigh, hlow]
  simp

/-- A character that needs no pair stands for itself, whatever follows. -/
theorem pairUnits_cons {c : Char} (us : List ℕ) :
    pairUnits (c.toNat :: us) = c :: pairUnits us := by
  have hvalid := toNat_valid c
  have hhigh : isHigh c.toNat = false := by
    rw [isHigh, decide_eq_false_iff_not]
    omega
  cases us with
  | nil => exact congrArg ([·]) (charOf_toNat c)
  | cons v us => rw [pairUnits, hhigh, if_neg (by simp), charOf_toNat]

theorem pairUnits_append (c : Char) (us : List ℕ) : pairUnits (units c ++ us) = c :: pairUnits us := by
  rw [units]
  split
  · exact pairUnits_cons us
  · rename_i h
    have hvalid := toNat_valid c
    set n := c.toNat - 0x10000 with hn
    have hhigh : isHigh (0xD800 + n / 1024) = true := by
      rw [isHigh, decide_eq_true_eq]
      omega
    have hlow : isLow (0xDC00 + n % 1024) = true := by
      rw [isLow, decide_eq_true_eq]
      omega
    have hback : 0x10000 + (0xD800 + n / 1024 - 0xD800) * 1024 + (0xDC00 + n % 1024 - 0xDC00) = c.toNat := by
      omega
    rw [List.cons_append, List.cons_append, List.nil_append, pairUnits, if_pos ⟨hhigh, hlow⟩, hback,
      Char.ofNat_toNat]

theorem pairUnits_flatMap (cs : List Char) : pairUnits (cs.flatMap units) = cs := by
  induction cs with
  | nil => rfl
  | cons c cs ih => rw [List.flatMap_cons, pairUnits_append, ih]

/-! ## Halves of characters -/

/-- Whether some unit is a surrogate without its partner. -/
def hasHalf : List ℕ → Bool
  | [] => false
  | [u] => isHigh u || isLow u
  | u :: v :: us => if isHigh u ∧ isLow v then hasHalf us else isHigh u || isLow u || hasHalf (v :: us)

/-- The units that the characters and the escapes of a text stand for. -/
def unitsOf : List Char → List ℕ
  | [] => []
  | '\\' :: 'u' :: a :: b :: c :: d :: rest => (unit a b c d).getD 0 :: unitsOf rest
  | '\\' :: c :: rest => ((unescape c).getD c).toNat :: unitsOf rest
  | c :: rest => c.toNat :: unitsOf rest

/-- A text in which no escape stands for half a character. -/
def IsWhole (s : String) : Prop := hasHalf (unitsOf s.toList) = false

instance (s : String) : Decidable (IsWhole s) := inferInstanceAs (Decidable (_ = _))

theorem toNat_ofNat {u : ℕ} (h : u.isValidChar) : (Char.ofNat u).toNat = u := by
  rw [Char.ofNat, dif_pos h]
  rfl

theorem units_charOf {u : ℕ} (hhigh : isHigh u = false) (hlow : isLow u = false) (hu : u < 0x10000) :
    units (charOf u) = [u] := by
  have hvalid : u.isValidChar := by
    rw [isHigh, decide_eq_false_iff_not] at hhigh
    rw [isLow, decide_eq_false_iff_not] at hlow
    rw [Nat.isValidChar]
    omega
  have hchar : (charOf u).toNat = u := by
    rw [charOf, hhigh, hlow, if_neg (by simp), toNat_ofNat hvalid]
  rw [units, hchar, if_pos hu]

/-- Units among which no half stands alone are read without loss. -/
theorem flatMap_units_pairUnits : ∀ {us : List ℕ}, hasHalf us = false → (∀ u ∈ us, u < 0x10000) →
    (pairUnits us).flatMap units = us
  | [], _, _ => rfl
  | [u], hwhole, hsmall => by
    obtain ⟨hhigh, hlow⟩ := Bool.or_eq_false_iff.1 hwhole
    rw [pairUnits, List.flatMap_singleton, units_charOf hhigh hlow (hsmall u (by simp))]
  | u :: v :: us, hwhole, hsmall => by
    by_cases hpair : isHigh u ∧ isLow v
    · have hu := hpair.1
      have hv := hpair.2
      rw [isHigh, decide_eq_true_eq] at hu
      rw [isLow, decide_eq_true_eq] at hv
      have hrest : (pairUnits us).flatMap units = us :=
        flatMap_units_pairUnits (by rwa [hasHalf, if_pos hpair] at hwhole) fun x hx => hsmall x (by simp [hx])
      have hvalid : (0x10000 + (u - 0xD800) * 1024 + (v - 0xDC00)).isValidChar := by
        rw [Nat.isValidChar]
        omega
      have hunits : units (Char.ofNat (0x10000 + (u - 0xD800) * 1024 + (v - 0xDC00))) = [u, v] := by
        have hleft : 0xD800 + (0x10000 + (u - 0xD800) * 1024 + (v - 0xDC00) - 0x10000) / 1024 = u := by omega
        have hright : 0xDC00 + (0x10000 + (u - 0xD800) * 1024 + (v - 0xDC00) - 0x10000) % 1024 = v := by omega
        rw [units, toNat_ofNat hvalid, if_neg (by omega), hleft, hright]
      rw [pairUnits, if_pos hpair, List.flatMap_cons, hunits, hrest]
      rfl
    · rw [hasHalf, if_neg hpair, Bool.or_eq_false_iff, Bool.or_eq_false_iff] at hwhole
      obtain ⟨⟨hhigh, hlow⟩, hwhole⟩ := hwhole
      rw [pairUnits, if_neg hpair, List.flatMap_cons, units_charOf hhigh hlow (hsmall u (by simp)),
        flatMap_units_pairUnits hwhole fun x hx => hsmall x (List.mem_cons_of_mem _ hx)]
      rfl

/-! ## Escapes -/

theorem hexValue_hexDigit : ∀ n < 16, hexValue (hexDigit n) = some n := by decide

theorem unit_hexDigits {u : ℕ} (hu : u < 0x10000) :
    unit (hexDigit (u / 4096 % 16)) (hexDigit (u / 256 % 16)) (hexDigit (u / 16 % 16)) (hexDigit (u % 16)) =
      some u := by
  simp only [unit, hexValue_hexDigit _ (Nat.mod_lt _ (by norm_num : 0 < 16)), Option.bind_eq_bind,
    Option.bind_some, Option.pure_def]
  congr 1
  omega

/-- What is read from text that begins with these units. -/
def prepend (us : List ℕ) : Reading (List ℕ) → Reading (List ℕ)
  | .error e => .error e
  | .ok (vs, rest) => .ok (us ++ vs, rest)

theorem readUnits_escapeUnit {u : ℕ} (hu : u < 0x10000) (cs : List Char) :
    readUnits (escapeUnit u ++ cs) = prepend [u] (readUnits cs) := by
  rw [escapeUnit]
  simp only [List.cons_append, List.nil_append, readUnits, unit_hexDigits hu]
  cases readUnits cs <;> rfl

theorem readUnits_letter {l c : Char} (hl : l ≠ 'u') (hc : unescape l = some c) (cs : List Char) :
    readUnits ('\\' :: l :: cs) = prepend [c.toNat] (readUnits cs) := by
  rw [readUnits, hc]
  · cases readUnits cs <;> rfl
  · intro _ _ _ _ _ h
    exact absurd h hl

theorem readUnits_plain {c : Char} (hquote : c ≠ '"') (hslash : c ≠ '\\') (hlow : 0x20 ≤ c.toNat)
    (cs : List Char) : readUnits (c :: cs) = prepend [c.toNat] (readUnits cs) := by
  rw [readUnits, if_neg (by simp [hslash]; omega)]
  · cases readUnits cs <;> rfl
  · exact hquote
  · intro _ _ _ _ _ h
    exact absurd h hslash
  · intro _ _ h
    exact absurd h hslash

theorem readUnits_escape (c : Char) (cs : List Char) :
    readUnits (escape c ++ cs) = prepend (units c) (readUnits cs) := by
  have hunits : c.toNat < 0x10000 → units c = [c.toNat] := fun h => if_pos h
  have hletter : ∀ l d, c = d → l ≠ 'u' → unescape l = some d → d.toNat < 0x10000 →
      readUnits (['\\', l] ++ cs) = prepend (units c) (readUnits cs) := by
    intro l d h hl hd hsmall
    subst h
    rw [hunits hsmall]
    exact readUnits_letter hl hd cs
  unfold escape
  iterate 7
    split
    · exact hletter _ _ ‹_› (by decide) (by decide) (by decide)
  split
  · rename_i hquote hslash _ _ _ _ _ h
    rw [hunits (by omega)]
    exact readUnits_plain hquote hslash h.1 cs
  split
  · rename_i h
    rw [hunits h]
    exact readUnits_escapeUnit h cs
  · rename_i h
    have hvalid := toNat_valid c
    have hpair : units c = [0xD800 + (c.toNat - 0x10000) / 1024, 0xDC00 + (c.toNat - 0x10000) % 1024] :=
      if_neg h
    rw [hpair, List.append_assoc, readUnits_escapeUnit (by omega), readUnits_escapeUnit (by omega)]
    cases readUnits cs <;> rfl

theorem readUnits_flatMap (cs rest : List Char) :
    readUnits (cs.flatMap escape ++ '"' :: rest) = .ok (cs.flatMap units, rest) := by
  induction cs with
  | nil => rw [List.flatMap_nil, List.nil_append, readUnits]; rfl
  | cons c cs ih =>
    rw [List.flatMap_cons, List.append_assoc, readUnits_escape, ih]
    rfl

/-- A string is read back from its text between quotes. -/
theorem readString_write (s : String) (rest : List Char) :
    readString (s.toList.flatMap escape ++ '"' :: rest) = .ok (s, rest) := by
  simp only [readString, readUnits_flatMap, pairUnits_flatMap, String.ofList_toList]

end CacheAside.Json
