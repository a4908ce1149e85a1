import CacheAside.Json.Reader
import CacheAside.Json.Writer
import CacheAside.Proofs.Number.Decimal

/-! # Numbers read back

Digits are read up to the first character that is none, so what a number is followed by matters: in a
written text it is the end, a comma or a closing bracket. A double is read from its digits, its point and
its exponent; `Decimal.toFloat_shortest` then gives the double that was written. -/

namespace CacheAside.Json
set_option autoImplicit false
open Packing Float.Model Float.Model.UnpackedFloat

/-! ## What follows a number -/

/-- No digit stands at the front. -/
def NoDigit (cs : List Char) : Prop := ∀ c ∈ cs.head?, isDigit c = false

/-- What stands behind a value in a written text. -/
def Closed (cs : List Char) : Prop := ∀ c ∈ cs.head?, c = ',' ∨ c = ']' ∨ c = '\x7d'

theorem closed_nil : Closed [] := by
  intro c hc
  cases hc

theorem closed_cons {c : Char} {cs : List Char} (h : c = ',' ∨ c = ']' ∨ c = '\x7d') :
    Closed (c :: cs) := by
  intro c' hc
  cases hc
  exact h

theorem Closed.noDigit {cs : List Char} (h : Closed cs) : NoDigit cs := by
  intro c hc
  obtain rfl | rfl | rfl := h c hc <;> decide

theorem readFraction_of_closed {cs : List Char} (h : Closed cs) : readFraction cs = none := by
  cases cs with
  | nil => rfl
  | cons c cs =>
    obtain rfl | rfl | rfl := h c rfl <;> rfl

theorem readExponent_of_closed {cs : List Char} (h : Closed cs) : readExponent cs = none := by
  cases cs with
  | nil => rfl
  | cons c cs =>
    obtain rfl | rfl | rfl := h c rfl <;> rfl

/-! ## Digits -/

theorem isDigit_of_mem_toDigits {n : ℕ} {c : Char} (h : c ∈ Nat.toDigits 10 n) : isDigit c = true := by
  have hc := Nat.isDigit_of_mem_toDigits (by norm_num) (by norm_num) h
  simpa [Char.isDigit, isDigit, Char.le_def] using hc

theorem takeWhile_digits {ds cs : List Char} (hds : ∀ c ∈ ds, isDigit c = true) (hcs : NoDigit cs) :
    (ds ++ cs).takeWhile isDigit = ds := by
  rw [List.takeWhile_append_of_pos hds]
  cases cs with
  | nil => simp
  | cons c cs => simp [hcs c rfl]

theorem dropWhile_digits {ds cs : List Char} (hds : ∀ c ∈ ds, isDigit c = true) (hcs : NoDigit cs) :
    (ds ++ cs).dropWhile isDigit = cs := by
  rw [List.dropWhile_append_of_pos hds]
  cases cs with
  | nil => simp
  | cons c cs => simp [hcs c rfl]

/-- Digits that stand before a point: at least one, and a zero only where it is the only one. -/
structure Whole (ds : List Char) : Prop where
  ne_nil : ds ≠ []
  digits : ∀ c ∈ ds, isDigit c = true
  zero : ds.head? = some '0' → ds = ['0']

theorem isDigit_of_mem_zero : ∀ c ∈ ['0'], isDigit c = true := by
  intro c hc
  rw [List.mem_singleton.1 hc]
  rfl

theorem whole_zero : Whole ['0'] := ⟨List.cons_ne_nil _ _, isDigit_of_mem_zero, fun _ => rfl⟩

theorem head?_toDigits_ne {n : ℕ} (hn : 0 < n) : (Nat.toDigits 10 n).head? ≠ some '0' := by
  induction n using Nat.strong_induction_on with
  | h n ih =>
    rcases lt_or_ge n 10 with h | h
    · rw [Nat.toDigits_of_lt_base h]
      interval_cases n <;> decide
    · rw [Nat.toDigits_of_base_le (by norm_num) h,
        List.head?_append_of_ne_nil _ Nat.toDigits_ne_nil]
      exact ih (n / 10) (by omega) (by omega)

theorem whole_toDigits (n : ℕ) : Whole (Nat.toDigits 10 n) := by
  refine ⟨Nat.toDigits_ne_nil, fun c hc => isDigit_of_mem_toDigits hc, fun h => ?_⟩
  rcases Nat.eq_zero_or_pos n with rfl | hn
  · exact Nat.toDigits_zero 10
  · exact absurd h (head?_toDigits_ne hn)

theorem readWhole_append {ds cs : List Char} (hds : Whole ds) (hcs : NoDigit cs) :
    readWhole (ds ++ cs) = some (ds, cs) := by
  obtain ⟨hne, hdigits, hzero⟩ := hds
  cases ds with
  | nil => exact absurd rfl hne
  | cons c ds =>
    rw [List.cons_append, readWhole]
    by_cases hc : c = '0'
    · obtain rfl : ds = [] := by simpa [hc] using hzero
      simp [hc]
    · have hds : ∀ c ∈ ds, isDigit c = true := fun c hc => hdigits c (List.mem_cons_of_mem _ hc)
      rw [if_neg hc, if_pos (hdigits c List.mem_cons_self), takeWhile_digits hds hcs,
        dropWhile_digits hds hcs]

theorem readFraction_append {ds cs : List Char} (hne : ds ≠ []) (hds : ∀ c ∈ ds, isDigit c = true)
    (hcs : NoDigit cs) : readFraction ('.' :: (ds ++ cs)) = some (ds, cs) := by
  cases ds with
  | nil => exact absurd rfl hne
  | cons c ds =>
    have hds' : ∀ c ∈ ds, isDigit c = true := fun c hc => hds c (List.mem_cons_of_mem _ hc)
    rw [List.cons_append, readFraction, if_pos (hds c List.mem_cons_self), takeWhile_digits hds' hcs,
      dropWhile_digits hds' hcs]

/-! ## Exponents -/

theorem readSigned_append {s : Char} (hs : s = '-' ∨ s = '+') {ds cs : List Char} (hne : ds ≠ [])
    (hds : ∀ c ∈ ds, isDigit c = true) (hcs : NoDigit cs) :
    readSigned (s :: (ds ++ cs)) =
      some (if s = '-' then -(Nat.ofDigitChars 10 ds 0 : ℤ) else Nat.ofDigitChars 10 ds 0, cs) := by
  rw [readSigned]
  simp only [hs, if_true, takeWhile_digits hds hcs, dropWhile_digits hds hcs]
  rw [if_neg (by simpa using hne)]

theorem readExponent_append (e : ℤ) {cs : List Char} (hcs : NoDigit cs) :
    readExponent ('e' :: (Number.exponentText e ++ cs)) = some (e, cs) := by
  set digits := Nat.toDigits 10 e.natAbs with hdigits
  -- a zero in front adds nothing to the value
  obtain ⟨ds, hds, hne, hall, hvalue⟩ : ∃ ds, Number.exponentText e = (if e < 0 then '-' else '+') :: ds ∧
      ds ≠ [] ∧ (∀ c ∈ ds, isDigit c = true) ∧ Nat.ofDigitChars 10 ds 0 = e.natAbs := by
    have hall : ∀ c ∈ digits, isDigit c = true := fun c hc => isDigit_of_mem_toDigits hc
    have hvalue : Nat.ofDigitChars 10 digits 0 = e.natAbs := Nat.ofDigitChars_ten_toDigits
    by_cases h : digits.length < 2
    · refine ⟨'0' :: digits, by simp only [Number.exponentText, ← hdigits, if_pos h], by simp, ?_, ?_⟩
      · intro c hc
        rcases List.mem_cons.1 hc with rfl | hc
        · decide
        · exact hall c hc
      · rw [Nat.ofDigitChars_cons]
        exact hvalue
    · exact ⟨digits, by simp only [Number.exponentText, ← hdigits, if_neg h], Nat.toDigits_ne_nil, hall,
        hvalue⟩
  rw [readExponent, if_pos (.inl rfl), hds, List.cons_append,
    readSigned_append (by split <;> simp) hne hall hcs, hvalue]
  by_cases h : e < 0
  · rw [if_pos h, if_pos rfl]
    congr 2
    omega
  · rw [if_neg h, if_neg (by decide)]
    congr 2
    omega

/-! ## Numbers -/

/-- A sign, where there is one. -/
def minus (negative : Bool) : List Char := if negative then ['-'] else []

theorem noDigit_point (cs : List Char) : NoDigit ('.' :: cs) := by
  intro c hc
  cases hc
  decide

theorem noDigit_mark (cs : List Char) : NoDigit ('e' :: cs) := by
  intro c hc
  cases hc
  decide

theorem head?_minus (negative : Bool) {ds : List Char} (hds : Whole ds) (cs : List Char) :
    ((minus negative ++ (ds ++ cs)).head? = some '-') = (negative = true) := by
  obtain ⟨hne, hdigits, -⟩ := hds
  cases ds with
  | nil => exact absurd rfl hne
  | cons c ds =>
    have hc : c ≠ '-' := by
      rintro rfl
      exact absurd (hdigits '-' List.mem_cons_self) (by decide)
    cases negative <;> simp [minus, hc]

theorem drop_minus (negative : Bool) (cs : List Char) :
    (if negative = true then (minus negative ++ cs).drop 1 else minus negative ++ cs) = cs := by
  cases negative <;> rfl

theorem readNumber_fraction (limits : Limits) (negative : Bool) {whole fraction cs : List Char}
    (hwhole : Whole whole) (hne : fraction ≠ []) (hfraction : ∀ c ∈ fraction, isDigit c = true)
    (hcs : Closed cs) :
    readNumber limits (minus negative ++ (whole ++ '.' :: (fraction ++ cs))) =
      .ok (.float (double negative whole fraction 0), cs) := by
  simp only [readNumber, head?_minus negative hwhole, drop_minus, Bool.decide_eq_true,
    readWhole_append hwhole (noDigit_point _), readFraction_append hne hfraction hcs.noDigit,
    readExponent_of_closed hcs]

theorem readNumber_scientific (limits : Limits) (negative : Bool) {whole fraction cs : List Char}
    (hwhole : Whole whole) (hne : fraction ≠ []) (hfraction : ∀ c ∈ fraction, isDigit c = true) (e : ℤ)
    (hcs : Closed cs) :
    readNumber limits (minus negative ++ (whole ++ '.' :: (fraction ++ 'e' :: (Number.exponentText e ++ cs)))) =
      .ok (.float (double negative whole fraction e), cs) := by
  simp only [readNumber, head?_minus negative hwhole, drop_minus, Bool.decide_eq_true,
    readWhole_append hwhole (noDigit_point _), readFraction_append hne hfraction (noDigit_mark _),
    readExponent_append e hcs.noDigit]

theorem readNumber_power (limits : Limits) (negative : Bool) {whole cs : List Char} (hwhole : Whole whole)
    (e : ℤ) (hcs : Closed cs) :
    readNumber limits (minus negative ++ (whole ++ 'e' :: (Number.exponentText e ++ cs))) =
      .ok (.float (double negative whole [] e), cs) := by
  have hfraction : readFraction ('e' :: (Number.exponentText e ++ cs)) = none := rfl
  simp only [readNumber, head?_minus negative hwhole, drop_minus, Bool.decide_eq_true,
    readWhole_append hwhole (noDigit_mark _), hfraction, readExponent_append e hcs.noDigit]

theorem readNumber_whole (limits : Limits) (negative : Bool) {whole cs : List Char} (hwhole : Whole whole)
    (hlimit : whole.length ≤ limits.digits) (hcs : Closed cs) :
    readNumber limits (minus negative ++ (whole ++ cs)) =
      .ok (.int (if negative then -(Nat.ofDigitChars 10 whole 0 : ℤ) else Nat.ofDigitChars 10 whole 0),
        cs) := by
  simp only [readNumber, head?_minus negative hwhole, drop_minus, readWhole_append hwhole hcs.noDigit,
    readFraction_of_closed hcs, readExponent_of_closed hcs,
    if_neg (not_lt.2 hlimit)]

/-! ## Integers -/

theorem readNumber_intChars (limits : Limits) {i : ℤ} (hlimit : Decimal.width i.natAbs ≤ limits.digits)
    {cs : List Char} (hcs : Closed cs) :
    readNumber limits (Number.intChars i ++ cs) = .ok (.int i, cs) := by
  have hchars : Number.intChars i = minus (decide (i < 0)) ++ Nat.toDigits 10 i.natAbs := by
    by_cases h : i < 0 <;> simp [Number.intChars, minus, h]
  rw [hchars, List.append_assoc, readNumber_whole limits _ (whole_toDigits _) hlimit hcs,
    Nat.ofDigitChars_ten_toDigits]
  by_cases h : i < 0
  · rw [decide_eq_true h, if_pos rfl]
    congr 3
    omega
  · rw [decide_eq_false h, if_neg (by decide)]
    congr 3
    omega

/-! ## Doubles -/

theorem toFloat_mul_pow (n k : ℕ) (e : ℤ) : Decimal.toFloat ⟨n * 10 ^ k, e⟩ = Decimal.toFloat ⟨n, e + k⟩ := by
  induction k generalizing e with
  | zero => simp
  | succ k ih =>
    rw [pow_succ, ← mul_assoc, Decimal.toFloat_mul_ten, ih]
    congr 2
    push_cast
    ring

def signed (negative : Bool) (x : Float) : Float := if negative then -x else x

theorem double_eq_signed (negative : Bool) (whole fraction : List Char) (e : ℤ) :
    double negative whole fraction e =
      signed negative (Decimal.toFloat ⟨Nat.ofDigitChars 10 (whole ++ fraction) 0, e - fraction.length⟩) := rfl

section Layout
variable (limits : Limits) (negative : Bool) {n : ℕ} (hn : 0 < n) (point : ℤ) {cs : List Char} (hcs : Closed cs)
include hcs

/-- All digits stand behind the point. -/
theorem readNumber_below (hlow : -4 < point) (hhigh : point ≤ 0) :
    readNumber limits (minus negative ++ (Number.layout (Nat.toDigits 10 n) point ++ cs)) =
      .ok (.float (signed negative (Decimal.toFloat ⟨n, point - (Nat.toDigits 10 n).length⟩)), cs) := by
  have hall : ∀ c ∈ List.replicate (-point).toNat '0' ++ Nat.toDigits 10 n, isDigit c = true := by
    intro c hc
    rcases List.mem_append.1 hc with hc | hc
    · rw [List.eq_of_mem_replicate hc]
      decide
    · exact isDigit_of_mem_toDigits hc
  have hvalue : Nat.ofDigitChars 10 (['0'] ++ (List.replicate (-point).toNat '0' ++ Nat.toDigits 10 n)) 0 = n := by
    rw [List.singleton_append, Nat.ofDigitChars_cons, Nat.ofDigitChars_append]
    simp
  have hlength : (0 : ℤ) - (List.replicate (-point).toNat '0' ++ Nat.toDigits 10 n).length =
      point - (Nat.toDigits 10 n).length := by
    rw [List.length_append, List.length_replicate]
    omega
  have h := readNumber_fraction limits negative whole_zero (by simp [Nat.toDigits_ne_nil]) hall hcs
  rw [double_eq_signed, hvalue, hlength] at h
  rw [Number.layout.eq_def, if_pos ⟨hlow, by omega⟩, if_pos hhigh]
  exact h

include hn

/-- The point stands between the digits, or behind them with zeros before it. -/
theorem readNumber_across (hlow : 0 < point) (hhigh : point ≤ 16) :
    readNumber limits (minus negative ++ (Number.layout (Nat.toDigits 10 n) point ++ cs)) =
      .ok (.float (signed negative (Decimal.toFloat ⟨n, point - (Nat.toDigits 10 n).length⟩)), cs) := by
  set ds := Nat.toDigits 10 n with hds
  have hall : ∀ c ∈ ds, isDigit c = true := fun c hc => isDigit_of_mem_toDigits hc
  have hpos : 0 < ds.length := Nat.length_toDigits_pos
  have hvalue : Nat.ofDigitChars 10 ds 0 = n := Nat.ofDigitChars_ten_toDigits
  have hhead : (ds.take point.toNat).head? ≠ some '0' := by
    rw [List.head?_take, if_neg (by omega)]
    exact head?_toDigits_ne hn
  rw [Number.layout.eq_def, if_pos ⟨by omega, hhigh⟩, if_neg (by omega)]
  rcases lt_or_ge point.toNat ds.length with hlt | hge
  · have hwhole : Whole (ds.take point.toNat) := by
      refine ⟨?_, fun c hc => hall c (List.mem_of_mem_take hc), fun h => absurd h hhead⟩
      intro h
      have := congrArg List.length h
      rw [List.length_take, List.length_nil] at this
      omega
    have hne : ds.drop point.toNat ≠ [] := by
      rw [Ne, List.drop_eq_nil_iff]
      omega
    have hlength : (0 : ℤ) - (ds.drop point.toNat).length = point - ds.length := by
      rw [List.length_drop]
      omega
    have h := readNumber_fraction limits negative hwhole hne
      (fun c hc => hall c (List.mem_of_mem_drop hc)) hcs
    rw [double_eq_signed, List.take_append_drop, hvalue, hlength] at h
    have hzeros : point.toNat - ds.length = 0 := by omega
    have hempty : (ds.drop point.toNat).isEmpty = false := by
      rw [List.isEmpty_eq_false_iff]
      exact hne
    simp only [hzeros, hempty, List.replicate_zero, List.nil_append, Bool.false_eq_true, if_false,
      List.append_assoc, List.cons_append]
    exact h
  · have hzeros : ∀ c ∈ List.replicate (point.toNat - ds.length) '0', isDigit c = true := by
      intro c hc
      rw [List.eq_of_mem_replicate hc]
      decide
    have hwhole : Whole (ds ++ List.replicate (point.toNat - ds.length) '0') := by
      refine ⟨by simp [hds, Nat.toDigits_ne_nil], ?_, ?_⟩
      · intro c hc
        rcases List.mem_append.1 hc with hc | hc
        · exact hall c hc
        · exact hzeros c hc
      · intro h
        rw [List.head?_append_of_ne_nil _ Nat.toDigits_ne_nil] at h
        exact absurd h (head?_toDigits_ne hn)
    have h := readNumber_fraction limits negative hwhole (List.cons_ne_nil '0' []) isDigit_of_mem_zero hcs
    have hvalue' : Nat.ofDigitChars 10 (ds ++ List.replicate (point.toNat - ds.length) '0' ++ ['0']) 0 =
        n * 10 ^ (point.toNat - ds.length + 1) := by
      rw [Nat.ofDigitChars_append, Nat.ofDigitChars_append, hvalue, Nat.ofDigitChars_replicate_zero,
        Nat.ofDigitChars_cons, pow_succ]
      simp
      ring
    have hexponent : (0 : ℤ) - (['0'] : List Char).length + (point.toNat - ds.length + 1 : ℕ) =
        point - ds.length := by
      rw [List.length_singleton]
      omega
    rw [double_eq_signed, hvalue', toFloat_mul_pow, hexponent] at h
    have htake : ds.take point.toNat = ds := List.take_of_length_le hge
    have hdrop : ds.drop point.toNat = [] := List.drop_of_length_le hge
    simp only [htake, hdrop, List.isEmpty_nil, if_true, List.append_assoc, List.cons_append] at h ⊢
    exact h

theorem readNumber_far (h : ¬ (-4 < point ∧ point ≤ 16)) :
    readNumber limits (minus negative ++ (Number.layout (Nat.toDigits 10 n) point ++ cs)) =
      .ok (.float (signed negative (Decimal.toFloat ⟨n, point - (Nat.toDigits 10 n).length⟩)), cs) := by
  have hall : ∀ c ∈ Nat.toDigits 10 n, isDigit c = true := fun c hc => isDigit_of_mem_toDigits hc
  have hvalue : Nat.ofDigitChars 10 (Nat.toDigits 10 n) 0 = n := Nat.ofDigitChars_ten_toDigits
  have hhead := head?_toDigits_ne hn
  rw [Number.layout.eq_def, if_neg h]
  cases hds : Nat.toDigits 10 n with
  | nil => exact absurd hds Nat.toDigits_ne_nil
  | cons d ds =>
    rw [hds] at hall hvalue hhead
    have hwhole : Whole [d] := by
      refine ⟨List.cons_ne_nil d [], ?_, fun h => absurd h hhead⟩
      intro c hc
      rw [List.mem_singleton.1 hc]
      exact hall d List.mem_cons_self
    cases ds with
    | nil =>
      have h := readNumber_power limits negative hwhole (point - 1) hcs
      rw [double_eq_signed, List.append_nil, hvalue, List.length_nil, Nat.cast_zero, sub_zero] at h
      exact h
    | cons d' ds =>
      have hall' : ∀ c ∈ d' :: ds, isDigit c = true := fun c hc => hall c (List.mem_cons_of_mem _ hc)
      have h := readNumber_scientific limits negative hwhole (List.cons_ne_nil d' ds) hall' (point - 1) hcs
      have hlength : point - 1 - (d' :: ds).length = point - (d :: d' :: ds).length := by
        rw [List.length_cons (a := d)]
        push_cast
        ring
      have happend : [d] ++ d' :: ds = d :: d' :: ds := rfl
      rw [double_eq_signed, happend, hvalue, hlength] at h
      simpa using h

/-- Digits laid out around a point are read as the number they stand for. -/
theorem readNumber_layout :
    readNumber limits (minus negative ++ (Number.layout (Nat.toDigits 10 n) point ++ cs)) =
      .ok (.float (signed negative (Decimal.toFloat ⟨n, point - (Nat.toDigits 10 n).length⟩)), cs) := by
  by_cases h : -4 < point ∧ point ≤ 16
  · rcases le_or_gt point 0 with hpoint | hpoint
    · exact readNumber_below limits negative point hcs h.1 hpoint
    · exact readNumber_across limits negative hn point hcs hpoint h.2
  · exact readNumber_far limits negative hn point hcs h

end Layout

/-! ## Doubles -/

theorem content_zero : content 0.0 = .zero .positive := by
  have hbits : (0.0 : Float).toBits = 0 := by decide +kernel
  rw [content_eq_ofFields, signOf, Number.isNegative, hbits]
  rfl

theorem readNumber_positive (limits : Limits) (negative : Bool) {x : Float} {m : ℕ} {e : ℤ} {hm : 0 < m}
    (h : content x = .finite .positive m e hm) {cs : List Char} (hcs : Closed cs) :
    readNumber limits (minus negative ++ (Number.positive x ++ cs)) =
      .ok (.float (signed negative x), cs) := by
  have hread := Decimal.toFloat_shortest h
  have hdigits : 0 < (Decimal.shortest x).digits := by
    by_contra h₀
    rw [Decimal.toFloat, if_pos (Nat.eq_zero_of_not_pos h₀)] at hread
    rw [← hread, content_zero] at h
    cases h
  have hexponent : (Nat.toDigits 10 (Decimal.shortest x).digits).length + (Decimal.shortest x).exponent -
      (Nat.toDigits 10 (Decimal.shortest x).digits).length = (Decimal.shortest x).exponent := by ring
  rw [Number.positive, readNumber_layout limits negative hdigits _ hcs, hexponent, hread]

/-- A sign and the size of a double make up the double. -/
theorem signed_abs (x : Float) : signed (Number.isNegative x) x.abs = x := by
  apply eq_of_content_eq
  have habs := content_abs x
  rw [content_eq_ofFields x, abs_ofFields] at habs
  rw [content_eq_ofFields x, signOf]
  cases Number.isNegative x with
  | true => rw [signed, if_pos rfl, content_neg, habs, neg_ofFields, if_pos rfl]; rfl
  | false => rw [signed, if_neg (by decide), habs, if_neg (by decide)]

theorem readNumber_zero (limits : Limits) (negative : Bool) {cs : List Char} (hcs : Closed cs) :
    readNumber limits (minus negative ++ ('0' :: '.' :: '0' :: cs)) = .ok (.float (signed negative 0.0), cs) :=
  readNumber_fraction limits negative whole_zero (List.cons_ne_nil '0' []) isDigit_of_mem_zero hcs

/-- A finite double is read back from its text. -/
theorem readNumber_chars (limits : Limits) {x : Float} (hnan : x.isNaN = false) (hinf : x.isInf = false)
    {cs : List Char} (hcs : Closed cs) :
    readNumber limits (Number.chars jsonNumber x ++ cs) = .ok (.float x, cs) := by
  have hminus : (if Number.isNegative x then ['-'] else []) = minus (Number.isNegative x) := rfl
  rw [Number.chars, hnan, hinf]
  simp only [Bool.false_eq_true, if_false, hminus]
  have hsize := signed_abs x
  change (content x).isNaN = false at hnan
  change (content x).isInf = false at hinf
  have habs := content_abs x
  have hbeq : (x == 0.0) = (content x).beq (.zero .positive) := by
    rw [← content_zero]
    rfl
  cases hx : content x with
  | notANumber =>
    rw [hx] at hnan
    cases hnan
  | infinity s =>
    rw [hx] at hinf
    cases hinf
  | zero s =>
    have hzero : (x == 0.0) = true := by
      rw [hbeq, hx]
      cases s <;> rfl
    have habs' : x.abs = 0.0 := by
      apply eq_of_content_eq
      rw [habs, hx, content_zero]
      rfl
    rw [if_pos hzero, List.append_assoc]
    have h := readNumber_zero limits (Number.isNegative x) hcs
    rwa [← habs', hsize] at h
  | finite s m e hm =>
    have hnonzero : (x == 0.0) = false := by
      rw [hbeq, hx]
      cases s <;> rfl
    have habs' : content x.abs = .finite .positive m e hm := by
      rw [habs, hx]
      rfl
    rw [hnonzero, if_neg (by decide), List.append_assoc, readNumber_positive limits _ habs' hcs, hsize]

theorem eq_nan {x : Float} (h : x.isNaN = true) : x = Decimal.nan := by
  change (content x).isNaN = true at h
  apply eq_of_content_eq
  have hbits : Decimal.nan.toBits = 0x7FF8000000000000 := by decide +kernel
  have hnan : content Decimal.nan = .notANumber := by
    rw [content_eq_ofFields, hbits]
    rfl
  rw [hnan]
  cases hx : content x with
  | notANumber => rfl
  | infinity s => rw [hx] at h; cases h
  | zero s => rw [hx] at h; cases h
  | finite s m e hm => rw [hx] at h; cases h

theorem eq_infinity {x : Float} (h : x.isInf = true) :
    x = if Number.isNegative x then Decimal.minusInfinity else Decimal.infinity := by
  change (content x).isInf = true at h
  have hbits : Decimal.infinity.toBits = 0x7FF0000000000000 := by decide +kernel
  have hneg : Decimal.minusInfinity.toBits = 0xFFF0000000000000 := by decide +kernel
  have habs : x.abs = Decimal.infinity := by
    apply eq_of_content_eq
    rw [content_abs, content_eq_ofFields Decimal.infinity, signOf, Number.isNegative, hbits]
    cases hx : content x with
    | notANumber => rw [hx] at h; cases h
    | infinity s => rfl
    | zero s => rw [hx] at h; cases h
    | finite s m e hm => rw [hx] at h; cases h
  have hminus : -Decimal.infinity = Decimal.minusInfinity := by
    apply eq_of_content_eq
    rw [content_neg, content_eq_ofFields, content_eq_ofFields Decimal.minusInfinity, signOf, signOf,
      Number.isNegative, Number.isNegative, hbits, hneg]
    rfl
  have hsize := signed_abs x
  rw [habs, signed, hminus] at hsize
  exact hsize.symm

end CacheAside.Json
