import CacheAside.Settings
import Mathlib.Tactic

/-! # Names in plain letters

The names of fields and of what steers the reading are plain: no character of them lies beyond the first 128. Such
names are in lower case once every letter of them is (`Text.lowercase_of_plain`), so that whether two of them are the
same is told without any table (`sameName_eq_letterwise`). -/

namespace CacheAside
set_option autoImplicit false

namespace Text

/-- Whether no character lies beyond the first 128. -/
def isPlain (cs : List Char) : Bool := cs.all fun c => c.toNat < 128

theorem mapRange_of_plain {c : Char} (h : c.toNat < 128) : mapRange lowerRanges c = c.toLower := by
  have hall : ∀ n < 128, mapRange lowerRanges (Char.ofNat n) = (Char.ofNat n).toLower := by decide +kernel
  simpa using hall c.toNat h

theorem lowerFrom_of_plain {cs : List Char} (h : isPlain cs = true) (within : Bool) :
    lowerFrom within cs = cs.map Char.toLower := by
  induction cs generalizing within with
  | nil => rfl
  | cons c cs ih =>
    rw [isPlain, List.all_cons, Bool.and_eq_true, decide_eq_true_eq] at h
    obtain ⟨hc, hcs⟩ := h
    -- Neither of the two letters with a rule of their own is plain.
    have hsigma : c ≠ '\u03A3' := by
      rintro rfl
      exact absurd hc (by decide)
    have hdotted : c ≠ '\u0130' := by
      rintro rfl
      exact absurd hc (by decide)
    rw [lowerFrom, if_neg fun hends => hsigma hends.1, lowerChar, if_neg hdotted, mapRange_of_plain hc, ih hcs]
    rfl

theorem lowercase_of_plain {s : String} (h : isPlain s.toList = true) :
    lowercase s = String.ofList (s.toList.map Char.toLower) := by rw [lowercase, lowerFrom_of_plain h]

end Text

/-- Whether two names are the same but for the case of their letters, told letter by letter if they are plain. -/
def sameLetterwise (a b : String) : Bool :=
  if Text.isPlain a.toList && Text.isPlain b.toList then a.toList.map Char.toLower = b.toList.map Char.toLower
  else sameName a b

theorem sameName_eq_letterwise : sameName = sameLetterwise := by
  funext a b
  rw [sameLetterwise]
  split
  · rename_i h
    rw [Bool.and_eq_true] at h
    rw [sameName, Text.lowercase_of_plain h.1, Text.lowercase_of_plain h.2]
    simp [String.ofList_inj]
  · rfl

end CacheAside
