import CacheAside.Proofs.Key.Segments
import Mathlib

/-! # Numbers in keys

A whole number is a segment of its key, written in decimal digits, unless it is zero: zero counts as blank and is
left out (`Key.zero_left_out`). So two lists of numbers behind the same start make the same key just if they are the
same up to zeros (`Key.numbers_read_back`), as long as no number is too long to be written out. -/

namespace CacheAside
set_option autoImplicit false

/-! ## Decimal digits -/

theorem Json.plain_int (i : Int) : Json.plain (.int i) = toString i := by
  change String.ofList (Number.intChars i) = toString i
  rw [← String.toList_inj, String.toList_ofList, Int.toString_eq_repr, Number.intChars]
  cases i with
  | ofNat n => exact Nat.toList_repr.symm
  | negSucc n =>
    rw [if_pos (Int.negSucc_lt_zero n), Int.repr, String.toList_append, Nat.toList_repr]
    rfl

namespace Key

theorem separator_not_mem_toDigits (n : Nat) : separator ∉ Nat.toDigits 10 n := by
  intro h
  have hdigit := Nat.isDigit_of_mem_toDigits (by decide) (by decide) h
  revert hdigit
  decide

theorem separator_not_mem_toString (i : Int) : separator ∉ (toString i).toList := by
  cases i with
  | ofNat n =>
    have hdigits : (toString (Int.ofNat n)).toList = Nat.toDigits 10 n := Nat.toList_repr
    rw [hdigits]
    exact separator_not_mem_toDigits n
  | negSucc n =>
    have hdigits : (toString (Int.negSucc n)).toList = '-' :: Nat.toDigits 10 (n + 1) := by
      rw [Int.toString_eq_repr, Int.repr, String.toList_append, Nat.toList_repr]
      rfl
    rw [hdigits, List.mem_cons, not_or]
    exact ⟨by decide, separator_not_mem_toDigits (n + 1)⟩

/-! ## Keys of numbers -/

variable {head : String}

theorem build_numbers (hhead : IsSegment head) (xs : List Int) :
    build (.str head :: xs.map .int) = ofSegments (head :: (xs.filter (· ≠ 0)).map toString) := by
  have hstart : (Json.str head).isBlank = false := decide_eq_false hhead.nonempty
  have hblank : (fun part : Json => !part.isBlank) ∘ Json.int = fun x => decide (x ≠ 0) := by
    funext x
    simp [Json.isBlank]
  rw [build, List.filter_cons, hstart, List.filter_map, hblank, Bool.not_false, if_pos rfl, List.map_cons, List.map_map]
  exact congrArg (fun texts => ofSegments (head :: texts)) (List.map_congr_left fun x _ => Json.plain_int x)

theorem build?_numbers (digits : ℕ) (head : String) (xs : List Int) :
    build? digits (.str head :: xs.map .int) =
      if ∀ x ∈ xs, x ≠ 0 → Decimal.width x.natAbs ≤ digits then some (build (.str head :: xs.map .int)) else none := by
  have hfits : ((Json.str head :: xs.map .int).all fun part => part.isBlank || decide (part.widest ≤ digits)) = true ↔
      ∀ x ∈ xs, x ≠ 0 → Decimal.width x.natAbs ≤ digits := by
    simp only [List.all_cons, Json.widest, Nat.zero_le, decide_true, Bool.or_true, Bool.true_and, List.all_eq_true,
      List.forall_mem_map, Json.isBlank, Bool.or_eq_true, decide_eq_true_eq]
    exact forall₂_congr fun x _ => or_iff_not_imp_left
  simp only [build?, hfits]

theorem segments_build_numbers (hhead : IsSegment head) (xs : List Int) :
    segments (build (.str head :: xs.map .int)) = head :: (xs.filter (· ≠ 0)).map toString := by
  rw [build_numbers hhead]
  refine segments_ofSegments (List.cons_ne_nil _ _) ?_
  rw [List.forall_mem_cons]
  refine ⟨hhead.free, fun w hw => ?_⟩
  obtain ⟨x, -, rfl⟩ := List.mem_map.1 hw
  exact separator_not_mem_toString x

/-- Behind a start that is a segment every number but zero is a segment of its own in decimal digits, in order. Two
lists of numbers make the same key just if they differ in zeros only, so lists without zeros only if they are equal.
There is a key at all just if every number but zero can be written out. -/
theorem numbers_read_back (hhead : IsSegment head) (digits : ℕ) (xs ys : List Int) :
    (build? digits (.str head :: xs.map .int) =
      if ∀ x ∈ xs, x ≠ 0 → Decimal.width x.natAbs ≤ digits then some (build (.str head :: xs.map .int)) else none) ∧
    parse (build (.str head :: xs.map .int)) = ⟨head, (xs.filter (· ≠ 0)).map toString⟩ ∧
      (build (.str head :: xs.map .int) = build (.str head :: ys.map .int) ↔
        xs.filter (· ≠ 0) = ys.filter (· ≠ 0)) ∧
      (0 ∉ xs → 0 ∉ ys → build (.str head :: xs.map .int) = build (.str head :: ys.map .int) → xs = ys) := by
  have hinjective : Function.Injective (toString : Int → String) := fun _ _ h => Int.repr_inj.1 h
  have hiff : build (.str head :: xs.map .int) = build (.str head :: ys.map .int) ↔
      xs.filter (· ≠ 0) = ys.filter (· ≠ 0) := by
    constructor
    · intro h
      have hsegments := congrArg segments h
      rw [segments_build_numbers hhead, segments_build_numbers hhead, List.cons.injEq] at hsegments
      exact List.map_injective_iff.2 hinjective hsegments.2
    · intro h
      rw [build_numbers hhead, build_numbers hhead, h]
  have hall : ∀ zs : List Int, 0 ∉ zs → zs.filter (· ≠ 0) = zs := by
    intro zs hzs
    refine List.filter_eq_self.2 fun z hz => decide_eq_true ?_
    rintro rfl
    exact hzs hz
  refine ⟨build?_numbers digits head xs, parse_eq (segments_build_numbers hhead xs), hiff, fun hxs hys h => ?_⟩
  rw [← hall xs hxs, ← hall ys hys]
  exact hiff.1 h

theorem numbers_read_back_signed :
    build? 2 [.str "page", .int 20, .int 0, .int (-3)] = some (build [.str "page", .int 20, .int 0, .int (-3)]) ∧
    parse (build [.str "page", .int 20, .int 0, .int (-3)]) = ⟨"page", ["20", "-3"]⟩ ∧
      build [.str "page", .int 20, .int (-3)] ≠ build [.str "page", .int 203] := by
  have hpage : IsSegment "page" := by decide
  obtain ⟨hkey, hread, -, -⟩ := numbers_read_back hpage 2 [20, 0, -3] []
  obtain ⟨-, -, -, hequal⟩ := numbers_read_back hpage 2 [20, -3] [203]
  refine ⟨hkey.trans (if_pos (by decide)), hread, fun h => ?_⟩
  have := hequal (by decide) (by decide) h
  simp at this

/-- The number zero is no segment of its key, which is then the key of no number at all. -/
theorem zero_left_out : ([0] : List Int) ≠ [] ∧ build (.str "page" :: [0].map .int) = build [.str "page"] := by
  decide

end Key
end CacheAside
