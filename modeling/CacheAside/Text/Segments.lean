/-! # Texts cut at a separator

`split` cuts a text at every separator and never gives the empty list: `n` separators give `n + 1`
segments, some of which may be empty. `join` puts one separator between neighbours. Joining what was
split gives the text back (`join_split`); splitting what was joined gives the segments back when none
of them holds the separator and there is at least one (`split_join`). -/

namespace CacheAside.Text
set_option autoImplicit false

/-- The segments of a text, in order. -/
def split (sep : Char) : List Char → List (List Char)
  | [] => [[]]
  | c :: cs =>
    if c = sep then [] :: split sep cs
    else match split sep cs with
      | [] => [[c]]
      | w :: ws => (c :: w) :: ws

/-- Segments written one after the other with a separator between neighbours. -/
def join (sep : Char) : List (List Char) → List Char
  | [] => []
  | [w] => w
  | w :: v :: ws => w ++ sep :: join sep (v :: ws)

/-! ## One step of each -/

@[simp] theorem split_nil (sep : Char) : split sep [] = [[]] := rfl

theorem split_ne_nil (sep : Char) (cs : List Char) : split sep cs ≠ [] := by
  induction cs with
  | nil => simp
  | cons c cs ih =>
    simp only [split]
    split
    · simp
    · split <;> simp

theorem split_cons_sep (sep : Char) (cs : List Char) : split sep (sep :: cs) = [] :: split sep cs := by
  simp [split]

theorem split_cons_of_ne {sep c : Char} (h : c ≠ sep) (cs : List Char) :
    ∃ w ws, split sep cs = w :: ws ∧ split sep (c :: cs) = (c :: w) :: ws := by
  cases e : split sep cs with
  | nil => exact absurd e (split_ne_nil sep cs)
  | cons w ws => exact ⟨w, ws, rfl, by simp [split, h, e]⟩

@[simp] theorem join_nil (sep : Char) : join sep [] = [] := rfl

@[simp] theorem join_singleton (sep : Char) (w : List Char) : join sep [w] = w := rfl

theorem join_cons {sep : Char} (w : List Char) {ws : List (List Char)} (h : ws ≠ []) :
    join sep (w :: ws) = w ++ sep :: join sep ws := by
  cases ws with
  | nil => exact absurd rfl h
  | cons v ws => rfl

/-! ## The two round trips -/

theorem join_split (sep : Char) (cs : List Char) : join sep (split sep cs) = cs := by
  induction cs with
  | nil => rfl
  | cons c cs ih =>
    by_cases h : c = sep
    · subst h
      rw [split_cons_sep, join_cons [] (split_ne_nil c cs), ih]
      rfl
    · obtain ⟨w, ws, hw, hc⟩ := split_cons_of_ne h cs
      rw [hc]
      rw [hw] at ih
      cases ws with
      | nil => simpa using ih
      | cons v vs =>
        rw [join_cons _ (by simp)] at ih ⊢
        simp [← ih]

theorem split_of_not_mem {sep : Char} {w : List Char} (h : sep ∉ w) : split sep w = [w] := by
  induction w with
  | nil => rfl
  | cons c cs ih =>
    simp only [List.mem_cons, not_or] at h
    simp [split, ih h.2, Ne.symm h.1]

theorem split_append_sep {sep : Char} {w : List Char} (h : sep ∉ w) (cs : List Char) :
    split sep (w ++ sep :: cs) = w :: split sep cs := by
  induction w with
  | nil => simp [split]
  | cons c w ih =>
    simp only [List.mem_cons, not_or] at h
    simp [split, ih h.2, Ne.symm h.1]

theorem split_join {sep : Char} {ws : List (List Char)} (hne : ws ≠ []) (h : ∀ w ∈ ws, sep ∉ w) :
    split sep (join sep ws) = ws := by
  induction ws with
  | nil => exact absurd rfl hne
  | cons w ws ih =>
    cases ws with
    | nil => exact split_of_not_mem (h w (by simp))
    | cons v vs =>
      rw [join_cons w (by simp), split_append_sep (h w (by simp)),
        ih (by simp) fun u hu => h u (List.mem_cons_of_mem w hu)]

end CacheAside.Text
