/-! # Glob patterns

A star stands for any run of characters, a question mark for any one character, every other character
for itself; the whole text has to match. `matches_literal` and `matches_star_end` say what patterns
without wildcards and patterns with one final star match. -/

namespace CacheAside.Text
set_option autoImplicit false

/-- Whether some suffix of a text, the whole text included, passes a test. -/
def anySuffix (p : List Char → Bool) : List Char → Bool
  | [] => p []
  | c :: cs => p (c :: cs) || anySuffix p cs

/-- Whether a text matches a pattern. -/
def glob : List Char → List Char → Bool
  | [], cs => cs.isEmpty
  | x :: pattern, cs =>
    if x = '*' then anySuffix (glob pattern) cs
    else match cs with
      | [] => false
      | c :: cs => (x = '?' || x = c) && glob pattern cs

theorem anySuffix_iff {p : List Char → Bool} {cs : List Char} :
    anySuffix p cs = true ↔ ∃ u v, cs = u ++ v ∧ p v = true := by
  induction cs with
  | nil =>
    refine ⟨fun h => ⟨[], [], rfl, h⟩, fun ⟨u, v, e, h⟩ => ?_⟩
    obtain ⟨rfl, rfl⟩ := List.append_eq_nil_iff.1 e.symm
    exact h
  | cons c cs ih =>
    simp only [anySuffix, Bool.or_eq_true, ih]
    constructor
    · rintro (h | ⟨u, v, rfl, h⟩)
      · exact ⟨[], _, rfl, h⟩
      · exact ⟨c :: u, v, rfl, h⟩
    · rintro ⟨u, v, e, h⟩
      cases u with
      | nil => exact .inl (by simpa [e] using h)
      | cons d u =>
        simp only [List.cons_append, List.cons.injEq] at e
        exact .inr ⟨u, v, e.2, h⟩

/-- Characters that stand for themselves in a pattern. -/
def IsLiteral (c : Char) : Prop := c ≠ '*' ∧ c ≠ '?'

theorem glob_star {pattern cs : List Char} :
    glob ('*' :: pattern) cs = true ↔ ∃ u v, cs = u ++ v ∧ glob pattern v = true := by
  simp [glob, anySuffix_iff]

theorem glob_literal_append {w : List Char} (hw : ∀ c ∈ w, IsLiteral c) (pattern cs : List Char) :
    glob (w ++ pattern) cs = true ↔ ∃ v, cs = w ++ v ∧ glob pattern v = true := by
  induction w generalizing cs with
  | nil => simp
  | cons x w ih =>
    obtain ⟨h₁, h₂⟩ := hw x (by simp)
    have ih := ih (fun c hc => hw c (by simp [hc]))
    cases cs with
    | nil => simp [glob, h₁]
    | cons c cs =>
      simp only [List.cons_append, glob, h₁, if_false, h₂, decide_false, Bool.false_or,
        Bool.and_eq_true, decide_eq_true_eq, ih, List.cons.injEq]
      constructor
      · rintro ⟨rfl, v, rfl, h⟩
        exact ⟨v, ⟨rfl, rfl⟩, h⟩
      · rintro ⟨v, ⟨rfl, rfl⟩, h⟩
        exact ⟨rfl, v, rfl, h⟩

theorem matches_literal {w : List Char} (hw : ∀ c ∈ w, IsLiteral c) (cs : List Char) :
    glob w cs = true ↔ cs = w := by
  have := glob_literal_append hw [] cs
  simpa [glob] using this

theorem matches_star_end {w : List Char} (hw : ∀ c ∈ w, IsLiteral c) (cs : List Char) :
    glob (w ++ ['*']) cs = true ↔ ∃ v, cs = w ++ v := by
  rw [glob_literal_append hw]
  refine exists_congr fun v => and_iff_left ?_
  exact glob_star.2 ⟨v, [], by simp, rfl⟩

end CacheAside.Text
