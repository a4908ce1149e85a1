import CacheAside.Text.Glob

/-! # Matchers

Servers agree on what a star in a pattern stands for, and on the characters that stand for themselves. On a few
other characters they differ: a bracket may begin a class of characters, a backslash may take its meaning from the
character behind it, and either may stand for itself. A matcher is the way in which a server reads patterns; whatever
it makes of these characters, it matches simple patterns as `Text.glob` does. -/

namespace CacheAside
set_option autoImplicit false

/-- The characters that may mean something of their own in the patterns of a server. -/
def Text.metacharacters : List Char := ['*', '?', '[', ']', '\\']

/-- A pattern in which no character but the star can mean something of its own. -/
def Text.IsSimple (pattern : String) : Prop := ∀ c ∈ pattern.toList, c ∈ metacharacters → c = '*'

instance (pattern : String) : Decidable (Text.IsSimple pattern) :=
  decidable_of_iff ((pattern.toList.all fun c => decide (c ∈ Text.metacharacters → c = '*')) = true)
    (by simp only [List.all_eq_true, decide_eq_true_iff, Text.IsSimple])

structure Matcher where
  /-- Whether a pattern matches a key. -/
  accepts : String → String → Bool
  accepts_of_isSimple : ∀ {pattern : String}, Text.IsSimple pattern →
    ∀ key : String, accepts pattern key = Text.glob pattern.toList key.toList

namespace Matcher

/-- Brackets and backslashes stand for themselves. -/
def plain : Matcher := ⟨fun pattern key => Text.glob pattern.toList key.toList, fun _ _ => rfl⟩

/-! ## Classes and escapes -/

/-- What a part of a pattern stands for: any run of characters, or one that passes a test. -/
inductive Mark where
  | run
  | one (admits : Char → Bool)

/-- Whether a character is one of these or lies in a range, which is written with a hyphen. -/
def isAmong : List Char → Char → Bool
  | first :: '-' :: last :: others, c => (decide (first ≤ c) && decide (c ≤ last)) || isAmong others c
  | x :: others, c => decide (c = x) || isAmong others c
  | [], _ => false

/-- Whether a character is in a class; a caret in front makes it a class of all others. -/
def isInClass : List Char → Char → Bool
  | '^' :: members, c => !isAmong members c
  | members, c => isAmong members c

/-- Where in a pattern a character stands: behind a backslash, or in a class behind these members, the last one
first. -/
inductive Place where
  | plain
  | escaped
  | inClass (members : List Char)

/-- The parts of a pattern. A class without an end goes on to the end of the pattern. -/
def marks : Place → List Char → List Mark
  | .plain, [] => []
  | .plain, x :: pattern =>
    if x = '*' then .run :: marks .plain pattern
    else if x = '?' then .one (fun _ => true) :: marks .plain pattern
    else if x = '[' then marks (.inClass []) pattern
    else if x = '\\' then marks .escaped pattern
    else .one (fun c => c = x) :: marks .plain pattern
  | .escaped, [] => [.one fun c => c = '\\']
  | .escaped, x :: pattern => .one (fun c => c = x) :: marks .plain pattern
  | .inClass members, [] => [.one (isInClass members.reverse)]
  | .inClass members, x :: pattern =>
    if x = ']' then .one (isInClass members.reverse) :: marks .plain pattern
    else marks (.inClass (x :: members)) pattern

/-- Whether the parts of a pattern stand for a text. -/
def acceptedBy : List Mark → List Char → Bool
  | [], cs => cs.isEmpty
  | .run :: marks, cs => Text.anySuffix (acceptedBy marks) cs
  | .one _ :: _, [] => false
  | .one admits :: marks, c :: cs => admits c && acceptedBy marks cs

theorem acceptedBy_marks {pattern : List Char} (h : ∀ x ∈ pattern, x ∈ Text.metacharacters → x = '*')
    (cs : List Char) : acceptedBy (marks .plain pattern) cs = Text.glob pattern cs := by
  induction pattern generalizing cs with
  | nil => rfl
  | cons x pattern ih =>
    have hrest : acceptedBy (marks .plain pattern) = Text.glob pattern :=
      funext (ih fun y hy => h y (List.mem_cons_of_mem _ hy))
    by_cases hstar : x = '*'
    · subst hstar
      rw [marks, if_pos rfl, acceptedBy, hrest]
      rfl
    · have hplain : x ∉ Text.metacharacters := fun hx => hstar (h x List.mem_cons_self hx)
      simp only [Text.metacharacters, List.mem_cons, List.not_mem_nil, or_false, not_or] at hplain
      obtain ⟨-, hany, hclass, -, hescape⟩ := hplain
      rw [marks, if_neg hstar, if_neg hany, if_neg hclass, if_neg hescape]
      cases cs with
      | nil => rw [Text.glob, if_neg hstar, acceptedBy]
      | cons c cs =>
        rw [Text.glob, if_neg hstar, acceptedBy, hrest]
        simp only [hany, decide_false, Bool.false_or, eq_comm]

/-- A bracket begins a class, and what stands behind a backslash stands for itself. -/
def classes : Matcher where
  accepts pattern key := acceptedBy (marks .plain pattern.toList) key.toList
  accepts_of_isSimple h key := acceptedBy_marks h key.toList

example : ["k1", "k2", "k3", "k[12]"].filter (classes.accepts "k[12]") = ["k1", "k2"] := by decide
example : ["k1", "k2", "k3", "k[12]"].filter (plain.accepts "k[12]") = ["k[12]"] := by decide

end Matcher
end CacheAside
