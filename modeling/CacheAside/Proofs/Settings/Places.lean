import CacheAside.Proofs.Settings.Names

/-! # Places where a field is given

A field has several places, one for each of its names among the overrides and again among the variables of the
environment. In the standard manner of reading what counts is what stands at the first place at which anything stands
(`Sources.given?_standard`). Where overrides are spelled as the names of fields are, it is also told under the name of
that place (`Sources.given?_of_spelled`), and nothing is kept of what stands at later places
(`Sources.shadowed?_of_spelled`). -/

namespace CacheAside
set_option autoImplicit false

/-! ## First hits -/

section
variable {α β : Type}

/-- Whether two functions agree on a list up to the first hit; what stands behind it is not looked at. -/
def AgreeToFirst (f g : α → Option β) : List α → Prop
  | [] => True
  | a :: l => g a = f a ∧ (f a = none → AgreeToFirst f g l)

namespace AgreeToFirst
variable {f g : α → Option β} {l : List α}

theorem findSome? (h : AgreeToFirst f g l) : l.findSome? g = l.findSome? f := by
  induction l with
  | nil => rfl
  | cons a l ih =>
    obtain ⟨ha, hl⟩ := h
    rw [List.findSome?_cons, List.findSome?_cons, ha]
    cases hfa : f a with
    | some b => rfl
    | none => exact ih (hl hfa)

theorem map {γ : Type} (k : α → β → γ) (h : AgreeToFirst f g l) :
    AgreeToFirst (fun a => (f a).map (k a)) (fun a => (g a).map (k a)) l := by
  induction l with
  | nil => trivial
  | cons a l ih => exact ⟨congrArg _ h.1, fun hnone => ih (h.2 (Option.map_eq_none_iff.1 hnone))⟩

theorem of_forall (h : ∀ a ∈ l, g a = f a) : AgreeToFirst f g l := by
  induction l with
  | nil => trivial
  | cons a l ih =>
    rw [List.forall_mem_cons] at h
    exact ⟨h.1, fun _ => ih h.2⟩

end AgreeToFirst

/-- Where at most one member passes a test it makes no difference from which end one looks for it. -/
theorem find?_reverse_of_unique {p : α → Bool} {l : List α} (h : l.Pairwise fun a b => p a = true → p b = false) :
    l.reverse.find? p = l.find? p := by
  induction l with
  | nil => rfl
  | cons a l ih =>
    obtain ⟨ha, hl⟩ := List.pairwise_cons.1 h
    rw [List.reverse_cons, List.find?_append, ih hl, List.find?_cons]
    cases hpa : p a with
    | false => simp [hpa]
    | true =>
      have hnone : l.find? p = none := by
        rw [List.find?_eq_none]
        intro b hb
        simp [ha b hb hpa]
      simp [hnone, hpa]

/-- The first hit together with the member that has it. -/
theorem findSome?_map_find? (f : α → Option β) (otherwise : α) (l : List α) :
    (l.findSome? f).map ((l.find? fun a => (f a).isSome).getD otherwise, ·) =
      l.findSome? fun a => (f a).map (a, ·) := by
  induction l with
  | nil => rfl
  | cons a l ih => cases hfa : f a <;> simp [hfa, ih]

theorem Rows.find?_eq_of_test {k : String} {rows : List (String × α)} {p : String × α → Bool}
    (h : ∀ row ∈ rows, p row = true ↔ row.1 = k) : Rows.find? k rows = (rows.find? p).map Prod.snd := by
  induction rows with
  | nil => rfl
  | cons row rows ih =>
    obtain ⟨hrow, hrows⟩ := List.forall_mem_cons.1 h
    by_cases hk : row.1 = k
    · simp [Rows.find?, hrow.2 hk, hk]
    · have hp : p row = false := Bool.eq_false_iff.2 fun hp => hk (hrow.1 hp)
      simp [Rows.find?, hp, hk, ih hrows]

end

/-! ## Places -/

/-- Where a field may be given: by an override or by a variable of the environment, under a name. -/
inductive Place where
  | override (name : String)
  | variable (name : String)

namespace Place

def name : Place → String
  | .override name => name
  | .variable name => name

/-- What stands at a place; the case of letters makes no difference, and the first of several counts. -/
def content? (overrides : Table Json) (environment : List (String × String)) : Place → Option Json
  | .override name => (overrides.rows.find? fun row => sameName row.1 name).map Prod.snd
  | .variable name => (environment.find? fun row => sameName row.1 name).map fun row => .str row.2

theorem content?_eq_letterwise (o : Table Json) (e : List (String × String)) : content? o e = fun
    | .override name => (o.rows.find? fun row => sameLetterwise row.1 name).map Prod.snd
    | .variable name => (e.find? fun row => sameLetterwise row.1 name).map fun row => .str row.2 := by
  funext p
  cases p <;> rw [content?, sameName_eq_letterwise]

end Place

namespace FieldNames

/-- The places of a field, the one that counts first in front. -/
def places (n : FieldNames) : List Place := n.all.map .override ++ n.all.map .variable

/-- What a field is settled by: what stands at its first place at which anything stands. -/
def settled? (n : FieldNames) (overrides : Table Json) (environment : List (String × String)) : Option Json :=
  n.places.findSome? (Place.content? overrides environment)

/-- Whether the same stands at every place of a field but those behind the one that settles it. -/
def Agrees (n : FieldNames) (o : Table Json) (e : List (String × String)) (o' : Table Json)
    (e' : List (String × String)) : Prop :=
  AgreeToFirst (Place.content? o e) (Place.content? o' e') n.places

end FieldNames

example : Settings.envNames.places =
    [.override "CACHE_ENV", .override "env", .variable "CACHE_ENV", .variable "env"] := rfl

/-- Whether no two variables have the same name but for the case of letters. -/
def AreDistinct (environment : List (String × String)) : Prop :=
  environment.Pairwise fun v w => sameName v.1 w.1 = false

/-- Whether every override that goes by a name of a field is spelled as that name. -/
def AreSpelled (overrides : Table Json) : Prop :=
  ∀ key ∈ overrides.keys, ∀ n ∈ Settings.fields, ∀ name ∈ n.all, sameName key name = true → key = name

theorem sameName_of_common {a b c : String} (ha : sameName a c = true) (hb : sameName b c = true) :
    sameName a b = true := by
  rw [sameName, decide_eq_true_eq] at ha hb ⊢
  rw [ha, hb]

theorem sameName_self (a : String) : sameName a a = true := decide_eq_true rfl

/-! ## What counts -/

namespace FieldNames

theorem Agrees.settled? {n : FieldNames} {o o' : Table Json} {e e' : List (String × String)} (h : n.Agrees o e o' e') :
    n.settled? o' e' = n.settled? o e := h.findSome?

theorem own_mem_all (n : FieldNames) : n.own ∈ n.all := by simp [all]

end FieldNames

namespace Sources
variable {o o' : Table Json} {e e' : List (String × String)} (n : FieldNames)

theorem assigned?_standard (h : AreDistinct e) (name : String) :
    Sources.assigned? ⟨o, e, .standard⟩ name = Place.content? o e (.variable name) := by
  have hunique : e.Pairwise fun v w => sameName v.1 name = true → sameName w.1 name = false := by
    refine List.Pairwise.imp (fun {v w} hvw hv => ?_) h
    by_contra hw
    rw [Bool.not_eq_false] at hw
    rw [sameName_of_common hv hw] at hvw
    cases hvw
  rw [assigned?, Place.content?, ← find?_reverse_of_unique hunique]
  simp [Manner.standard, Manner.names, Manner.value]

/-- The own name is tried once more behind all names, which makes no difference. -/
theorem environment?_standard (h : AreDistinct e) : Sources.environment? ⟨o, e, .standard⟩ n =
    n.all.findSome? fun name => (Place.content? o e (.variable name)).map (name, ·) := by
  have hcandidates : Manner.standard.candidates n =
      (if n.aliases.isEmpty then [] else n.all.map fun name => (name, name)) ++ [(n.own, n.own)] := by
    simp [Manner.candidates, Manner.standard]
  have hlast : ([(n.own, n.own)].findSome? fun x => (Place.content? o e (.variable x.2)).map (x.1, ·)) =
      (Place.content? o e (.variable n.own)).map (n.own, ·) := by simp
  simp only [environment?, assigned?_standard h]
  rw [hcandidates, List.findSome?_append]
  refine (congrArg _ hlast).trans ?_
  cases haliases : n.aliases with
  | nil => simp [FieldNames.all, haliases]
  | cons name names =>
    rw [List.isEmpty_cons, if_neg (by decide), List.findSome?_map]
    simp only [Function.comp_def]
    cases hfound : n.all.findSome? fun name => (Place.content? o e (.variable name)).map (name, ·) with
    | some v => rfl
    | none => exact List.findSome?_eq_none_iff.1 hfound n.own n.own_mem_all

theorem override?_snd : (Sources.override? ⟨o, e, .standard⟩ n).map Prod.snd =
    n.all.findSome? fun name => Place.content? o e (.override name) := by
  rw [override?, Option.map_map]
  exact congrFun Option.map_id _

/-- In the standard manner a field is given as what settles it. -/
theorem given?_standard (h : AreDistinct e) :
    (Sources.given? ⟨o, e, .standard⟩ n).map Prod.snd = n.settled? o e := by
  have hsnd : ∀ name, ((Place.content? o e (.variable name)).map (name, ·)).map Prod.snd =
      Place.content? o e (.variable name) := by
    intro name
    rw [Option.map_map]
    exact congrFun Option.map_id _
  rw [given?, Option.map_or, override?_snd, environment?_standard n h, List.map_findSome?, FieldNames.settled?,
    FieldNames.places, List.findSome?_append, List.findSome?_map, List.findSome?_map]
  simp only [Function.comp_def, hsnd]

/-! ## Overrides spelled as the names of fields -/

theorem content?_of_spelled (h : AreSpelled o) (hn : n ∈ Settings.fields) {name : String} (hname : name ∈ n.all) :
    Place.content? o e (.override name) = o.find? name := by
  rw [Place.content?, Table.find?, ← Rows.find?_eq_of_test]
  intro row hrow
  constructor
  · exact h row.1 (List.mem_map_of_mem hrow) n hn name hname
  · rintro rfl
    exact sameName_self row.1

theorem findSome?_overrides_of_spelled {β : Type} (hspelled : AreSpelled o) (hn : n ∈ Settings.fields)
    (f : String → Json → β) :
    (n.all.findSome? fun name => (Place.content? o e (.override name)).map (f name)) =
      n.all.findSome? fun name => (o.find? name).map (f name) := by
  refine (AgreeToFirst.of_forall fun name hname => ?_).findSome?
  rw [content?_of_spelled n hspelled hn hname]

theorem override?_of_spelled (hspelled : AreSpelled o) (hn : n ∈ Settings.fields) :
    Sources.override? ⟨o, e, .standard⟩ n =
      n.all.findSome? fun name => (Place.content? o e (.override name)).map (name, ·) := by
  have hfound : n.all.findSome? (Sources.overridden? ⟨o, e, .standard⟩) = n.all.findSome? o.find? := by
    refine (AgreeToFirst.of_forall fun name hname => ?_).findSome?
    exact content?_of_spelled (e := e) n hspelled hn hname
  rw [override?, hfound, findSome?_overrides_of_spelled n hspelled hn]
  exact findSome?_map_find? o.find? n.first n.all

/-- The field is told under the name of the place that settles it. -/
theorem given?_of_spelled (h : AreDistinct e) (hspelled : AreSpelled o) (hn : n ∈ Settings.fields) :
    Sources.given? ⟨o, e, .standard⟩ n = n.places.findSome? fun p => (p.content? o e).map (p.name, ·) := by
  rw [given?, override?_of_spelled n hspelled hn, environment?_standard n h, FieldNames.places, List.findSome?_append,
    List.findSome?_map, List.findSome?_map]
  rfl

theorem shadowed?_of_spelled (hspelled : AreSpelled o) (hn : n ∈ Settings.fields) :
    Sources.shadowed? ⟨o, e, .standard⟩ n = none := by
  cases hoverride : Sources.override? ⟨o, e, .standard⟩ n with
  | none => exact shadowed?_eq_none hoverride
  | some given =>
    have hwritten : (Sources.written? ⟨o, e, .standard⟩ n).isSome = true := by
      rw [override?_of_spelled n hspelled hn, findSome?_overrides_of_spelled n hspelled hn] at hoverride
      obtain ⟨name, hname, hfound⟩ := List.exists_of_findSome?_eq_some hoverride
      rw [written?, List.find?_isSome]
      exact ⟨name, hname, by simpa using Option.isSome_of_mem hfound⟩
    rw [shadowed?, hoverride, Option.bind_some, if_pos hwritten]

end Sources
end CacheAside
