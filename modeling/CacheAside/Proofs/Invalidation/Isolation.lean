import CacheAside.Proofs.Cache.Standing
import CacheAside.Proofs.Invalidation.Mentioning
import CacheAside.Proofs.Key.Segments
import CacheAside.Proofs.Store.Passage

/-! # Entities apart from each other

The star in a pattern takes up any characters, colons too. But a pattern with as many colons as a key has can only
match it segment by segment (`Text.glob_join`), since no star is left a colon to take up. So the pattern of an entity
matches a key about another entity exactly if the type of the one matches the type of the other and the name its
name; where types and names stand for themselves, the entities are the same. On every network, whatever fails, an
invalidation touches only keys that its pattern matches. -/

namespace CacheAside
set_option autoImplicit false

/-! ## Patterns and segments -/

namespace Text

theorem glob_cons_nil {x : Char} (hx : x ≠ '*') (p : List Char) : glob (x :: p) [] = false := by
  rw [glob, if_neg hx]

theorem glob_cons_cons {x : Char} (hx : x ≠ '*') (p : List Char) (c : Char) (t : List Char) :
    glob (x :: p) (c :: t) = true ↔ (x = '?' ∨ x = c) ∧ glob p t = true := by
  rw [glob, if_neg hx]
  simp

theorem glob_append {p q t : List Char} :
    glob (p ++ q) t = true ↔ ∃ u v, t = u ++ v ∧ glob p u = true ∧ glob q v = true := by
  induction p generalizing t with
  | nil => simp [glob]
  | cons x p ih =>
    rw [List.cons_append]
    by_cases hx : x = '*'
    · subst hx
      simp only [glob_star, ih]
      constructor
      · rintro ⟨a, _, rfl, u, v, rfl, hu, hv⟩
        exact ⟨a ++ u, v, (List.append_assoc a u v).symm, ⟨a, u, rfl, hu⟩, hv⟩
      · rintro ⟨_, v, rfl, ⟨a, u, rfl, hu⟩, hv⟩
        exact ⟨a, u ++ v, List.append_assoc a u v, u, v, rfl, hu, hv⟩
    · constructor
      · intro h
        cases t with
        | nil => simp [glob_cons_nil hx] at h
        | cons c t =>
          obtain ⟨hc, ht⟩ := (glob_cons_cons hx _ c t).1 h
          obtain ⟨u, v, rfl, hu, hv⟩ := ih.1 ht
          exact ⟨c :: u, v, rfl, (glob_cons_cons hx p c u).2 ⟨hc, hu⟩, hv⟩
      · rintro ⟨u, v, rfl, hu, hv⟩
        cases u with
        | nil => simp [glob_cons_nil hx] at hu
        | cons c u =>
          obtain ⟨hc, hu⟩ := (glob_cons_cons hx p c u).1 hu
          exact (glob_cons_cons hx _ c _).2 ⟨hc, ih.2 ⟨u, v, rfl, hu, hv⟩⟩

/-- Every literal character of a pattern stands for one in the text. -/
theorem count_le_of_glob {sep : Char} (hsep : IsLiteral sep) {p t : List Char} (h : glob p t = true) :
    p.count sep ≤ t.count sep := by
  induction p generalizing t with
  | nil => exact Nat.zero_le _
  | cons x p ih =>
    by_cases hx : x = '*'
    · subst hx
      obtain ⟨u, v, rfl, hv⟩ := glob_star.1 h
      have hle := ih hv
      rw [List.count_cons_of_ne hsep.1.symm, List.count_append]
      omega
    · cases t with
      | nil => simp [glob_cons_nil hx] at h
      | cons c t =>
        obtain ⟨rfl | rfl, ht⟩ := (glob_cons_cons hx p c t).1 h
        · rw [List.count_cons_of_ne hsep.2.symm]
          exact (ih ht).trans (List.count_le_count_cons)
        · rw [List.count_cons, List.count_cons]
          exact Nat.add_le_add_right (ih ht) _

/-- Where a pattern and a text go on with as many separators as each other after a separator, the parts before it
match each other, and the parts after it. -/
theorem glob_separated {sep : Char} (hsep : IsLiteral sep) {p q t u : List Char} (ht : sep ∉ t)
    (hcount : q.count sep = u.count sep) :
    glob (p ++ sep :: q) (t ++ sep :: u) = true ↔ glob p t = true ∧ glob q u = true := by
  have hcons : ∀ v, glob (sep :: q) v = true ↔ ∃ v', v = sep :: v' ∧ glob q v' = true :=
    glob_literal_append (w := [sep]) (fun c hc => List.mem_singleton.1 hc ▸ hsep) q
  simp only [glob_append, hcons]
  constructor
  · rintro ⟨a, _, hsplit, hp, v, rfl, hq⟩
    have htotal := congrArg (List.count sep) hsplit
    simp only [List.count_append, List.count_cons_self] at htotal
    have hle := count_le_of_glob hsep hq
    -- no separator is left for the first part
    have ha : sep ∉ a := List.count_eq_zero.1 (by have := List.count_eq_zero.2 ht; omega)
    have hparts := congrArg (split sep) hsplit
    rw [split_append_sep ht, split_append_sep ha] at hparts
    obtain ⟨rfl, -⟩ := List.cons.inj hparts
    obtain ⟨-, rfl⟩ := List.cons.inj (List.append_cancel_left hsplit)
    exact ⟨hp, hq⟩
  · rintro ⟨hp, hq⟩
    exact ⟨t, sep :: u, rfl, hp, u, rfl, hq⟩

theorem count_join {sep : Char} {ws : List (List Char)} (h : ∀ w ∈ ws, sep ∉ w) :
    (join sep ws).count sep = ws.length - 1 := by
  induction ws with
  | nil => rfl
  | cons w ws ih =>
    have hw := List.count_eq_zero.2 (h w List.mem_cons_self)
    cases ws with
    | nil => exact hw
    | cons v vs =>
      have hrest := ih fun u hu => h u (List.mem_cons_of_mem _ hu)
      rw [join, List.count_append, List.count_cons_self, hw, hrest]
      simp

/-- A pattern with as many segments as a text matches it segment by segment. -/
theorem glob_join {sep : Char} (hsep : IsLiteral sep) {ps ts : List (List Char)} (hlength : ps.length = ts.length)
    (hps : ∀ p ∈ ps, sep ∉ p) (hts : ∀ t ∈ ts, sep ∉ t) :
    glob (join sep ps) (join sep ts) = true ↔ List.Forall₂ (fun p t => glob p t = true) ps ts := by
  induction ps generalizing ts with
  | nil =>
    obtain rfl := List.eq_nil_of_length_eq_zero hlength.symm
    simp [glob]
  | cons p ps ih =>
    cases ts with
    | nil => cases hlength
    | cons t ts =>
      have hlength := Nat.succ.inj hlength
      cases ps with
      | nil =>
        obtain rfl := List.eq_nil_of_length_eq_zero hlength.symm
        simp
      | cons p' ps =>
        have hts' : ∀ w ∈ ts, sep ∉ w := fun w hw => hts w (List.mem_cons_of_mem _ hw)
        have hps' : ∀ w ∈ p' :: ps, sep ∉ w := fun w hw => hps w (List.mem_cons_of_mem _ hw)
        have hne : ts ≠ [] := by
          rintro rfl
          cases hlength
        rw [join_cons p (List.cons_ne_nil _ _), join_cons t hne,
          glob_separated hsep (hts t List.mem_cons_self) (by rw [count_join hps', count_join hts', hlength]),
          ih hlength hps' hts', List.forall₂_cons]

end Text

/-! ## Entities and their keys -/

/-- What entries are about: a type and a name, either of them one segment of a key. -/
@[ext] structure Entity where
  type : String
  name : String
  type_isSegment : Key.IsSegment type
  name_isSegment : Key.IsSegment name

namespace Entity

def asset (name : String) (h : Key.IsSegment name) : Entity := ⟨"asset", name, by decide, h⟩

/-- The key of what a namespace holds about an entity, with a segment of its own at the end. -/
def key (e : Entity) (space tail : String) : String :=
  "cache:" ++ space ++ ":" ++ e.type ++ ":" ++ e.name ++ ":" ++ tail

theorem toList_key (e : Entity) (space tail : String) : (e.key space tail).toList =
    Text.join ':' ["cache".toList, space.toList, e.type.toList, e.name.toList, tail.toList] := by
  simp [key, Text.join, String.toList_append]

/-- The pattern of an entity, as segments. -/
theorem toList_pattern (e : Entity) : (Cache.entityPattern e.type e.name).toList =
    Text.join ':' ["cache".toList, ['*'], e.type.toList, e.name.toList, ['*']] := by
  rw [Cache.entityPattern, if_neg e.name_isSegment.nonempty]
  simp [Text.join, String.toList_append]

/-- The pattern of an entity matches the keys about those entities whose types and names match its own. -/
theorem glob_pattern (e e' : Entity) {space tail : String} (hspace : Key.IsSegment space) (htail : Key.IsSegment tail) :
    Text.glob (Cache.entityPattern e.type e.name).toList (e'.key space tail).toList = true ↔
      Text.glob e.type.toList e'.type.toList = true ∧ Text.glob e.name.toList e'.name.toList = true := by
  have hcolon : Text.IsLiteral ':' := ⟨by decide, by decide⟩
  have hcache : ':' ∉ "cache".toList := by decide
  have hstar : ':' ∉ ['*'] := by decide
  have hany : ∀ t : List Char, Text.glob ['*'] t = true := fun t => Text.glob_star.2 ⟨t, [], by simp, rfl⟩
  have hpattern : ∀ p ∈ ["cache".toList, ['*'], e.type.toList, e.name.toList, ['*']], ':' ∉ p := by
    simp only [List.forall_mem_cons]
    exact ⟨hcache, hstar, e.type_isSegment.free, e.name_isSegment.free, hstar, nofun⟩
  have hkey : ∀ t ∈ ["cache".toList, space.toList, e'.type.toList, e'.name.toList, tail.toList], ':' ∉ t := by
    simp only [List.forall_mem_cons]
    exact ⟨hcache, hspace.free, e'.type_isSegment.free, e'.name_isSegment.free, htail.free, nofun⟩
  have hlength : ["cache".toList, ['*'], e.type.toList, e.name.toList, ['*']].length =
      ["cache".toList, space.toList, e'.type.toList, e'.name.toList, tail.toList].length := rfl
  rw [e.toList_pattern, e'.toList_key, Text.glob_join hcolon hlength hpattern hkey]
  simp only [List.forall₂_cons, hany, List.forall₂_nil_left_iff, and_true, true_and]
  exact and_iff_right (by decide)

/-- Where type and name stand for themselves, the pattern matches keys about this entity only. -/
theorem eq_of_glob_pattern {e e' : Entity} (htype : Text.IsVerbatim e.type) (hname : Text.IsVerbatim e.name)
    {space tail : String} (hspace : Key.IsSegment space) (htail : Key.IsSegment tail)
    (h : Text.glob (Cache.entityPattern e.type e.name).toList (e'.key space tail).toList = true) : e = e' := by
  obtain ⟨htypes, hnames⟩ := (e.glob_pattern e' hspace htail).1 h
  rw [Text.matches_literal htype.isLiteral] at htypes
  rw [Text.matches_literal hname.isLiteral] at hnames
  exact Entity.ext (String.toList_inj.1 htypes).symm (String.toList_inj.1 hnames).symm

end Entity

/-! ## What an invalidation touches -/

theorem Traced.find?_of_untouched {w w' : World} {exchanges : List Exchange} (h : Traced w w' exchanges) {key : String}
    (huntouched : ∀ x ∈ exchanges, x.touches key = false) :
    w'.server.find? key = Entry.aged (w.network.pauses w.history exchanges) (w.server.find? key) := by
  rcases h.find? key with ⟨-, haged⟩ | ⟨later, x, earlier, htouch, -⟩
  · exact haged
  · have hx := huntouched x (by rw [htouch.split]; exact List.mem_append_right _ List.mem_cons_self)
    rw [htouch.touches] at hx
    cases hx

/-- Touches only keys like these, whatever fails, and ends in nothing but values like those. -/
def Op.Touches {α : Type} (keys : String → Prop) (Q : α → Prop) (op : Op α) : Prop :=
  ∀ w : World, (∃ exchanges, Traced w (op.run w).2 exchanges ∧
    ∀ x ∈ exchanges, ∀ key, x.touches key = true → keys key) ∧ ∀ a, (op.run w).1 = .ok a → Q a

namespace Op.Touches
variable {α β : Type} {keys : String → Prop} {P : α → Prop} {Q : β → Prop}

theorem pure {a : α} (h : P a) : Touches keys P (Pure.pure a : Op α) := by
  intro w
  refine ⟨⟨[], Traced.refl w, fun _ hx => (List.not_mem_nil hx).elim⟩, fun b hb => ?_⟩
  cases hb
  exact h

theorem note (n : Note) : Touches keys (fun _ => True) (Op.note n) :=
  fun w => ⟨⟨[], Traced.of_memory w _, fun _ hx => (List.not_mem_nil hx).elim⟩, fun _ _ => trivial⟩

theorem bind {op : Op α} {f : α → Op β} (h : op.Touches keys P) (hf : ∀ a, P a → (f a).Touches keys Q) :
    (op >>= f).Touches keys Q := by
  intro w
  obtain ⟨⟨earlier, htraced, htouched⟩, hP⟩ := h w
  rw [run_bind]
  rcases hop : op.run w with ⟨r, w₁⟩
  rw [hop] at htraced hP
  cases r with
  | error f => exact ⟨⟨earlier, htraced, htouched⟩, fun b hb => by cases hb⟩
  | ok a =>
    obtain ⟨⟨later, htraced', htouched'⟩, hQ⟩ := hf a (hP a rfl) w₁
    refine ⟨⟨later ++ earlier, htraced.trans htraced', fun x hx => ?_⟩, hQ⟩
    exact (List.mem_append.1 hx).elim (htouched' x) (htouched x)

theorem contain {body : Op α} {handle : Failure → Op α} (h : body.Touches keys P)
    (hhandle : ∀ f, (handle f).Touches keys P) : (Op.contain body handle).Touches keys P := by
  intro w
  obtain ⟨⟨earlier, htraced, htouched⟩, hP⟩ := h w
  rw [run_contain]
  rcases hbody : body.run w with ⟨r, w₁⟩
  rw [hbody] at htraced hP
  cases r with
  | ok a => exact ⟨⟨earlier, htraced, htouched⟩, hP⟩
  | error f =>
    simp only
    split
    · obtain ⟨⟨later, htraced', htouched'⟩, hQ⟩ := hhandle f w₁
      refine ⟨⟨later ++ earlier, htraced.trans htraced', fun x hx => ?_⟩, hQ⟩
      exact (List.mem_append.1 hx).elim (htouched' x) (htouched x)
    · exact ⟨⟨earlier, htraced, htouched⟩, fun b hb => by cases hb⟩

end Op.Touches

namespace Store

/-- A call touches what its command covers, and nothing else, wherever its way led. -/
theorem Passage.covers_of_touches {c : Command} {w w' : World} {failure : Option Failure} {exchanges : List Exchange}
    (h : Passage c w w' failure exchanges) {x : Exchange} (hx : x ∈ exchanges) {key : String}
    (hkey : x.touches key = true) : c.covers key = true := by
  have hcovers := (Bool.and_eq_true_iff.1 hkey).2
  cases h with
  | held =>
    rw [List.mem_singleton.1 hx] at hcovers
    exact hcovers
  | uncreated =>
    rw [List.mem_singleton.1 hx] at hcovers
    cases hcovers
  | created =>
    rcases List.mem_cons.1 hx with rfl | hx
    · exact hcovers
    · rw [List.mem_singleton.1 hx] at hcovers
      cases hcovers

theorem touches_reporting (operation : String) (details : List (String × Json)) (c : Command) {keys : String → Prop}
    (hkeys : ∀ key, c.covers key = true → keys key) :
    (reporting operation details (send c)).Touches keys fun reply => ∃ s : Server, reply = (s.apply c).1 := by
  intro w
  obtain ⟨exchanges, htraced, hpassage⟩ := passage_send c w
  rw [run_reporting]
  refine ⟨⟨exchanges, htraced, fun x hx key hkey => hkeys key (hpassage.covers_of_touches hx hkey)⟩,
    fun reply hreply => ?_⟩
  rcases hsend : (send c).run w with ⟨r, w'⟩
  rw [hsend] at hreply
  cases r with
  | error f => cases hreply
  | ok reply' =>
    cases hreply
    exact exists_server_of_send hsend

/-- A listing touches nothing, and whichever server answers it, the keys that it lists match a simple pattern. -/
theorem touches_keysMatching {pattern : String} (hpattern : Text.IsSimple pattern) {keys : String → Prop} :
    (keysMatching pattern).Touches keys fun listed => ∀ key ∈ listed, Text.glob pattern.toList key.toList = true := by
  intro w
  have hsilent : ∀ key, (Command.list pattern).covers key = true → keys key := fun _ hkey => by cases hkey
  obtain ⟨htraced, hreply⟩ :=
    touches_reporting "keys_matching" [("pattern", .str pattern)] (.list pattern) hsilent w
  refine ⟨htraced, fun listed hlisted key hkey => ?_⟩
  obtain ⟨s, rfl⟩ := hreply listed hlisted
  rw [← s.matcher.accepts_of_isSimple hpattern]
  exact ((s.mem_matching pattern key).1 hkey).2

theorem touches_removeMany {removed : List String} {keys : String → Prop} (h : ∀ key ∈ removed, keys key) :
    (removeMany removed).Touches keys fun _ => True := by
  rw [removeMany]
  split
  · exact .pure trivial
  · intro w
    obtain ⟨htraced, -⟩ := touches_reporting "delete_many" [("count", .nat removed.length)] (.remove removed)
      (fun key hkey => h key (of_decide_eq_true hkey)) w
    exact ⟨htraced, fun _ _ => trivial⟩

end Store

namespace Cache

/-- A removal by a simple pattern touches only keys that match it. -/
theorem touches_deleteByPattern {pattern : String} (hpattern : Text.IsSimple pattern) :
    (deleteByPattern pattern).Touches (fun key => Text.glob pattern.toList key.toList = true) fun _ => True := by
  refine .contain (.bind (Store.touches_keysMatching hpattern) fun listed hlisted => ?_)
    fun f => .bind (.note _) fun _ _ => .pure trivial
  split
  · exact .pure trivial
  · exact .bind (Store.touches_removeMany hlisted) fun _ _ => .bind (.note _) fun _ _ => .pure trivial

theorem touches_invalidateEntity {type name : String} (htype : Text.IsSimple type) (hname : Text.IsSimple name) :
    (invalidateEntity (.str type) (.str name)).Touches
      (fun key => Text.glob (entityPattern type name).toList key.toList = true) fun _ => True := by
  rw [invalidateEntity, Key.segment_str, Json.plain]
  exact .bind (touches_deleteByPattern (isSimple_entityPattern htype hname)) fun _ _ =>
    .bind (.note _) fun _ _ => .pure trivial

/-- In every world, whatever fails, invalidating an entity whose type and name stand for themselves in patterns touches
no key about another entity: what stands there is left to time, and is the same where no time passes. -/
theorem invalidateEntity_spares {e e' : Entity} (htype : Text.IsVerbatim e.type) (hname : Text.IsVerbatim e.name)
    (hne : e ≠ e') (w : World) : ∃ exchanges,
    Traced w ((invalidateEntity (.str e.type) (.str e.name)).run w).2 exchanges ∧
      ∀ space tail, Key.IsSegment space → Key.IsSegment tail →
        (∀ x ∈ exchanges, x.touches (e'.key space tail) = false) ∧
        ((invalidateEntity (.str e.type) (.str e.name)).run w).2.server.find? (e'.key space tail) =
          Entry.aged (w.network.pauses w.history exchanges) (w.server.find? (e'.key space tail)) ∧
        (w.network.IsPrompt → ((invalidateEntity (.str e.type) (.str e.name)).run w).2.server.find?
          (e'.key space tail) = w.server.find? (e'.key space tail)) := by
  obtain ⟨⟨exchanges, htraced, htouched⟩, -⟩ := touches_invalidateEntity htype.isSimple hname.isSimple w
  refine ⟨exchanges, htraced, fun space tail hspace htail => ?_⟩
  have huntouched : ∀ x ∈ exchanges, x.touches (e'.key space tail) = false := fun x hx =>
    Bool.eq_false_iff.2 fun htouches =>
      hne (Entity.eq_of_glob_pattern htype hname hspace htail (htouched x hx _ htouches))
  have hfind := htraced.find?_of_untouched huntouched
  refine ⟨huntouched, hfind, fun hprompt => ?_⟩
  rw [hfind, Entry.aged_zero (Network.pauses_of_isPrompt hprompt _ _)]

/-- What is about an asset with a longer name stays. -/
theorem invalidateEntity_spares_longer :
    let e := Entity.asset "XLM" (by decide)
    let key := (Entity.asset "XLMX" (by decide)).key "market" "price"
    key = "cache:market:asset:XLMX:price" ∧
      ((invalidateEntity (.str e.type) (.str e.name)).run mentioning).2.server.find? key = some ⟨"[4]", none⟩ := by
  have hne : Entity.asset "XLM" (by decide) ≠ Entity.asset "XLMX" (by decide) :=
    fun h => absurd (congrArg Entity.name h) (by decide)
  have hverbatim : Text.IsVerbatim "asset" ∧ Text.IsVerbatim "XLM" := by decide
  obtain ⟨exchanges, -, hspared⟩ := invalidateEntity_spares hverbatim.1 hverbatim.2 hne mentioning
  obtain ⟨-, -, hkept⟩ := hspared "market" "price" (by decide) (by decide)
  exact ⟨rfl, (hkept (World.isPrompt_fresh _)).trans rfl⟩

/-- Where no call fails, everything about the entities whose types and names match goes. -/
theorem invalidateEntity_reaches {w : World} (hw : w.network.NeverFails) {e e' : Entity}
    (hpattern : Text.IsSimple e.type ∧ Text.IsSimple e.name)
    (htype : Text.glob e.type.toList e'.type.toList = true) (hname : Text.glob e.name.toList e'.name.toList = true)
    {space tail : String} (hspace : Key.IsSegment space) (htail : Key.IsSegment tail) :
    ((invalidateEntity (.str e.type) (.str e.name)).run w).2.server.find? (e'.key space tail) = none := by
  obtain ⟨w₁, exchanges, hrun, hswept⟩ := deleteByPattern_removes (entityPattern e.type e.name) hw
  rw [run_invalidateEntity, Key.segment_str, Json.plain, hrun]
  refine (hswept.entries _).trans (if_pos ?_)
  rw [w.server.matcher.accepts_of_isSimple (isSimple_entityPattern hpattern.1 hpattern.2)]
  exact (e.glob_pattern e' hspace htail).2 ⟨htype, hname⟩

/-- An asset whose name holds a star takes along what is about another one. -/
theorem invalidateEntity_takes_other : ∃ (e e' : Entity) (w : World), e ≠ e' ∧ e.name = "X*" ∧ e'.name = "XLM" ∧
    w.server.find? (e'.key "market" "price") = some ⟨"[1]", none⟩ ∧
    ((invalidateEntity (.str e.type) (.str e.name)).run w).2.server.find? (e'.key "market" "price") = none := by
  have hne : Entity.asset "X*" (by decide) ≠ Entity.asset "XLM" (by decide) :=
    fun h => absurd (congrArg Entity.name h) (by decide)
  have hcalm := World.neverFails_fresh [("cache:market:asset:XLM:price", ⟨"[1]", none⟩)]
  exact ⟨Entity.asset "X*" (by decide), Entity.asset "XLM" (by decide), _, hne, rfl, rfl, rfl,
    invalidateEntity_reaches hcalm (by decide) (by decide) (by decide) (by decide) (by decide)⟩

end Cache
end CacheAside
