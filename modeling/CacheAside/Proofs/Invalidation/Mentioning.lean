import CacheAside.Proofs.Invalidation.Sweeping

/-! # Removing what mentions an entity

A key mentions an entity when the type of the entity, followed by its name if it has one, stands somewhere in it
between two colons, with a further colon before that (`Cache.Mentions`). The pattern of the entity has a star on
either side, and matches just the keys that mention it: it makes no difference where in the key, how often, or how
the places overlap. Where no call fails, invalidating the entity removes these keys and answers their number. -/

namespace CacheAside
set_option autoImplicit false

/-! ## Patterns with a star on either side -/

/-- The stars take up whatever stands before and after. -/
theorem Text.glob_between {start middle : String} (hstart : IsVerbatim start) (hmiddle : IsVerbatim middle)
    (key : String) : glob (start ++ "*" ++ middle ++ "*").toList key.toList = true ↔
      ∃ u v, key = start ++ u ++ middle ++ v := by
  have hpattern : (start ++ "*" ++ middle ++ "*").toList = start.toList ++ '*' :: (middle.toList ++ ['*']) := by
    simp [String.toList_append]
  rw [hpattern, glob_literal_append hstart.isLiteral]
  simp only [glob_star, matches_star_end hmiddle.isLiteral]
  constructor
  · rintro ⟨-, hkey, u, -, rfl, v, rfl⟩
    refine ⟨String.ofList u, String.ofList v, String.toList_inj.1 ?_⟩
    simp [hkey, String.toList_append]
  · rintro ⟨u, v, rfl⟩
    exact ⟨_, by simp [String.toList_append], u.toList, _, rfl, v.toList, rfl⟩

/-! ## The count of a removal -/

theorem Table.size_sub_size_keep {α : Type} (t : Table α) (p : String → Bool) :
    t.size - (t.keep fun k _ => !p k).size = (t.keys.filter p).length := by
  have hkeys : (t.keys.filter p).length = (t.rows.filter fun row => p row.1).length := by
    rw [keys, Rows.keys, List.filter_map, List.length_map]
    rfl
  have hsplit := List.length_eq_length_filter_add (l := t.rows) fun row => p row.1
  rw [hkeys, size, keep, size, hsplit, Nat.add_sub_cancel]

theorem Server.nodup_matching (s : Server) (pattern : String) : (s.matching pattern).Nodup := by
  have hdistinct : (s.entries.keys.filter (s.matcher.accepts pattern)).Nodup := s.entries.distinct.filter _
  exact (List.mergeSort_perm _ _).nodup_iff.2 hdistinct

/-- Some time after a listing, the keys that are removed are those that still match. -/
theorem Server.removed_of_listed (s : Server) (pattern : String) (ds : List ℕ) :
    ((s.waits ds).apply (.remove (s.matching pattern))).1 = ((s.waits ds).matching pattern).length := by
  have hlisted : ∀ key ∈ (s.waits ds).entries.keys,
      decide (key ∈ s.matching pattern) = s.matcher.accepts pattern key := by
    intro key hkey
    obtain ⟨e, he⟩ := Table.mem_keys_iff.1 hkey
    rw [Bool.eq_iff_iff, decide_eq_true_iff, mem_matching, and_iff_right_iff_imp]
    intro _
    -- what is there now was there at the listing
    cases hfind : s.find? key with
    | some e => exact ⟨e, rfl⟩
    | none => exact absurd (he.symm.trans (find?_waits_eq_none hfind ds)) (Option.some_ne_none e)
  have hcount := Table.size_sub_size_keep (s.waits ds).entries fun key => decide (key ∈ s.matching pattern)
  rw [List.filter_congr hlisted] at hcount
  have hlength : ((s.waits ds).matching pattern).length =
      ((s.waits ds).entries.keys.filter (s.matcher.accepts pattern)).length := by
    rw [matching, matcher_waits]
    exact List.length_mergeSort _
  rw [hlength, ← hcount]
  simp only [apply, without, decide_not]

/-- A call on a network that never fails is answered. -/
theorem Sent.answer {c : Command} {w w' : World} {r : Except Failure c.Reply} (h : Sent c w r w')
    (hw : w.network.NeverFails) : ∃ exchanges, Traced w w' exchanges ∧
      let arrival := w.server.waits (w.network.pauses w.history exchanges)
      r = .ok (arrival.apply c).1 ∧ w'.server = (arrival.apply c).2 := by
  obtain ⟨exchanges, hsettled, hne, hreport⟩ := h.report
  have hthrough := hsettled.traced.wentThrough hw hne
  refine ⟨exchanges, hsettled.traced, ?_⟩
  obtain ⟨f, -, -, hfailed, -⟩ | ⟨hr, -, hserver, -⟩ := hreport
  · rw [hthrough] at hfailed
    cases hfailed
  · exact ⟨hr, hserver⟩

namespace Cache
variable {w : World}

theorem count_deleteByPattern (pattern : String) (hw : w.network.NeverFails) :
    ∃ exchanges, Traced w ((deleteByPattern pattern).run w).2 exchanges ∧ ((deleteByPattern pattern).run w).1 =
      .ok ((w.server.waits (w.network.pauses w.history exchanges)).matching pattern).length := by
  obtain ⟨listing, ht, hlisted, hserver⟩ := (Store.sent_keysMatching pattern hw.contained).answer hw
  rw [run_deleteByPattern]
  rcases hlist : (Store.keysMatching pattern).run w with ⟨r, w₁⟩
  rw [hlist] at ht hlisted hserver
  simp only at hlisted
  have harrival : w₁.server = w.server.waits (w.network.pauses w.history listing) := hserver
  have hkeys : r = .ok (w₁.server.matching pattern) := by
    rw [harrival, hlisted]
    rfl
  subst hkeys
  simp only
  cases hempty : (w₁.server.matching pattern).isEmpty with
  | true =>
    refine ⟨listing, ht, ?_⟩
    rw [← harrival, List.isEmpty_iff.1 hempty]
    rfl
  | false =>
    have hne : w₁.server.matching pattern ≠ [] := by
      intro h
      rw [h] at hempty
      cases hempty
    obtain ⟨removing, ht₂, hcount, -⟩ :=
      (Store.sent_removeMany hne (ht.contained hw.contained)).answer (ht.neverFails hw)
    rw [Server.removed_of_listed, waits_of_traced ht harrival removing] at hcount
    simp only [Bool.false_eq_true, if_false]
    rcases hremove : (Store.removeMany (w₁.server.matching pattern)).run w₁ with ⟨r, w₂⟩
    rw [hremove] at ht₂ hcount
    simp only at hcount
    subst hcount
    exact ⟨removing ++ listing, (ht.trans ht₂).withMemory _, rfl⟩

/-- Where no call fails, the keys that match a pattern are removed and counted. -/
theorem deleteByPattern_removes (pattern : String) (hw : w.network.NeverFails) :
    ∃ w' exchanges, (deleteByPattern pattern).run w =
        (.ok ((w.server.waits (w.network.pauses w.history exchanges)).matching pattern).length, w') ∧
      Swept w w' exchanges (w.server.matcher.accepts pattern) := by
  obtain ⟨n, w', exchanges, hrun, hswept⟩ := sweeps_deleteByPattern (I := fun _ => True) pattern w hw trivial
  obtain ⟨exchanges', ht, hcount⟩ := count_deleteByPattern pattern hw
  rw [hrun] at ht hcount
  obtain rfl : exchanges' = exchanges := ht.exchanges_eq.symm.trans hswept.traced.exchanges_eq
  simp only [List.any_cons, List.any_nil, Bool.or_false] at hswept
  exact ⟨w', exchanges', by rw [hrun, ← hcount], hswept⟩

/-! ## Entities -/

/-- Whether a key mentions an entity of a type, by name unless it has none. -/
def Mentions (type : String) (name : Option String) (key : String) : Prop :=
  ∃ u v, key =
    if name.getD "" = "" then "cache:" ++ u ++ ":" ++ type ++ ":" ++ v
    else "cache:" ++ u ++ ":" ++ type ++ ":" ++ name.getD "" ++ ":" ++ v

theorem segment_ofOption (name : Option String) : Key.segment (Json.ofOption .str name) = name.getD "" := by
  cases name with
  | none => rfl
  | some s => exact Key.segment_str s

theorem isSimple_entityPattern {type name : String} (htype : Text.IsSimple type) (hname : Text.IsSimple name) :
    Text.IsSimple (entityPattern type name) := by
  have hstart : Text.IsSimple "cache:*:" := by decide
  have hend : Text.IsSimple ":*" := by decide
  rw [entityPattern]
  split
  · exact (hstart.append htype).append hend
  · exact (((hstart.append htype).append (by decide)).append hname).append hend

theorem isSimple_getD {name : Option String} (hname : ∀ s ∈ name, Text.IsVerbatim s) :
    Text.IsSimple (name.getD "") := by
  cases name with
  | none => decide
  | some s => exact (hname s rfl).isSimple

/-- However a server reads patterns, that of an entity matches what mentions it. -/
theorem accepts_entityPattern (m : Matcher) {type : String} {name : Option String} (htype : Text.IsVerbatim type)
    (hname : ∀ s ∈ name, Text.IsVerbatim s) (key : String) :
    m.accepts (entityPattern type (name.getD "")) key = true ↔ Mentions type name key := by
  rw [m.accepts_of_isSimple (isSimple_entityPattern htype.isSimple (isSimple_getD hname))]
  have hstart : Text.IsVerbatim "cache:" := by decide
  have hcolon : Text.IsVerbatim ":" := by decide
  rw [Mentions, entityPattern]
  by_cases hblank : name.getD "" = ""
  · have hmiddle := (hcolon.append htype).append hcolon
    have hpattern : "cache:*:" ++ type ++ ":*" = "cache:" ++ "*" ++ (":" ++ type ++ ":") ++ "*" := by
      rw [← String.toList_inj]
      simp [String.toList_append]
    simp only [hblank, if_true]
    rw [hpattern, Text.glob_between hstart hmiddle]
    simp only [String.append_assoc]
  · obtain ⟨s, rfl⟩ : ∃ s, name = some s := by
      cases name with
      | none => exact absurd rfl hblank
      | some s => exact ⟨s, rfl⟩
    have hmiddle := (((hcolon.append htype).append hcolon).append (hname s rfl)).append hcolon
    have hpattern : "cache:*:" ++ type ++ ":" ++ s ++ ":*" =
        "cache:" ++ "*" ++ (":" ++ type ++ ":" ++ s ++ ":") ++ "*" := by
      rw [← String.toList_inj]
      simp [String.toList_append]
    rw [Option.getD_some] at hblank
    simp only [Option.getD_some, hblank, if_false]
    rw [hpattern, Text.glob_between hstart hmiddle]
    simp only [String.append_assoc]

/-- Where no call fails, invalidating an entity whose type and name stand for themselves in patterns removes exactly
the keys that mention it, answers how many these are, and leaves every other entry to time, which does not touch
it on a network without delays. -/
theorem invalidateEntity_removes (hw : w.network.NeverFails) {type : String} {name : Option String}
    (htype : Text.IsVerbatim type) (hname : ∀ s ∈ name, Text.IsVerbatim s) :
    ∃ w' exchanges removed, (invalidateEntity (.str type) (Json.ofOption .str name)).run w =
        (.ok (List.length removed), w') ∧ Traced w w' exchanges ∧
      let arrival := w.server.waits (w.network.pauses w.history exchanges)
      removed.Nodup ∧ (∀ key, key ∈ removed ↔ (∃ e, arrival.find? key = some e) ∧ Mentions type name key) ∧
      (∀ key, Mentions type name key → w'.server.find? key = none) ∧
      (∀ key, ¬Mentions type name key → w'.server.find? key = arrival.find? key) ∧
      (w.network.IsPrompt → ∀ key, arrival.find? key = w.server.find? key) := by
  have haccepts := accepts_entityPattern w.server.matcher htype hname
  obtain ⟨w₁, exchanges, hrun, hswept⟩ := deleteByPattern_removes (entityPattern type (name.getD "")) hw
  set arrival := w.server.waits (w.network.pauses w.history exchanges)
  rw [run_invalidateEntity, segment_ofOption, Json.plain, hrun]
  refine ⟨_, exchanges, arrival.matching (entityPattern type (name.getD "")), rfl, hswept.traced.withMemory _, ?_⟩
  refine ⟨arrival.nodup_matching _, fun key => ?_, fun key hkey => ?_, fun key hkey => ?_, fun hprompt key => ?_⟩
  · rw [Server.mem_matching, Server.matcher_waits, haccepts]
  · exact (hswept.entries key).trans (if_pos ((haccepts key).2 hkey))
  · exact (hswept.entries key).trans (if_neg fun h => hkey ((haccepts key).1 h))
  · rw [Server.find?_waits]
    exact Entry.aged_zero (Network.pauses_of_isPrompt hprompt _ _) _

/-- Four entries: the first mentions the asset in two places that overlap, the second as early as can be, the third
lacks a colon before it, and the fourth is about an asset with a longer name. -/
def mentioning : World := World.fresh [("cache:x:asset:XLM:asset:XLM:", ⟨"[1]", none⟩),
  ("cache::asset:XLM:price", ⟨"[2]", none⟩), ("cache:asset:XLM:price", ⟨"[3]", some (.whole 60)⟩),
  ("cache:market:asset:XLMX:price", ⟨"[4]", none⟩)]

/-- The first two entries go, and the third keeps its text and its seconds. -/
theorem invalidateEntity_removes_twice : ∃ w',
    (invalidateEntity (.str "asset") (.str "XLM")).run mentioning = (.ok 2, w') ∧
      w'.server.find? "cache::asset:XLM:price" = none ∧
      w'.server.find? "cache:asset:XLM:price" = some ⟨"[3]", some (.whole 60)⟩ := by
  have htype : Text.IsVerbatim "asset" := by decide
  have hname : ∀ s ∈ some "XLM", Text.IsVerbatim s := by decide
  have hmentions := accepts_entityPattern mentioning.server.matcher htype hname
  obtain ⟨w', exchanges, removed, hrun, -, hnodup, hmem, hgone, hkept, hprompt⟩ :=
    invalidateEntity_removes (w := mentioning) (World.neverFails_fresh _) htype hname
  have hprompt := hprompt (World.isPrompt_fresh _)
  have hperm : removed.Perm (mentioning.server.matching (entityPattern "asset" "XLM")) := by
    refine (List.perm_ext_iff_of_nodup hnodup (Server.nodup_matching _ _)).2 fun key => ?_
    rw [hmem, hprompt, ← hmentions, Server.mem_matching]
    rfl
  have hlength : removed.length = 2 := by
    rw [hperm.length_eq, Server.matching, List.length_mergeSort]
    decide
  refine ⟨w', by rw [← hlength]; exact hrun, hgone _ ((hmentions _).1 (by decide)), ?_⟩
  rw [hkept _ fun h => absurd ((hmentions _).2 h) (by decide), hprompt]
  rfl

end Cache
end CacheAside
