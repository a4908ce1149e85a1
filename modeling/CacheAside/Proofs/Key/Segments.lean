import CacheAside.Key

/-! # Keys and their segments

Every key is cut in just one way into segments that hold no separator (`Key.isCut_iff`), so what was built of such
segments reads back as them. Building leaves out the empty segments; a key that has some does not come back, but
what comes back in its place has none, and stays as it is from then on. -/

namespace CacheAside
set_option autoImplicit false

/-! ## Cutting and joining -/

namespace Text

theorem not_mem_of_mem_split {sep : Char} {cs w : List Char} (h : w ∈ split sep cs) : sep ∉ w := by
  induction cs generalizing w with
  | nil =>
    rw [split_nil, List.mem_singleton] at h
    simp [h]
  | cons c cs ih =>
    by_cases hc : c = sep
    · subst hc
      rw [split_cons_sep, List.mem_cons] at h
      rcases h with rfl | h
      · simp
      · exact ih h
    · obtain ⟨v, vs, hsplit, hcons⟩ := split_cons_of_ne hc cs
      rw [hsplit] at ih
      rw [hcons, List.mem_cons] at h
      rcases h with rfl | h
      · simp only [List.mem_cons, not_or]
        exact ⟨Ne.symm hc, ih (List.mem_cons_self ..)⟩
      · exact ih (List.mem_cons_of_mem _ h)

theorem join_eq_intercalate (sep : Char) (ws : List (List Char)) : join sep ws = [sep].intercalate ws := by
  induction ws with
  | nil => rfl
  | cons w ws ih =>
    cases ws with
    | nil => simp
    | cons v vs =>
      rw [join_cons w (List.cons_ne_nil v vs), ih, List.intercalate_cons_cons, List.append_assoc,
        List.singleton_append]

/-- Segments in front of others make up the start of the text. -/
theorem join_prefix (sep : Char) (vs ws : List (List Char)) : join sep vs <+: join sep (vs ++ ws) := by
  induction vs with
  | nil => exact List.nil_prefix
  | cons v vs ih =>
    cases vs with
    | nil =>
      cases ws with
      | nil => exact List.prefix_rfl
      | cons w ws => exact List.prefix_append v _
    | cons u us =>
      have htail : u :: us ++ ws ≠ [] := by simp
      rw [List.cons_append, join_cons v (List.cons_ne_nil u us), join_cons v htail, List.prefix_append_right_inj,
        List.cons_prefix_cons]
      exact ⟨rfl, ih⟩

end Text

namespace Key

theorem segments_ofSegments {ws : List String} (hne : ws ≠ []) (h : ∀ w ∈ ws, separator ∉ w.toList) :
    segments (ofSegments ws) = ws := by
  have hsplit : Text.split separator (Text.join separator (ws.map String.toList)) = ws.map String.toList := by
    refine Text.split_join (by simpa using hne) ?_
    intro w hw
    obtain ⟨s, hs, rfl⟩ := List.mem_map.1 hw
    exact h s hs
  rw [segments, ofSegments, String.toList_ofList, hsplit, List.map_map]
  exact (List.map_congr_left fun s _ => String.ofList_toList).trans (List.map_id ws)

theorem ofSegments_segments (key : String) : ofSegments (segments key) = key := by
  have htexts : (segments key).map String.toList = Text.split separator key.toList := by
    rw [segments, List.map_map]
    exact (List.map_congr_left fun cs _ => String.toList_ofList).trans (List.map_id _)
  rw [ofSegments, htexts, Text.join_split, String.ofList_toList]

theorem segments_ne_nil (key : String) : segments key ≠ [] := by
  simpa [segments] using Text.split_ne_nil separator key.toList

theorem separator_not_mem_of_mem {key s : String} (h : s ∈ segments key) : separator ∉ s.toList := by
  obtain ⟨cs, hcs, rfl⟩ := List.mem_map.1 h
  rw [String.toList_ofList]
  exact Text.not_mem_of_mem_split hcs

theorem ofSegments_eq_intercalate (ws : List String) : ofSegments ws = ":".intercalate ws := by
  rw [ofSegments, Text.join_eq_intercalate, ← String.toList_inj, String.toList_ofList, String.toList_intercalate]
  rfl

/-- Whether a key consists of these texts, with a colon between neighbours and none inside. -/
structure IsCut (key : String) (ws : List String) : Prop where
  ne_nil : ws ≠ []
  free : ∀ w ∈ ws, ':' ∉ w.toList
  joined : ":".intercalate ws = key

/-- A key is cut into its segments and in no other way. -/
theorem isCut_iff {key : String} {ws : List String} : IsCut key ws ↔ ws = segments key := by
  constructor
  · rintro ⟨hne, hfree, rfl⟩
    rw [← ofSegments_eq_intercalate, segments_ofSegments hne hfree]
  · rintro rfl
    refine ⟨segments_ne_nil key, fun w hw => separator_not_mem_of_mem hw, ?_⟩
    rw [← ofSegments_eq_intercalate, ofSegments_segments]

/-! ## Building -/

/-- Whether a text can be one segment of a key. -/
structure IsSegment (s : String) : Prop where
  nonempty : s ≠ ""
  free : separator ∉ s.toList

instance (s : String) : Decidable (IsSegment s) :=
  decidable_of_iff (s ≠ "" ∧ separator ∉ s.toList) ⟨fun h => ⟨h.1, h.2⟩, fun h => ⟨h.nonempty, h.free⟩⟩

theorem build_texts (ws : List String) : build (ws.map .str) = ofSegments (ws.filter (· ≠ "")) := by
  have hplain : (Json.plain ∘ Json.str : String → String) = id := rfl
  rw [build, List.filter_map, List.map_map, hplain, List.map_id]
  congr 2
  funext s
  simp [Json.isBlank]

theorem parse_eq {key head : String} {rest : List String} (h : segments key = head :: rest) :
    parse key = ⟨head, rest⟩ := by
  rw [parse, h]

theorem head_cons_rest (key : String) : (parse key).head :: (parse key).rest = segments key := by
  obtain ⟨head, rest, h⟩ := List.exists_cons_of_ne_nil (segments_ne_nil key)
  rw [parse_eq h, h]

/-- The key that is built from what a key reads as. -/
def rebuild (key : String) : String := build (.str (parse key).head :: (parse key).rest.map .str)

theorem rebuild_eq (key : String) : rebuild key = ofSegments ((segments key).filter (· ≠ "")) := by
  rw [rebuild, ← List.map_cons, head_cons_rest, build_texts]

/-- Building anew changes none but the empty segments. -/
theorem filled_rebuild (key : String) :
    (segments (rebuild key)).filter (· ≠ "") = (segments key).filter (· ≠ "") := by
  rw [rebuild_eq]
  by_cases hempty : (segments key).filter (· ≠ "") = []
  · rw [hempty]
    rfl
  · rw [segments_ofSegments hempty fun w hw => separator_not_mem_of_mem (List.mem_filter.1 hw).1,
      List.filter_filter]
    simp

/-! ## Stems -/

theorem segments_stem (key : String) : segments (stem key) = (segments key).take 2 := by
  refine segments_ofSegments ?_ fun w hw => separator_not_mem_of_mem (List.mem_of_mem_take hw)
  simpa using segments_ne_nil key

theorem exists_stem_append (key : String) : ∃ rest, key = stem key ++ rest := by
  have hprefix := Text.join_prefix separator (((segments key).take 2).map String.toList)
    (((segments key).drop 2).map String.toList)
  rw [← List.map_append, List.take_append_drop] at hprefix
  obtain ⟨rest, hrest⟩ := hprefix
  refine ⟨String.ofList rest, ?_⟩
  calc key = String.ofList (Text.join separator ((segments key).map String.toList)) := (ofSegments_segments key).symm
    _ = stem key ++ String.ofList rest := by rw [← hrest, String.ofList_append]; rfl

/-- A key that is built of segments reads as them. Every key is cut in one way only; building anew what it reads as
leaves out the segments that are empty, which changes nothing where there are none or where it was done before; and
its stem is what its first two segments make, which it begins with and which is its own stem. -/
theorem parse_inverts_build :
    (∀ head rest, (∀ s ∈ head :: rest, IsSegment s) → parse (build (.str head :: rest.map .str)) = ⟨head, rest⟩) ∧
    ∀ key, ∃ ws, (∀ vs, IsCut key vs ↔ vs = ws) ∧
      rebuild key = ":".intercalate (ws.filter (· ≠ "")) ∧
      ((∀ w ∈ ws, w ≠ "") → rebuild key = key) ∧
      rebuild (rebuild key) = rebuild key ∧
      stem key = ":".intercalate (ws.take 2) ∧
      (∃ rest, key = stem key ++ rest) ∧
      stem (stem key) = stem key := by
  constructor
  · intro head rest h
    have hfilled : (head :: rest).filter (· ≠ "") = head :: rest :=
      List.filter_eq_self.2 fun s hs => decide_eq_true (h s hs).nonempty
    refine parse_eq ?_
    rw [← List.map_cons, build_texts, hfilled]
    exact segments_ofSegments (List.cons_ne_nil head rest) fun s hs => (h s hs).free
  · intro key
    refine ⟨segments key, fun vs => isCut_iff, ?_, ?_, ?_, ?_, exists_stem_append key, ?_⟩
    · rw [rebuild_eq, ofSegments_eq_intercalate]
    · intro hfilled
      rw [rebuild_eq, List.filter_eq_self.2 fun w hw => decide_eq_true (hfilled w hw), ofSegments_segments]
    · rw [rebuild_eq (rebuild key), filled_rebuild, rebuild_eq]
    · rw [stem, ofSegments_eq_intercalate]
    · rw [stem, segments_stem, List.take_take, Nat.min_self, stem]

/-- Colons at either end and beside each other go away, and the stem keeps the empty segment in front. -/
theorem parse_inverts_build_sparse :
    parse (build [.str "cache", .str "market", .str "snapshot"]) = ⟨"cache", ["market", "snapshot"]⟩ ∧
      rebuild ":cache::market:" = "cache:market" ∧ rebuild "cache:market" = "cache:market" ∧
      stem ":cache::market:" = ":cache" := by
  have hread := parse_inverts_build.1 "cache" ["market", "snapshot"] (by decide)
  obtain ⟨ws, hcut, -, hsame, -, -, -, -⟩ := parse_inverts_build.2 "cache:market"
  have hws : ["cache", "market"] = ws := (hcut _).1 ⟨by simp, by decide, by decide⟩
  refine ⟨hread, by decide, hsame ?_, by decide⟩
  rw [← hws]
  decide

end Key
end CacheAside
