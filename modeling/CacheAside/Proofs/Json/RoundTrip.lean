import CacheAside.Proofs.Json.Numeral
import CacheAside.Proofs.Json.Strings

/-! # Written values read back

A value in which no object repeats a name is read back from its text, as long as its digits and its brackets
keep within the limits (`read_text`). The induction is on the value, with what follows its text and the fuel
left open. Wider limits read no value differently (`read_wider`), so that only the value itself is ever read from its
text (`eq_of_read_text`). -/

namespace CacheAside.Json
set_option autoImplicit false

/-! ## Names -/

mutual
/-- Whether no object in a value has two members of one name. -/
def isWellNamed : Json → Bool
  | .arr vs => itemsWellNamed vs
  | .obj ms => decide (Rows.keys ms).Nodup && membersWellNamed ms
  | _ => true

def itemsWellNamed : List Json → Bool
  | [] => true
  | v :: vs => isWellNamed v && itemsWellNamed vs

def membersWellNamed : List (String × Json) → Bool
  | [] => true
  | (_, v) :: ms => isWellNamed v && membersWellNamed ms
end

theorem put_of_not_mem {α : Type} {k : String} {v : α} {rows : List (String × α)} (h : k ∉ Rows.keys rows) :
    Rows.put k v rows = rows ++ [(k, v)] := by
  induction rows with
  | nil => rfl
  | cons row rows ih =>
    obtain ⟨k', v'⟩ := row
    simp only [Rows.keys, List.map_cons, List.mem_cons, not_or] at h
    rw [Rows.put, if_neg (Ne.symm h.1), ih h.2, List.cons_append]

/-- Distinct names stay as they are. -/
theorem collect_of_nodup {α : Type} {rows : List (String × α)} (h : (Rows.keys rows).Nodup) :
    Rows.collect rows = rows := by
  have hfold : ∀ (rows acc : List (String × α)), (Rows.keys (acc ++ rows)).Nodup →
      rows.foldl (fun acc row => Rows.put row.1 row.2 acc) acc = acc ++ rows := by
    intro rows
    induction rows with
    | nil => intro acc _; simp
    | cons row rows ih =>
      intro acc h
      have hnew : row.1 ∉ Rows.keys acc := by
        intro hmem
        rw [Rows.keys, List.map_append, List.map_cons, List.nodup_append] at h
        exact h.2.2 _ hmem _ List.mem_cons_self rfl
      rw [List.foldl_cons, put_of_not_mem hnew, ih _ (by simpa using h)]
      simp
  exact hfold rows [] h

/-! ## The first character -/

theorem head_of_readNumber {limits : Limits} {cs : List Char} {r : Json × List Char}
    (h : readNumber limits cs = .ok r) :
    (∃ c t, cs = c :: t ∧ isDigit c = true) ∨ ∃ c t, cs = '-' :: c :: t ∧ isDigit c = true := by
  have hwhole : ∀ ds, readWhole ds ≠ none → ∃ c t, ds = c :: t ∧ isDigit c = true := by
    intro ds hds
    cases ds with
    | nil => exact absurd rfl hds
    | cons c t =>
      refine ⟨c, t, rfl, ?_⟩
      by_contra hc
      refine hds ?_
      rw [readWhole, if_neg hc, if_neg]
      rintro rfl
      exact hc (by decide)
  unfold readNumber at h
  simp only at h
  split at h
  · cases h
  · rename_i hread
    obtain ⟨c, t, hcs, hc⟩ := hwhole _ (by rw [hread]; simp)
    split at hcs
    · rename_i hminus
      cases cs with
      | nil => cases hminus
      | cons d ds =>
        cases hminus
        exact .inr ⟨c, t, by rw [← hcs]; rfl, hc⟩
    · exact .inl ⟨c, t, hcs, hc⟩

/-- A text that begins with a number is read as one. -/
theorem readValue_of_readNumber {limits : Limits} {cs : List Char} {r : Json × List Char}
    (h : readNumber limits cs = .ok r) (fuel free : ℕ) :
    readValue limits (fuel + 1) free cs = .ok r := by
  rw [← h]
  have hother : ∀ c, isDigit c = true →
      c ≠ '"' ∧ c ≠ '[' ∧ c ≠ '\x7b' ∧ c ≠ 'n' ∧ c ≠ 't' ∧ c ≠ 'f' ∧ c ≠ 'N' ∧ c ≠ 'I' ∧ c ≠ '-' := by
    intro c hc
    refine ⟨?_, ?_, ?_, ?_, ?_, ?_, ?_, ?_, ?_⟩
    all_goals
      rintro rfl
      exact absurd hc (by decide)
  obtain ⟨c, t, rfl, hc⟩ | ⟨c, t, rfl, hc⟩ := head_of_readNumber h
  · have := hother c hc
    unfold readValue
    split <;> simp_all
  · have := hother c hc
    unfold readValue
    split <;> simp_all

/-! ## Doubles -/

theorem readValue_float (limits : Limits) (fuel free : ℕ) (x : Float) {cs : List Char} (hcs : Closed cs) :
    readValue limits (fuel + 1) free (Number.chars jsonNumber x ++ cs) = .ok (.float x, cs) := by
  cases hnan : x.isNaN with
  | true =>
    have hchars : Number.chars jsonNumber x = "NaN".toList := by rw [Number.chars, if_pos hnan]; rfl
    rw [hchars, eq_nan hnan]
    rfl
  | false =>
    cases hinf : x.isInf with
    | true =>
      have hchars : Number.chars jsonNumber x =
          (if Number.isNegative x then "-Infinity" else "Infinity").toList := by
        rw [Number.chars, if_neg (ne_true_of_eq_false hnan), if_pos hinf]
        rfl
      have hx := eq_infinity hinf
      cases hneg : Number.isNegative x with
      | true =>
        rw [hneg, if_pos rfl] at hx
        rw [hchars, hneg, if_pos rfl, hx]
        rfl
      | false =>
        rw [hneg, if_neg (by decide)] at hx
        rw [hchars, hneg, if_neg (by decide), hx]
        rfl
    | false => exact readValue_of_readNumber (readNumber_chars limits hnan hinf hcs) fuel free

/-! ## The front of a written value -/

/-- What a value begins with is neither a blank nor a closing bracket. -/
theorem write_begins (v : Json) : ∃ c cs, write v = c :: cs ∧ isBlankChar c = false ∧ c ≠ ']' := by
  have hnumber : ∀ limits cs r, readNumber limits cs = .ok r →
      ∃ c t, cs = c :: t ∧ isBlankChar c = false ∧ c ≠ ']' := by
    intro limits cs r h
    obtain ⟨c, t, rfl, hc⟩ | ⟨c, t, rfl, -⟩ := head_of_readNumber h
    · refine ⟨c, t, rfl, ?_, ?_⟩
      · rw [isBlankChar, decide_eq_false_iff_not]
        rintro (rfl | rfl | rfl | rfl) <;> exact absurd hc (by decide)
      · rintro rfl
        exact absurd hc (by decide)
    · exact ⟨'-', c :: t, rfl, by decide, by decide⟩
  cases v with
  | null => exact ⟨_, _, by rw [write], by decide, by decide⟩
  | bool b => cases b <;> exact ⟨_, _, by rw [write], by decide, by decide⟩
  | int i =>
    have h := readNumber_intChars ⟨_, 1, Nat.one_pos⟩ (le_refl (Decimal.width i.natAbs)) closed_nil
    rw [List.append_nil] at h
    rw [write]
    exact hnumber _ _ _ h
  | float x =>
    rw [write]
    cases hnan : x.isNaN with
    | true =>
      rw [Number.chars, if_pos hnan]
      exact ⟨'N', _, rfl, by decide, by decide⟩
    | false =>
      cases hinf : x.isInf with
      | true =>
        rw [Number.chars, if_neg (ne_true_of_eq_false hnan), if_pos hinf]
        cases Number.isNegative x with
        | true => exact ⟨'-', _, rfl, by decide, by decide⟩
        | false => exact ⟨'I', _, rfl, by decide, by decide⟩
      | false =>
        have h := readNumber_chars .standard hnan hinf closed_nil
        rw [List.append_nil] at h
        exact hnumber _ _ _ h
  | str s => exact ⟨_, _, by rw [write, writeString], by decide, by decide⟩
  | arr vs => cases vs <;> exact ⟨_, _, by rw [write], by decide, by decide⟩
  | obj ms => rcases ms with - | ⟨⟨k, v⟩, ms⟩ <;> exact ⟨_, _, by rw [write], by decide, by decide⟩

theorem skipBlanks_write (v : Json) (cs : List Char) : skipBlanks (write v ++ cs) = write v ++ cs := by
  obtain ⟨c, t, h, hc, -⟩ := write_begins v
  rw [h, List.cons_append, skipBlanks, List.dropWhile_cons_of_neg (by simp [hc])]

theorem skipBlanks_space_write (v : Json) (cs : List Char) :
    skipBlanks (' ' :: (write v ++ cs)) = write v ++ cs :=
  skipBlanks_write v cs

theorem closed_writeItems (vs : List Json) (cs : List Char) : Closed (writeItems vs ++ cs) := by
  cases vs <;> exact closed_cons (by decide)

theorem closed_writeMembers (ms : List (String × Json)) (cs : List Char) : Closed (writeMembers ms ++ cs) := by
  rcases ms with - | ⟨⟨k, v⟩, ms⟩ <;> exact closed_cons (by decide)

/-! ## Values -/

variable (limits : Limits)

theorem readValue_array (fuel free : ℕ) (v : Json) (cs : List Char) :
    readValue limits (fuel + 1) (free + 1) ('[' :: (write v ++ cs)) =
      match readItems limits fuel free (write v ++ cs) with
      | .error e => .error e
      | .ok (vs, rest) => .ok (.arr vs, rest) := by
  have hskip := skipBlanks_write v cs
  obtain ⟨c, t, h, -, hc⟩ := write_begins v
  rw [h, List.cons_append] at hskip ⊢
  simp only [readValue, hskip]
  split
  · rename_i heq
    exact absurd (List.cons.inj heq).1 hc
  · rfl

theorem readValue_object (fuel free : ℕ) (cs : List Char) :
    readValue limits (fuel + 1) (free + 1) ('\x7b' :: '"' :: cs) =
      match readMembers limits fuel free ('"' :: cs) with
      | .error e => .error e
      | .ok (ms, rest) => .ok (object ms, rest) := by
  simp only [readValue]
  rfl

/-- What reading needs of a value: names that differ, and room for its digits and its brackets. -/
structure Fits (free : ℕ) (named : Bool) (widest depth : ℕ) : Prop where
  named : named = true
  width : widest ≤ limits.digits
  nesting : depth ≤ free

variable {limits}

theorem Fits.items {free : ℕ} {v : Json} {vs : List Json}
    (h : Fits limits free (itemsWellNamed (v :: vs)) (widestItem (v :: vs)) (itemDepth (v :: vs))) :
    Fits limits free (isWellNamed v) (widest v) (depth v) ∧
      Fits limits free (itemsWellNamed vs) (widestItem vs) (itemDepth vs) := by
  obtain ⟨hnamed, hwidth, hdepth⟩ := h
  rw [itemsWellNamed, Bool.and_eq_true] at hnamed
  rw [widestItem, max_le_iff] at hwidth
  rw [itemDepth, max_le_iff] at hdepth
  exact ⟨⟨hnamed.1, hwidth.1, hdepth.1⟩, ⟨hnamed.2, hwidth.2, hdepth.2⟩⟩

theorem Fits.members {free : ℕ} {k : String} {v : Json} {ms : List (String × Json)}
    (h : Fits limits free (membersWellNamed ((k, v) :: ms)) (widestMember ((k, v) :: ms))
      (memberDepth ((k, v) :: ms))) :
    Fits limits free (isWellNamed v) (widest v) (depth v) ∧
      Fits limits free (membersWellNamed ms) (widestMember ms) (memberDepth ms) := by
  obtain ⟨hnamed, hwidth, hdepth⟩ := h
  rw [membersWellNamed, Bool.and_eq_true] at hnamed
  rw [widestMember, max_le_iff] at hwidth
  rw [memberDepth, max_le_iff] at hdepth
  exact ⟨⟨hnamed.1, hwidth.1, hdepth.1⟩, ⟨hnamed.2, hwidth.2, hdepth.2⟩⟩

mutual
theorem readValue_write (v : Json) (fuel free : ℕ) (cs : List Char) (hcs : Closed cs)
    (hv : Fits limits free (isWellNamed v) (widest v) (depth v)) (hfuel : 2 * (write v).length ≤ fuel) :
    readValue limits fuel free (write v ++ cs) = .ok (v, cs) := by
  obtain ⟨fuel, rfl⟩ : ∃ n, fuel = n + 1 := by
    obtain ⟨c, t, h, -⟩ := write_begins v
    rw [h, List.length_cons] at hfuel
    exact ⟨fuel - 1, by omega⟩
  match v with
  | .null => simp only [write, List.cons_append, List.nil_append, readValue]
  | .bool true => simp only [write, List.cons_append, List.nil_append, readValue]
  | .bool false => simp only [write, List.cons_append, List.nil_append, readValue]
  | .int i =>
    have hwidth : Decimal.width i.natAbs ≤ limits.digits := hv.width
    rw [write]
    exact readValue_of_readNumber (readNumber_intChars limits hwidth hcs) fuel free
  | .float x =>
    rw [write]
    exact readValue_float limits fuel free x hcs
  | .str s =>
    rw [write, writeString, List.cons_append, List.append_assoc]
    simp only [readValue, List.cons_append, List.nil_append, readString_write]
  | .arr [] =>
    obtain ⟨free, rfl⟩ : ∃ n, free = n + 1 := Nat.exists_eq_add_of_le' hv.nesting
    simp only [write, List.cons_append, List.nil_append, readValue]
    rfl
  | .arr (v :: vs) =>
    obtain ⟨free, rfl⟩ : ∃ n, free = n + 1 :=
      Nat.exists_eq_add_of_le' (le_trans (Nat.le_add_left 1 _) hv.nesting)
    have hitems : Fits limits free (itemsWellNamed (v :: vs)) (widestItem (v :: vs)) (itemDepth (v :: vs)) :=
      ⟨hv.named, hv.width, Nat.le_of_succ_le_succ hv.nesting⟩
    rw [write, List.length_cons] at hfuel
    have hread := readItems_write v vs fuel free cs hitems (by omega)
    rw [write, List.cons_append, List.append_assoc, readValue_array, hread]
  | .obj [] =>
    obtain ⟨free, rfl⟩ : ∃ n, free = n + 1 := Nat.exists_eq_add_of_le' hv.nesting
    simp only [write, List.cons_append, List.nil_append, readValue]
    rfl
  | .obj ((k, v) :: ms) =>
    obtain ⟨free, rfl⟩ : ∃ n, free = n + 1 :=
      Nat.exists_eq_add_of_le' (le_trans (Nat.le_add_left 1 _) hv.nesting)
    have hnamed := hv.named
    rw [isWellNamed, Bool.and_eq_true, decide_eq_true_eq] at hnamed
    have hmembers : Fits limits free (membersWellNamed ((k, v) :: ms)) (widestMember ((k, v) :: ms))
        (memberDepth ((k, v) :: ms)) :=
      ⟨hnamed.2, hv.width, Nat.le_of_succ_le_succ hv.nesting⟩
    rw [write, List.length_cons] at hfuel
    have hread := readMembers_write k v ms fuel free cs hmembers (by omega)
    rw [write]
    simp only [List.cons_append, List.append_assoc]
    rw [writeString, List.cons_append, readValue_object]
    rw [writeString, List.cons_append] at hread
    simp only [hread, object, collect_of_nodup hnamed.1]
termination_by fuel

theorem readItems_write (v : Json) (vs : List Json) (fuel free : ℕ) (cs : List Char)
    (hv : Fits limits free (itemsWellNamed (v :: vs)) (widestItem (v :: vs)) (itemDepth (v :: vs)))
    (hfuel : 2 * (write v ++ writeItems vs).length ≤ fuel) :
    readItems limits fuel free (write v ++ (writeItems vs ++ cs)) = .ok (v :: vs, cs) := by
  rw [List.length_append] at hfuel
  obtain ⟨fuel, rfl⟩ : ∃ n, fuel = n + 1 := by
    obtain ⟨c, t, h, -⟩ := write_begins v
    rw [h, List.length_cons] at hfuel
    exact ⟨fuel - 1, by omega⟩
  have hlast : 0 < (writeItems vs).length := by cases vs <;> simp [writeItems]
  have hfirst := readValue_write v fuel free (writeItems vs ++ cs) (closed_writeItems vs cs) hv.items.1 (by omega)
  rw [readItems, hfirst]
  match vs with
  | [] => rfl
  | v' :: vs =>
    rw [writeItems, List.length_cons, List.length_cons] at hfuel
    have hrest := readItems_write v' vs fuel free cs hv.items.2 (by omega)
    simp only [writeItems, List.cons_append, List.append_assoc]
    rw [show skipBlanks (',' :: ' ' :: (write v' ++ (writeItems vs ++ cs))) =
      ',' :: ' ' :: (write v' ++ (writeItems vs ++ cs)) from rfl]
    simp only [skipBlanks_space_write, hrest]
termination_by fuel

theorem readMembers_write (k : String) (v : Json) (ms : List (String × Json)) (fuel free : ℕ)
    (cs : List Char)
    (hv : Fits limits free (membersWellNamed ((k, v) :: ms)) (widestMember ((k, v) :: ms))
      (memberDepth ((k, v) :: ms)))
    (hfuel : 2 * (writeString k ++ ':' :: ' ' :: (write v ++ writeMembers ms)).length ≤ fuel) :
    readMembers limits fuel free (writeString k ++ ':' :: ' ' :: (write v ++ (writeMembers ms ++ cs))) =
      .ok ((k, v) :: ms, cs) := by
  simp only [List.length_append, List.length_cons] at hfuel
  obtain ⟨fuel, rfl⟩ : ∃ n, fuel = n + 1 := ⟨fuel - 1, by omega⟩
  have hfirst := readValue_write v fuel free (writeMembers ms ++ cs) (closed_writeMembers ms cs) hv.members.1
    (by omega)
  have hname := readString_write k (':' :: ' ' :: (write v ++ (writeMembers ms ++ cs)))
  have hcolon : skipBlanks (':' :: ' ' :: (write v ++ (writeMembers ms ++ cs))) =
      ':' :: ' ' :: (write v ++ (writeMembers ms ++ cs)) := rfl
  rw [writeString]
  simp only [List.cons_append, List.append_assoc, List.nil_append, readMembers, hname, hcolon,
    skipBlanks_space_write, hfirst]
  match ms with
  | [] => rfl
  | (k', v') :: ms =>
    simp only [writeMembers, List.length_cons, List.length_append] at hfuel
    have hrest := readMembers_write k' v' ms fuel free cs hv.members.2
      (by simp only [List.length_append, List.length_cons]; omega)
    simp only [writeMembers, List.cons_append, List.append_assoc]
    rw [show ∀ t, skipBlanks (',' :: ' ' :: t) = ',' :: ' ' :: t from fun _ => rfl]
    have hspace : skipBlanks (' ' :: (writeString k' ++ ':' :: ' ' :: (write v' ++ (writeMembers ms ++ cs)))) =
        writeString k' ++ ':' :: ' ' :: (write v' ++ (writeMembers ms ++ cs)) := rfl
    simp only [hspace, hrest]
termination_by fuel
end

/-- A value that keeps within the limits is read back from its text. -/
theorem read_text {v : Json} (hnamed : isWellNamed v = true) (hwidth : widest v ≤ limits.digits)
    (hdepth : depth v ≤ limits.depth) : read limits v.text = .ok v := by
  have hread := readValue_write v (2 * (write v).length + 2) limits.depth [] closed_nil ⟨hnamed, hwidth, hdepth⟩
    (by omega)
  have hskip := skipBlanks_write v []
  rw [List.append_nil] at hread hskip
  rw [read, text, String.toList_ofList, readChars, hskip, hread]
  rfl

/-! ## Wider limits -/

variable {l l' : Limits}

theorem readNumber_wider (hdigits : l.digits ≤ l'.digits) {cs : List Char} {r : Json × List Char}
    (h : readNumber l cs = .ok r) : readNumber l' cs = .ok r := by
  unfold readNumber at h ⊢
  simp only at h ⊢
  split at h
  · cases h
  split at h
  · exact h
  split at h
  · exact h
  -- Only a whole number is held against the limit.
  split at h
  · cases h
  · rename_i hfits
    rw [if_neg (fun hlong => hfits (hdigits.trans_lt hlong))]
    exact h

mutual
theorem readValue_wider (hdigits : l.digits ≤ l'.digits) : ∀ {fuel free free' : ℕ} {cs : List Char}
    {r : Json × List Char}, free ≤ free' → readValue l fuel free cs = .ok r → readValue l' fuel free' cs = .ok r
  | 0, _, _, _, _, _, h => by cases h
  | fuel + 1, free, free', cs, r, hfree, h => by
    unfold readValue at h ⊢
    split at h
    case h_2 =>
      cases free with
      | zero => cases h
      | succ free =>
        obtain ⟨free', rfl⟩ := Nat.exists_eq_add_of_lt hfree
        simp only at h ⊢
        split at h
        · exact h
        · split at h
          · cases h
          · rename_i hread
            rw [readItems_wider hdigits (by omega) hread]
            exact h
    case h_3 =>
      cases free with
      | zero => cases h
      | succ free =>
        obtain ⟨free', rfl⟩ := Nat.exists_eq_add_of_lt hfree
        simp only at h ⊢
        split at h
        · exact h
        · split at h
          · cases h
          · rename_i hread
            rw [readMembers_wider hdigits (by omega) hread]
            exact h
    case h_10 => exact readNumber_wider hdigits h
    all_goals exact h

theorem readItems_wider (hdigits : l.digits ≤ l'.digits) : ∀ {fuel free free' : ℕ} {cs : List Char}
    {r : List Json × List Char}, free ≤ free' → readItems l fuel free cs = .ok r →
      readItems l' fuel free' cs = .ok r
  | 0, _, _, _, _, _, h => by cases h
  | fuel + 1, free, free', cs, r, hfree, h => by
    unfold readItems at h ⊢
    split at h
    · cases h
    · rename_i v rest hread
      rw [readValue_wider hdigits hfree hread]
      simp only
      split at h
      · exact h
      · split at h
        · cases h
        · rename_i hrest
          rw [readItems_wider hdigits hfree hrest]
          exact h
      · cases h

theorem readMembers_wider (hdigits : l.digits ≤ l'.digits) : ∀ {fuel free free' : ℕ} {cs : List Char}
    {r : List (String × Json) × List Char}, free ≤ free' → readMembers l fuel free cs = .ok r →
      readMembers l' fuel free' cs = .ok r
  | 0, _, _, _, _, _, h => by cases h
  | fuel + 1, free, free', cs, r, hfree, h => by
    unfold readMembers at h ⊢
    split at h
    case h_2 => cases h
    split at h
    · cases h
    split at h
    case h_2 => cases h
    split at h
    · cases h
    rename_i hread
    rw [readValue_wider hdigits hfree hread]
    simp only
    split at h
    · exact h
    · split at h
      · cases h
      · rename_i hrest
        rw [readMembers_wider hdigits hfree hrest]
        exact h
    · cases h
end

/-- What can be read can be read within wider limits, as the same value. -/
theorem read_wider (hdigits : l.digits ≤ l'.digits) (hdepth : l.depth ≤ l'.depth) {s : String} {v : Json}
    (h : read l s = .ok v) : read l' s = .ok v := by
  unfold read readChars at h ⊢
  split at h
  · cases h
  · rename_i hread
    rw [readValue_wider hdigits hdepth hread]
    exact h

/-- Whatever is read from the text of a value, within any limits, is the value. -/
theorem eq_of_read_text {v v' : Json} (hnamed : isWellNamed v = true) (h : read l v.text = .ok v') : v' = v := by
  have hwide : read ⟨max l.digits (widest v), max l.depth (depth v), lt_max_of_lt_left l.depth_pos⟩ v.text = .ok v :=
    read_text hnamed (le_max_right _ _) (le_max_right _ _)
  exact Except.ok.inj ((read_wider (le_max_left _ _) (le_max_left _ _) h).symm.trans hwide)

end CacheAside.Json
