/-! # Tables in order of first use

A table is a list of rows with distinct names as keys. Writing to a present key keeps its place, a new
key goes to the end. `find?` is the view: each operation is described by what `find?` answers afterwards
(`find?_put`, `find?_erase`, `find?_keep`, `find?_mapMaybe`), and `mem_keys_iff` ties the keys to it. -/

namespace CacheAside
set_option autoImplicit false

namespace Rows
variable {κ α : Type}

def keys (rows : List (κ × α)) : List κ := rows.map Prod.fst

variable [DecidableEq κ]

/-- The value in the first row with this key. -/
def find? (k : κ) : List (κ × α) → Option α
  | [] => none
  | (k', v) :: rest => if k' = k then some v else find? k rest

/-- Writes to the first row with this key, or adds a row at the end. -/
def put (k : κ) (v : α) : List (κ × α) → List (κ × α)
  | [] => [(k, v)]
  | (k', v') :: rest => if k' = k then (k, v) :: rest else (k', v') :: put k v rest

/-- The rows written one after the other: a repeated key keeps its first place and its last value. -/
def collect (rows : List (κ × α)) : List (κ × α) :=
  rows.foldl (fun acc row => put row.1 row.2 acc) []

theorem find?_put (k : κ) (v : α) (rows : List (κ × α)) (k' : κ) :
    find? k' (put k v rows) = if k' = k then some v else find? k' rows := by
  induction rows with
  | nil => simp [put, find?, eq_comm]
  | cons row rest ih =>
    obtain ⟨k₀, v₀⟩ := row
    by_cases h : k₀ = k
    · by_cases h' : k' = k <;> simp_all [put, find?, eq_comm]
    · by_cases h' : k₀ = k'
      · subst h'; simp [put, find?, h]
      · simp [put, find?, h, h', ih]

/-- Writing keeps the order of the keys and adds at most one at the end. -/
theorem keys_put (k : κ) (v : α) (rows : List (κ × α)) :
    keys (put k v rows) = if k ∈ keys rows then keys rows else keys rows ++ [k] := by
  induction rows with
  | nil => simp [put, keys]
  | cons row rest ih =>
    obtain ⟨k₀, v₀⟩ := row
    by_cases h : k₀ = k
    · simp [put, keys, h]
    · have h' : k ≠ k₀ := Ne.symm h
      by_cases hm : k ∈ keys rest
      · simp only [hm, if_true] at ih
        simp only [keys] at ih hm ⊢
        simp [put, h, h', ih, hm]
      · simp only [hm, if_false] at ih
        simp only [keys] at ih hm ⊢
        simp only [put, h, if_false, List.map_cons, List.mem_cons, h', hm, or_self, ih,
          List.cons_append]

theorem nodup_put {rows : List (κ × α)} (h : (keys rows).Nodup) (k : κ) (v : α) :
    (keys (put k v rows)).Nodup := by
  rw [keys_put]
  split
  · exact h
  · rename_i hk
    exact List.nodup_append.2 ⟨h, by simp, by rintro a ha b hb rfl; simp at hb; exact hk (hb ▸ ha)⟩

theorem nodup_collect (rows : List (κ × α)) : (keys (collect rows)).Nodup := by
  suffices ∀ (rows acc : List (κ × α)), (keys acc).Nodup →
      (keys (rows.foldl (fun acc row => put row.1 row.2 acc) acc)).Nodup from
    this rows [] (by simp [keys])
  intro rows
  induction rows with
  | nil => intro acc h; exact h
  | cons row rest ih => intro acc h; exact ih _ (nodup_put h row.1 row.2)

theorem find?_eq_none_iff {k : κ} {rows : List (κ × α)} :
    find? k rows = none ↔ k ∉ keys rows := by
  induction rows with
  | nil => simp [find?, keys]
  | cons row rest ih =>
    obtain ⟨k₀, v₀⟩ := row
    simp only [keys, List.map_cons, List.mem_cons, not_or] at ih ⊢
    by_cases h : k₀ = k
    · simp [find?, h]
    · simp [find?, h, ih, Ne.symm h]

theorem find?_filter {rows : List (κ × α)} (h : (keys rows).Nodup)
    (p : κ → α → Bool) (k : κ) :
    find? k (rows.filter fun row => p row.1 row.2) = (find? k rows).filter (p k) := by
  induction rows with
  | nil => rfl
  | cons row rest ih =>
    obtain ⟨k₀, v₀⟩ := row
    simp only [keys, List.map_cons, List.nodup_cons] at h
    by_cases hk : k₀ = k
    · subst hk
      have hn : find? k₀ rest = none := find?_eq_none_iff.2 h.1
      by_cases hp : p k₀ v₀
      · simp [find?, hp, Option.filter]
      · simp [find?, hp, ih h.2, hn, Option.filter]
    · by_cases hp : p k₀ v₀ <;> simp [find?, hp, hk, ih h.2]

end Rows

/-! ## Tables -/

/-- Rows with distinct keys, in order of first use. -/
structure Table (α : Type) where
  rows : List (String × α)
  distinct : (Rows.keys rows).Nodup

namespace Table
variable {α : Type}

def empty : Table α := ⟨[], by simp [Rows.keys]⟩

instance : EmptyCollection (Table α) := ⟨empty⟩

instance : Inhabited (Table α) := ⟨empty⟩

/-- The rows written one after the other. -/
def ofRows (rows : List (String × α)) : Table α := ⟨Rows.collect rows, Rows.nodup_collect rows⟩

def keys (t : Table α) : List String := Rows.keys t.rows

def values (t : Table α) : List α := t.rows.map Prod.snd

def find? (t : Table α) (k : String) : Option α := Rows.find? k t.rows

def size (t : Table α) : Nat := t.rows.length

def put (t : Table α) (k : String) (v : α) : Table α :=
  ⟨Rows.put k v t.rows, Rows.nodup_put t.distinct k v⟩

/-- The rows that pass a test. -/
def keep (t : Table α) (p : String → α → Bool) : Table α :=
  ⟨t.rows.filter fun row => p row.1 row.2,
    t.distinct.sublist ((List.filter_sublist).map Prod.fst)⟩

def erase (t : Table α) (k : String) : Table α := t.keep fun k' _ => k' ≠ k

/-- Every value replaced or dropped, by key and value. -/
def mapMaybe {β : Type} (t : Table α) (f : String → α → Option β) : Table β :=
  ⟨t.rows.filterMap fun row => (f row.1 row.2).map (row.1, ·), by
    suffices ∀ rows : List (String × α), (Rows.keys rows).Nodup →
        (Rows.keys (rows.filterMap fun row => (f row.1 row.2).map (row.1, ·))).Nodup ∧
        ∀ k, k ∈ Rows.keys (rows.filterMap fun row => (f row.1 row.2).map (row.1, ·)) →
          k ∈ Rows.keys rows from (this t.rows t.distinct).1
    intro rows
    induction rows with
    | nil => intro _; simp [Rows.keys]
    | cons row rest ih =>
      intro h
      simp only [Rows.keys, List.map_cons, List.nodup_cons] at h
      obtain ⟨h₁, h₂⟩ := ih h.2
      cases e : f row.1 row.2 with
      | none =>
        simp only [List.filterMap_cons, e, Option.map_none]
        exact ⟨h₁, fun k hk => List.mem_cons_of_mem _ (h₂ k hk)⟩
      | some v =>
        simp only [List.filterMap_cons, e, Option.map_some, Rows.keys, List.map_cons,
          List.nodup_cons, List.mem_cons]
        exact ⟨⟨fun hk => h.1 (h₂ _ hk), h₁⟩, fun k hk => hk.imp_right (h₂ k)⟩⟩

/-! ## What each operation does to the view -/

@[simp] theorem find?_empty (k : String) : (∅ : Table α).find? k = none := rfl

@[simp] theorem find?_put (t : Table α) (k : String) (v : α) (k' : String) :
    (t.put k v).find? k' = if k' = k then some v else t.find? k' :=
  Rows.find?_put k v t.rows k'

@[simp] theorem find?_keep (t : Table α) (p : String → α → Bool) (k : String) :
    (t.keep p).find? k = (t.find? k).filter (p k) :=
  Rows.find?_filter t.distinct p k

@[simp] theorem find?_erase (t : Table α) (k k' : String) :
    (t.erase k).find? k' = if k' = k then none else t.find? k' := by
  unfold erase
  rw [find?_keep]
  by_cases h : k' = k <;> cases t.find? k' <;> simp [h]

theorem find?_mapMaybe {β : Type} (t : Table α) (f : String → α → Option β) (k : String) :
    (t.mapMaybe f).find? k = (t.find? k).bind (f k) := by
  obtain ⟨rows, hd⟩ := t
  simp only [mapMaybe, find?]
  induction rows with
  | nil => rfl
  | cons row rest ih =>
    obtain ⟨k₀, v₀⟩ := row
    simp only [Rows.keys, List.map_cons, List.nodup_cons] at hd
    have ih := ih hd.2
    by_cases hk : k₀ = k
    · subst hk
      have hn : Rows.find? k₀ rest = none := Rows.find?_eq_none_iff.2 hd.1
      cases e : f k₀ v₀ with
      | none => simp only [List.filterMap_cons, e, Option.map_none, ih, hn]; simp [Rows.find?, e]
      | some v => simp [e, Rows.find?]
    · cases e : f k₀ v₀ with
      | none => simp [e, Rows.find?, hk, ih]
      | some v => simp [e, Rows.find?, hk, ih]

theorem keys_put (t : Table α) (k : String) (v : α) :
    (t.put k v).keys = if k ∈ t.keys then t.keys else t.keys ++ [k] :=
  Rows.keys_put k v t.rows

theorem mem_keys_iff {t : Table α} {k : String} : k ∈ t.keys ↔ ∃ v, t.find? k = some v := by
  rw [← Option.isSome_iff_exists, Option.isSome_iff_ne_none, find?, Ne, Rows.find?_eq_none_iff, keys]
  exact Decidable.not_not.symm

end Table
end CacheAside
