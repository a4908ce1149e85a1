import CacheAside.Proofs.Cache.Standing
import CacheAside.Proofs.Registry.Governing

/-! # How long a written value stays

A write is meant for the seconds that it is given, else for the lifetime of the category that governs its key, else
for what is set for all other keys; zero seconds mean no end, and are never taken for none given. On a network that
never fails the text of the value then stands under the key for these seconds (`Cache.written_as_meant`). Fewer than
zero seconds cannot come from a registry, but a caller may give them, and they too put no end to the entry
(`Cache.negative_without_end`). -/

namespace CacheAside.Cache
set_option autoImplicit false

/-- The seconds that a write of a key is meant for, if some are given or none. -/
inductive Meant (m : Memory) (key : String) : Option Seconds → Seconds → Prop
  | given (s : Seconds) : Meant m key (some s) s
  | governed {c : Category} (h : Registry.Governs m.registry.values key c) : Meant m key none c.lifetime
  | ungoverned (h : ∀ c ∈ m.registry.values, ¬c.start.toList <+: key.toList) : Meant m key none m.otherwise

theorem secondsFor_eq_ok_iff {m : Memory} (hfiled : m.misfiled = none) (key : String) (given : Option Seconds)
    (s : Seconds) : secondsFor m key given = .ok s ↔ Meant m key given s := by
  cases given with
  | some t =>
    rw [secondsFor, Except.ok.injEq]
    refine ⟨fun h => h ▸ .given t, fun h => ?_⟩
    cases h
    rfl
  | none =>
    have hlifetime : secondsFor m key none = .ok (m.registry.lifetime m.otherwise key) := by
      rw [secondsFor, hfiled]
      rfl
    rw [hlifetime, Except.ok.injEq]
    refine ⟨?_, fun h => ?_⟩
    · rintro rfl
      cases hgovern : m.registry.govern key with
      | none =>
        have hnone := Registry.longest_eq_none_iff.1 hgovern
        rw [Registry.lifetime_of_ungoverned hnone]
        exact .ungoverned hnone
      | some c =>
        have hgoverns := Registry.longest_eq_some_iff.1 hgovern
        rw [Registry.lifetime_of_governs hgoverns]
        exact .governed hgoverns
    · cases h with
      | governed h => exact Registry.lifetime_of_governs h _
      | ungoverned h => exact Registry.lifetime_of_ungoverned h _

/-- Where all lifetimes are whole numbers, so is the one that is meant. -/
theorem exists_meant {m : Memory} (hfiled : m.misfiled = none)
    (hregistry : ∀ c ∈ m.registry.values, ∃ n, c.lifetime = .whole n) (hotherwise : ∃ n, m.otherwise = .whole n)
    (key : String) (given : Option ℤ) :
    ∃ n, secondsFor m key (given.map .whole) = .ok (.whole n) := by
  have hmeant : ∃ n, Meant m key (given.map .whole) (.whole n) := by
    cases given with
    | some n => exact ⟨n, .given _⟩
    | none =>
      cases hgovern : m.registry.govern key with
      | none =>
        obtain ⟨n, hn⟩ := hotherwise
        exact ⟨n, hn ▸ .ungoverned (Registry.longest_eq_none_iff.1 hgovern)⟩
      | some c =>
        have hgoverns := Registry.longest_eq_some_iff.1 hgovern
        obtain ⟨n, hn⟩ := hregistry c hgoverns.mem
        exact ⟨n, hn ▸ .governed hgoverns⟩
  obtain ⟨n, hn⟩ := hmeant
  exact ⟨n, (secondsFor_eq_ok_iff hfiled _ _ _).2 hn⟩

/-- What a write for a whole number of seconds leaves the entry: no end without positive seconds. -/
def leftOf (n : ℤ) : Option Seconds := if 0 < n then some (.whole n) else none

theorem order_of_whole {m : Memory} {key text : String} {value : Payload} {given : Option Seconds} {n : ℤ}
    (hseconds : secondsFor m key given = .ok (.whole n)) (htext : value.text m.limits = .ok text) :
    order m key value given = .ok (text, leftOf n) := by
  rw [order, hseconds]
  simp only [htext, Seconds.isPositive?_whole, leftOf]
  by_cases hn : 0 < n
  · simp [hn]
  · simp [hn]

theorem order_of_unwritable {m : Memory} {key : String} {value : Payload} {given : Option Seconds} {s : Seconds}
    {e : WriteError} (hseconds : secondsFor m key given = .ok s) (htext : value.text m.limits = .error e) :
    order m key value given = .error (.unwritable e) := by
  rw [order, hseconds]
  simp only [htext]

/-- On a network that never fails a write that is sent stands under its key, and the others are left to time. -/
theorem set_settled {w : World} (hw : w.network.NeverFails) {key text : String} {value : Payload}
    {given left : Option Seconds} (horder : order w.memory key value given = .ok (text, left)) :
    ∃ w' exchanges, (set key value given).run w = (.ok (), w') ∧ Traced w w' exchanges ∧
      ∀ k, w'.server.find? k = if k = key then some ⟨text, left⟩
        else (w.server.waits (w.network.pauses w.history exchanges)).find? k := by
  obtain ⟨exchanges, hsettled, -, hok, hempty⟩ := set_outcome key value given hw.contained
  have hsent : isUnsent w.memory key value given = false := by
    rw [isUnsent, horder]
  have hne : exchanges ≠ [] := fun h => by
    rw [hempty, hsent] at h
    cases h
  have hentry : entryOf w.memory key value given = some ⟨text, left⟩ := by
    rw [entryOf, horder]
  have hdone := hsettled.done (hsettled.traced.wentThrough hw hne)
  simp only [hentry, decide_eq_true_eq] at hdone
  exact ⟨_, exchanges, Prod.ext hok rfl, hsettled.traced, hdone⟩

/-- A write is meant for the seconds that it is given, zero too, else for the lifetime of the category that governs
its key, zero too, else for what is otherwise set. On a network that never fails a value that has a JSON text leaves
this text under its key, for exactly these seconds if there are any, and unless they are fewer than zero it has no end
only if they are zero. All other entries are left to time. A value that has no JSON text causes no call. -/
theorem written_as_meant {w : World} (hw : w.network.NeverFails) (hfiled : w.memory.misfiled = none)
    (hregistry : ∀ c ∈ w.memory.registry.values, ∃ n, c.lifetime = .whole n)
    (hotherwise : ∃ n, w.memory.otherwise = .whole n) (key : String) (value : Payload) (given : Option ℤ) :
    ∃ n : ℤ, (∀ s, Meant w.memory key (given.map .whole) s ↔ s = .whole n) ∧
      (∀ text, value.text w.memory.limits = .ok text → ∃ w' exchanges left,
        (set key value (given.map .whole)).run w = (.ok (), w') ∧ Traced w w' exchanges ∧
        w'.server.find? key = some ⟨text, left⟩ ∧ (0 < n → left = some (.whole n)) ∧
        (0 ≤ n → (left = none ↔ n = 0)) ∧
        (∀ k, k ≠ key →
          w'.server.find? k = (w.server.waits (w.network.pauses w.history exchanges)).find? k) ∧
        (w.network.IsPrompt → ∀ k, k ≠ key → w'.server.find? k = w.server.find? k)) ∧
      (∀ e, value.text w.memory.limits = .error e → ∃ w', (set key value (given.map .whole)).run w = (.ok (), w') ∧
        w'.history = w.history ∧ w'.server = w.server) := by
  obtain ⟨n, hseconds⟩ := exists_meant hfiled hregistry hotherwise key given
  refine ⟨n, fun s => ?_, fun text htext => ?_, fun e htext => ?_⟩
  · rw [← secondsFor_eq_ok_iff hfiled, hseconds, Except.ok.injEq, eq_comm]
  · obtain ⟨w', exchanges, hrun, htraced, hentries⟩ := set_settled hw (order_of_whole hseconds htext)
    have hothers : ∀ k, k ≠ key →
        w'.server.find? k = (w.server.waits (w.network.pauses w.history exchanges)).find? k :=
      fun k hk => (hentries k).trans (if_neg hk)
    refine ⟨w', exchanges, leftOf n, hrun, htraced, (hentries key).trans (if_pos rfl), fun hn => if_pos hn,
      fun hn => ?_, hothers, fun hprompt k hk => ?_⟩
    · rw [leftOf]
      split <;> simp <;> omega
    · rw [hothers k hk, Server.find?_waits]
      exact Entry.aged_zero (Network.pauses_of_isPrompt hprompt _ _) _
  · have hrun := run_set key value (given.map .whole) w
    rw [order_of_unwritable hseconds htext] at hrun
    exact ⟨_, hrun, rfl, rfl⟩

/-- Where the governing category keeps its keys for ever, so is a value that no seconds are given for. -/
theorem written_as_meant_pinned :
    ∃ w', (set "cache:pin:x" (.json (.arr [])) none).run
        ((World.fresh []).withMemory fun m => { m with registry := .pinned }) = (.ok (), w') ∧
      w'.server.find? "cache:pin:x" = some ⟨"[]", none⟩ := by
  have hregistry : ∀ c ∈ Registry.pinned.values, ∃ n, c.lifetime = .whole n := by
    intro c hc
    have hnames : Registry.pinned.values.map Category.lifetime = [.whole 90, .whole 0, .whole 5] := rfl
    have hmem := List.mem_map_of_mem (f := Category.lifetime) hc
    rw [hnames] at hmem
    simp only [List.mem_cons, List.not_mem_nil, or_false] at hmem
    rcases hmem with h | h | h <;> exact ⟨_, h⟩
  obtain ⟨n, hmeant, hwritten, -⟩ := written_as_meant
    (w := (World.fresh []).withMemory fun m => { m with registry := .pinned }) (World.neverFails_fresh []) rfl
    hregistry ⟨300, rfl⟩ "cache:pin:x" (.json (.arr [])) none
  obtain ⟨w', -, left, hrun, -, hfind, -, hendless, -⟩ := hwritten "[]" rfl
  have hgoverns : Registry.Governs Registry.pinned.values "cache:pin:x"
      ⟨"PINNED", .whole 0, "cache:pin", .null, rfl, by decide⟩ := Registry.longest_eq_some_iff.1 rfl
  have hzero : n = 0 := by
    have hn := (hmeant _).1 (.governed hgoverns)
    cases hn
    rfl
  rw [(hendless hzero.ge).2 hzero] at hfind
  exact ⟨w', hrun, hfind⟩

/-- A value that is written for fewer than zero seconds has no end either. -/
theorem negative_without_end :
    ∃ w', (set "k" (.json (.int 1)) (some (.whole (-5)))).run (World.fresh []) = (.ok (), w') ∧
      Meant (World.fresh []).memory "k" (some (.whole (-5))) (.whole (-5)) ∧ (-5 : ℤ) ≠ 0 ∧
      w'.server.find? "k" = some ⟨"1", none⟩ :=
  ⟨_, rfl, .given _, by decide, rfl⟩

end CacheAside.Cache
