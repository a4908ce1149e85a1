import CacheAside.Proofs.Cache.Counting
import CacheAside.Proofs.Cache.Refinement

/-! # Reading back what was written

On a network that never fails a write leaves a client behind and the text of its value under the key. A read that
arrives before the entry has run out finds this text, reads the value from it as it was written, and counts one hit
(`Cache.set_then_get`). -/

namespace CacheAside
set_option autoImplicit false

namespace Store
variable {w : World}

/-! ## Calls with a client -/

theorem run_send_connected (c : Command) (h : w.memory.connected = true) :
    ∃ n : ℕ, (send c).run w = w.answer n c := by
  obtain ⟨n, hheld⟩ := Option.isSome_iff_exists.1 h
  exact ⟨n, by rw [run_send, hheld]⟩

/-- A call that is answered leaves a client behind. -/
theorem connected_of_send {c : Command} {a : c.Reply} {w' : World} (h : (send c).run w = (.ok a, w')) :
    w'.memory.connected = true := by
  -- The call itself leaves memory alone, so the client is the one that was there or was opened for it.
  have hanswered : ∀ {w₁ : World} {client : Option ℕ}, w₁.memory.connected = true →
      w₁.answer client c = (.ok a, w') → w'.memory.connected = true := by
    intro w₁ client hconnected hanswer
    have hmemory := w₁.memory_answer client c
    rw [hanswer] at hmemory
    rw [show w'.memory = _ from hmemory, hconnected]
  rw [run_send] at h
  cases hheld : w.memory.clients.held with
  | some n =>
    rw [hheld] at h
    exact hanswered (congrArg Option.isSome hheld) h
  | none =>
    simp only [hheld] at h
    rcases hopening : w.answer none (.open w.memory.endpoint) with ⟨r, w₁⟩
    rw [hopening] at h
    cases r with
    | error f => cases h
    | ok u =>
      have hconnected : w₁.renewed.memory.connected = true := rfl
      exact hanswered hconnected h

theorem fetch_of_neverFails (key : String) (hw : w.network.NeverFails) (h : w.memory.connected = true) :
    ∃ w', (fetch key).run w =
      (.ok (((w.server.wait (w.network.delay w.history (.get key))).find? key).map Entry.text), w') ∧
      w'.memory = w.memory := by
  obtain ⟨n, hsend⟩ := run_send_connected (.get key) h
  have hanswer := w.answer_fst n (.get key)
  rw [hw] at hanswer
  refine ⟨(w.answer n (.get key)).2, ?_, w.memory_answer _ _⟩
  rw [fetch, run_reporting, hsend, hanswer]
  rfl

end Store

namespace Cache
variable {w : World}

theorem connected_of_write {key text : String} {left : Option Seconds}
    (h : ((write key text left).run w).1 = .ok ()) : ((write key text left).run w).2.memory.connected = true := by
  have hreporting : ∀ {operation : String} {details : List (String × Json)} {c : Command} {a : c.Reply},
      ((Store.reporting operation details (Store.send c)).run w).1 = .ok a →
      ((Store.reporting operation details (Store.send c)).run w).2.memory.connected = true := by
    intro operation details c a hok
    rw [Store.run_reporting] at hok ⊢
    rcases hsend : (Store.send c).run w with ⟨r, w₁⟩
    rw [hsend] at hok
    cases r with
    | ok a => exact Store.connected_of_send hsend
    | error f => cases hok
  cases left with
  | none => exact hreporting h
  | some s => exact hreporting h

/-! ## Writes that are sent -/

/-- What a write of a value for these seconds keeps: without positive seconds it has no end. -/
def keptFor (v : Json) (s : Seconds) : Kept := ⟨v, if s.isPositive? = some true then some s else none⟩

theorem order_of_fits {m : Memory} {key : String} {v : Json} {seconds : Option Seconds} {s : Seconds}
    (hwidth : v.widest ≤ m.limits.digits) (hdepth : v.depth ≤ m.limits.depth)
    (hseconds : secondsFor m key seconds = .ok s) (hnumber : s.isNumber = true) :
    order m key (.json v) seconds = .ok (v.text, (keptFor v s).left) := by
  have htext : (Payload.json v).text m.limits = .ok v.text := Payload.writeWithin_eq_ok.2 ⟨hwidth, hdepth, rfl⟩
  obtain ⟨positive, hpositive⟩ : ∃ b, s.isPositive? = some b := by
    cases s with
    | other v => cases hnumber
    | _ => exact ⟨_, rfl⟩
  rw [order, hseconds, keptFor]
  simp only [htext, hpositive]
  cases positive <;> rfl

/-- On a network that never fails a write that is sent stands under its key, and nothing is counted. -/
theorem set_of_neverFails {key : String} {value : Payload} {seconds : Option Seconds} {text : String}
    {left : Option Seconds} (hw : w.network.NeverFails) (horder : order w.memory key value seconds = .ok (text, left)) :
    ∃ w', (set key value seconds).run w = (.ok (), w') ∧ w'.server.find? key = some ⟨text, left⟩ ∧
      w'.network = w.network ∧ w'.memory.connected = true ∧ w'.memory.limits = w.memory.limits ∧
      w'.memory.books = w.memory.books := by
  obtain ⟨exchanges, hsettled, hne, -, hreport⟩ := write_outcome key text (order_eq_ok horder).2 hw.contained
  have hthrough := hsettled.traced.wentThrough hw hne
  obtain ⟨f, -, -, hfailed, -⟩ | ⟨hok, -, -⟩ := hreport
  · cases hthrough.symm.trans hfailed
  have hrun : (set key value seconds).run w =
      (.ok (), (((write key text left).run w).2).withMemory (writtenIn key left)) := by
    rw [run_set, horder]
    simp only
    rcases hwrite : (write key text left).run w with ⟨r, w₁⟩
    rw [hwrite] at hok
    cases hok
    rfl
  refine ⟨_, hrun, ?_, hsettled.traced.network, ?_, ?_, ?_⟩
  · exact (hsettled.done hthrough key).trans (if_pos (decide_eq_true rfl))
  · have hconnected := connected_of_write hok
    cases left <;> exact hconnected
  · have hlimits := (sameCounts_set key value seconds w).limits
    rwa [hrun] at hlimits
  · have hbooks := keepsBooks_set key value seconds w
    rwa [hrun] at hbooks

/-! ## Reads of what was written -/

/-- A read that finds a text which can be read counts one hit. -/
theorem get_of_neverFails {key : String} {e : Entry} {v : Json} (hw : w.network.NeverFails)
    (hconnected : w.memory.connected = true)
    (hfound : (w.server.wait (w.network.delay w.history (.get key))).find? key = some e)
    (hread : Json.read w.memory.limits e.text = .ok v) :
    ∃ w', (get key).run w = (.ok v, w') ∧ w'.memory.books = w.memory.books.count .hit key := by
  obtain ⟨w₁, hfetch, hmemory⟩ := Store.fetch_of_neverFails key hw hconnected
  have hrun : (get key).run w = (.ok v, w₁.withMemory (hitIn key)) := by
    rw [run_get, hfetch, hfound]
    simp only [Option.map_some, hread]
  refine ⟨_, hrun, (books_hitIn key w₁.memory).trans ?_⟩
  rw [hmemory]

/-- A value without end stays, and one that is written for so many seconds stays until they have passed. -/
theorem isSome_waits_keptFor (v : Json) (n : ℤ) (ds : List ℕ) :
    (Kept.waits ds (some (keptFor v (.whole n)))).isSome = true ↔ (0 < n → (ds.sum : ℤ) < n) := by
  by_cases hn : 0 < n
  · rw [keptFor, Seconds.isPositive?_whole, if_pos (by simp [hn]), Kept.waits_whole v hn]
    split <;> simp_all
  · have hendless : ∀ ds, Kept.waits ds (some ⟨v, none⟩) = some ⟨v, none⟩ := by
      intro ds
      induction ds with
      | nil => rfl
      | cons d ds ih =>
        change (Kept.waits ds (some ⟨v, none⟩)).bind (Kept.wait d) = _
        rw [ih]
        cases d <;> rfl
    rw [keptFor, Seconds.isPositive?_whole, if_neg (by simp [hn]), hendless]
    simp [hn]

/-- On a network that never fails every value that keeps within the limits of JSON text, and in which no object repeats
a name, is written, and a read that arrives before it has run out answers with the same value. The write counts
nothing, and the read one hit. -/
theorem set_then_get (hw : w.network.NeverFails) (key : String) {v : Json} (hnamed : v.isWellNamed = true)
    (hwidth : v.widest ≤ w.memory.limits.digits) (hdepth : v.depth ≤ w.memory.limits.depth)
    {seconds : Option Seconds} {s : Seconds} (hseconds : secondsFor w.memory key seconds = .ok s)
    (hnumber : s.isNumber = true) :
    ∃ w₁, (set key (.json v) seconds).run w = (.ok (), w₁) ∧ w₁.memory.books = w.memory.books ∧
      ∀ passed : ℕ,
        (Kept.waits [w₁.network.delay w₁.history (.get key), passed] (some (keptFor v s))).isSome = true →
        ∃ w', (get key).run { w₁ with server := w₁.server.wait passed } = (.ok v, w') ∧
          w'.memory.books = w.memory.books.count .hit key := by
  obtain ⟨w₁, hset, hstored, hnetwork, hconnected, hlimits, hbooks⟩ :=
    set_of_neverFails hw (order_of_fits hwidth hdepth hseconds hnumber)
  refine ⟨w₁, hset, hbooks, fun passed hstays => ?_⟩
  obtain ⟨x, hx⟩ := Option.isSome_iff_exists.1 hstays
  have hfound : (w₁.server.waits [w₁.network.delay w₁.history (.get key), passed]).find? key = some x.entry := by
    rw [Server.find?_waits, hstored]
    refine (Kept.aged_entry _ (some (keptFor v s))).trans ?_
    rw [hx]
    rfl
  have hread : Json.read w₁.memory.limits x.entry.text = .ok v := by
    rw [hlimits, Kept.entry, Kept.value_of_waits hx]
    exact Json.read_text hnamed hwidth hdepth
  obtain ⟨w', hget, hcounted⟩ :=
    get_of_neverFails (w := { w₁ with server := w₁.server.wait passed }) (hnetwork ▸ hw) hconnected hfound hread
  exact ⟨w', hget, hcounted.trans (congrArg (Books.count · .hit key) hbooks)⟩

/-- A value with members in no order, numbers that are not finite and a character beyond the first plane. -/
def sample : Json :=
  .obj [("z", .arr [.float Decimal.nan, .float (1.0 / 0.0), .int (-7), .null]), ("a", .str "\u0001😀"),
    ("", .obj [("z", .float 2.0), ("b", .bool false)])]

/-- It is found until the last second, with a hit for it. -/
theorem set_then_get_sample : ∃ w₁ w',
    (set "cache:sample" (.json sample) (some (.whole 60))).run (World.fresh []) = (.ok (), w₁) ∧
      (get "cache:sample").run { w₁ with server := w₁.server.wait 59 } = (.ok sample, w') ∧
      w'.memory.tally.counter "cache:sample" = ⟨1, 0⟩ := by
  have hseconds : secondsFor (World.fresh []).memory "cache:sample" (some (.whole 60)) = .ok (.whole 60) := rfl
  have hnamed : sample.isWellNamed = true := by decide
  obtain ⟨w₁, hset, hbooks, hget⟩ := set_then_get (World.neverFails_fresh []) "cache:sample" hnamed (by decide)
    (by decide) hseconds rfl
  have hprompt : w₁.network.delay w₁.history (.get "cache:sample") = 0 := by
    cases hset
    rfl
  rw [hprompt] at hget
  obtain ⟨w', hfound, hcounted⟩ := hget 59 ((isSome_waits_keptFor sample 60 [0, 59]).2 (by decide))
  refine ⟨w₁, w', hset, hfound, ?_⟩
  change w'.memory.books.tally.counter "cache:sample" = ⟨1, 0⟩
  rw [hcounted]
  rfl

end Cache
end CacheAside
