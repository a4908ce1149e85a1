import CacheAside.Proofs.Run.Conduct

/-! # Operations that are started at once

A protocol is a conduct that says nothing of the core and counts on nothing: only commands and stages matter. Tasks
with protocols of their own that take turns as one task have a protocol together. Its stages are those of all of them
and the one whose turn it is; so it can be taken together with others in the same way. Where no call fails and no
time passes, what every command upholds holds at the end, and there is an end. -/

namespace CacheAside
set_option autoImplicit false

structure Protocol (σ : Type) where
  allows : σ → Command → Prop
  next : σ → (c : Command) → c.Reply → σ
  /-- The stages to which a stretch may lead. -/
  leads : σ → σ → Prop
  stays : ∀ s, leads s s
  allows_open : ∀ s endpoint, allows s (.open endpoint)
  next_open : ∀ s endpoint, next s (.open endpoint) () = s

namespace Protocol
variable {σ : Type}

def conduct (M : Protocol σ) : Conduct σ where
  allows := M.allows
  admits _ _ := True
  next := M.next
  moves s _ _ s' := M.leads s s'
  rely _ _ := True
  stays s _ := M.stays s
  refl _ := trivial
  trans _ _ _ _ _ := trivial
  allows_open := M.allows_open
  next_open := M.next_open

/-- The first `n` of these protocols, taken in turns. -/
def together (M : ℕ → Protocol σ) (n : ℕ) : Protocol ((ℕ → σ) × ℕ) where
  allows s c := (M s.2).allows (s.1 s.2) c
  next s c reply := (Function.update s.1 s.2 ((M s.2).next (s.1 s.2) c reply), s.2)
  leads s s' := (∀ i, (M i).leads (s.1 i) (s'.1 i)) ∧ (s'.2 = s.2 ∨ s'.2 < n)
  stays s := ⟨fun i => (M i).stays (s.1 i), .inl rfl⟩
  allows_open s := (M s.2).allows_open (s.1 s.2)
  next_open s endpoint := by
    rw [(M s.2).next_open, Function.update_eq_self]

theorem leads_update {M : ℕ → Protocol σ} {n i : ℕ} {s : ℕ → σ} {turn : ℕ} {s' : σ} (h : (M i).leads (s i) s')
    {turn' : ℕ} (hturn : turn' = turn ∨ turn' < n) :
    (together M n).leads (s, turn) (Function.update s i s', turn') := by
  refine ⟨fun j => ?_, hturn⟩
  change (M j).leads (s j) (Function.update s i s' j)
  rcases eq_or_ne j i with rfl | hne
  · rw [Function.update_self]
    exact h
  · rw [Function.update_of_ne hne]
    exact (M j).stays (s j)

end Protocol

variable {σ α β : Type}

/-! ## Tasks -/

/-- Keeps to a protocol from a stage on, whatever is found in memory, and ends in `Q`. -/
def Task.Ready (M : Protocol σ) (Q : α → σ → Prop) (t : Task Memory α) (s : σ) : Prop :=
  ∀ b m, t.Keeps M.conduct (fun a s _ _ => Q a s) s b m

namespace Task.Keeps
section
variable {M : Protocol σ} {Q : α → σ → Prop} {s : σ} {b : Core} {m : Memory} {t : Task Memory α}

/-- It does not matter in which core a stretch began. -/
theorem rebase (h : t.Keeps M.conduct (fun a s _ _ => Q a s) s b m) (b' : Core) :
    t.Keeps M.conduct (fun a s _ _ => Q a s) s b' m := by
  induction t generalizing m with
  | done a => exact h
  | look k ih => exact ih m h
  | keep m' k ih => exact ih h
  | call client c k _ => exact h
  | pause k _ => exact h

end

section
variable {M : ℕ → Protocol σ} {Q : ℕ → α → σ → Prop} {R : β → (ℕ → σ) × ℕ → Prop} {n i turn : ℕ} {s : ℕ → σ}
  {b : Core} {m : Memory} {t : Task Memory α}

/-- One of the tasks is carried on as far as it goes on its own. -/
theorem settleThen {k : Task Memory α → Task Memory β} (ht : t.Keeps (M i).conduct (fun a s _ _ => Q i a s) (s i) b m)
    (hk : ∀ t' m', t'.Ready (M i) (Q i) (s i) →
      (k t').Keeps (Protocol.together M n).conduct (fun a s _ _ => R a s) (s, turn) b m') :
    (t.settleThen k).Keeps (Protocol.together M n).conduct (fun a s _ _ => R a s) (s, turn) b m := by
  induction t generalizing m with
  | done a => exact hk (.done a) m fun _ _ => ht
  | look f ih => exact ih m ht
  | keep m' f ih => exact ih ht
  | call client c f _ => exact hk (.call client c f) m fun _ _ => ht
  | pause f _ => exact hk (.pause f) m fun _ _ => ht

/-- One of the tasks takes a step; the others stay at their stages. -/
theorem stepThen (hi : i < n) {k : Task Memory α → Task Memory β} (ht : t.Ready (M i) (Q i) (s i))
    (hk : ∀ t' s' turn' b' m', t'.Ready (M i) (Q i) s' →
      (k t').Keeps (Protocol.together M n).conduct (fun a s _ _ => R a s) (Function.update s i s', turn') b' m') :
    (t.stepThen k).Keeps (Protocol.together M n).conduct (fun a s _ _ => R a s) (s, turn) b m := by
  have hpause : ∀ t' m', t'.Ready (M i) (Q i) (s i) →
      (Task.pause (k t')).Keeps (Protocol.together M n).conduct (fun a s _ _ => R a s) (s, turn) b m' := by
    intro t' m' ht'
    refine ⟨(s, turn), (Protocol.together M n).stays _, fun m'' _ => ?_⟩
    have hnext := hk t' (s i) turn m''.core m'' ht'
    rwa [Function.update_eq_self] at hnext
  cases t with
  | done a =>
    have hnext := hk (.done a) (s i) turn b m ht
    rwa [Function.update_eq_self] at hnext
  | look f => exact settleThen (t := f m) (ht b m) hpause
  | keep m' f => exact settleThen (t := f) (m := m') (ht b m) hpause
  | call client c f =>
    obtain ⟨s', hleads, hallows, hlater⟩ := ht b m
    refine ⟨(Function.update s i s', i), Protocol.leads_update hleads (.inr hi), ?_, fun reply _ m' _ => ?_⟩
    · change (M i).allows (Function.update s i s' i) c
      rw [Function.update_self]
      exact hallows
    · change (k (f (.ok reply))).Keeps _ _
        (Function.update (Function.update s i s') i ((M i).next (Function.update s i s' i) c reply), i) _ _
      rw [Function.update_self, Function.update_idem]
      exact hk _ _ i _ _ fun b' m'' => (hlater reply trivial m'' trivial).rebase b'
  | pause f =>
    obtain ⟨s', hleads, hlater⟩ := ht b m
    refine ⟨(Function.update s i s', turn), Protocol.leads_update hleads (.inl rfl), fun m' _ => ?_⟩
    exact hk f s' turn _ _ fun b' m'' => (hlater m'' trivial).rebase b'

/-- One of the tasks goes on to its end. -/
theorem alone (hi : i < n) {R : α → (ℕ → σ) × ℕ → Core → Memory → Prop}
    (ht : t.Keeps (M i).conduct (fun a s _ _ => Q i a s) (s i) b m)
    (hR : ∀ a s' turn' b' m', Q i a s' → R a (Function.update s i s', turn') b' m') :
    t.Keeps (Protocol.together M n).conduct R (s, turn) b m := by
  induction t generalizing s turn b m with
  | done a =>
    have hend := hR a (s i) turn b m ht
    rwa [Function.update_eq_self] at hend
  | look f ih => exact ih m ht hR
  | keep m' f ih => exact ih ht hR
  | call client c f ih =>
    obtain ⟨s', hleads, hallows, hlater⟩ := ht
    refine ⟨(Function.update s i s', i), Protocol.leads_update hleads (.inr hi), ?_, fun reply _ m' _ => ?_⟩
    · change (M i).allows (Function.update s i s' i) c
      rw [Function.update_self]
      exact hallows
    · change (f (.ok reply)).Keeps _ _
        (Function.update (Function.update s i s') i ((M i).next (Function.update s i s' i) c reply), i) _ _
      rw [Function.update_self, Function.update_idem]
      refine ih _ ?_ fun a s'' turn' b' m'' hend => ?_
      · rw [Function.update_self]
        exact hlater reply trivial m' trivial
      · rw [Function.update_idem]
        exact hR a s'' turn' b' m'' hend
  | pause f ih =>
    obtain ⟨s', hleads, hlater⟩ := ht
    refine ⟨(Function.update s i s', turn), Protocol.leads_update hleads (.inl rfl), fun m' _ => ?_⟩
    refine ih ?_ fun a s'' turn' b' m'' hend => ?_
    · rw [Function.update_self]
      exact hlater m' trivial
    · rw [Function.update_idem]
      exact hR a s'' turn' b' m'' hend

end

section
variable {M : ℕ → Protocol σ} {Q : ℕ → α → σ → Prop} {n : ℕ} {ts : List (Task Memory α)} {s : ℕ → σ} {turn : ℕ}
  {b : Core} {m : Memory}

/-- The tasks from the place `d` on, each in turn to its end. -/
theorem inTurn (d : ℕ) (hn : d + ts.length = n)
    (hts : ∀ (i : ℕ) (t : Task Memory α), ts[i]? = some t → t.Ready (M (d + i)) (Q (d + i)) (s (d + i))) :
    (Task.inTurn ts).Keeps (Protocol.together M n).conduct (fun as s' _ _ => as.length = ts.length ∧
      (∀ (i : ℕ) (a : α), as[i]? = some a → Q (d + i) a (s'.1 (d + i))) ∧ ∀ i < d, s'.1 i = s i) (s, turn) b m := by
  induction ts generalizing d s turn b m with
  | nil =>
    refine ⟨rfl, fun i a ha => ?_, fun _ _ => rfl⟩
    cases ha
  | cons t ts ih =>
    rw [List.length_cons] at hn
    have hfirst : t.Ready (M d) (Q d) (s d) := hts 0 t rfl
    refine Keeps.bind (alone (by omega) (hfirst b m) fun a s' turn' b' m' ha => ?_)
    refine Keeps.bind (Keeps.mono (fun as s'' _ _ has => ?_) (ih (d + 1) (by omega) fun i t' ht' => ?_))
    · obtain ⟨hlength, hvalues, hbefore⟩ := has
      refine ⟨congrArg Nat.succ hlength, fun i v hv => ?_, fun i hi => ?_⟩
      · cases i with
        | zero =>
          cases hv
          rw [Nat.add_zero, hbefore d (Nat.lt_succ_self d), Function.update_self]
          exact ha
        | succ i =>
          have hvalue := hvalues i v hv
          rwa [Nat.add_assoc, Nat.add_comm 1 i] at hvalue
      · rw [hbefore i (Nat.lt_succ_of_lt hi), Function.update_of_ne hi.ne]
    · have hlater := hts (i + 1) t' ht'
      rw [Nat.add_comm i 1, ← Nat.add_assoc] at hlater
      rwa [Function.update_of_ne (by omega)]

/-- The tasks in any order. -/
theorem interleave (order : List ℕ) (hn : ts.length = n)
    (hts : ∀ (i : ℕ) (t : Task Memory α), ts[i]? = some t → t.Ready (M i) (Q i) (s i)) :
    (Task.interleave order ts).Keeps (Protocol.together M n).conduct (fun as s' _ _ => as.length = n ∧
      ∀ (i : ℕ) (a : α), as[i]? = some a → Q i a (s'.1 i)) (s, turn) b m := by
  induction order generalizing ts s turn b m with
  | nil =>
    refine Keeps.mono (fun as s' _ _ has => ?_) (inTurn (Q := Q) 0 (by omega) fun i t ht => ?_)
    · obtain ⟨hlength, hvalues, -⟩ := has
      refine ⟨hlength.trans hn, fun i a ha => ?_⟩
      have hvalue := hvalues i a ha
      rwa [Nat.zero_add] at hvalue
    · rw [Nat.zero_add]
      exact hts i t ht
  | cons i order ih =>
    rw [Task.interleave]
    cases hi : ts[i]? with
    | none => exact ih hn hts
    | some t =>
      obtain ⟨hlength, -⟩ := List.getElem?_eq_some_iff.1 hi
      refine stepThen (hn ▸ hlength) (hts i t hi) fun t' s' turn' b' m' ht' => ?_
      refine ih (List.length_set.trans hn) fun j t'' hj => ?_
      rcases eq_or_ne i j with rfl | hne
      · rw [List.getElem?_set_self hlength] at hj
        cases hj
        rw [Function.update_self]
        exact ht'
      · rw [List.getElem?_set_ne hne] at hj
        rw [Function.update_of_ne hne.symm]
        exact hts j t'' hj

end
end Task.Keeps

/-! ## Operations -/

/-- Where there is no failure among outcomes, all of their values are given. -/
theorem Op.exists_allOf {rs : List (Except Failure α)} (h : ∀ r ∈ rs, ∃ a, r = .ok a) :
    ∃ as : List α, rs = as.map .ok ∧ Op.allOf rs = .ok as := by
  induction rs with
  | nil => exact ⟨[], rfl, rfl⟩
  | cons r rs ih =>
    obtain ⟨a, rfl⟩ := h r List.mem_cons_self
    obtain ⟨as, rfl, has⟩ := ih fun r' hr' => h r' (List.mem_cons_of_mem _ hr')
    refine ⟨a :: as, rfl, ?_⟩
    rw [allOf, has]
    rfl

/-- Operations that are started at once and that all end in a value. -/
theorem Op.Keeps.gather {M : ℕ → Protocol σ} {Q : ℕ → α → σ → Prop} {ops : List (Op α)} {s : ℕ → σ}
    (hops : ∀ (i : ℕ) (op : Op α), ops[i]? = some op → ∀ b m,
      op.Keeps (M i).conduct (fun r s _ _ => ∃ a, r = .ok a ∧ Q i a s) (s i) b m) (order : List ℕ) (turn : ℕ)
    (b : Core) (m : Memory) :
    (Op.gather order ops).Keeps (Protocol.together M ops.length).conduct (fun r s _ _ => ∃ as, r = .ok as ∧
      as.length = ops.length ∧ ∀ (i : ℕ) (a : α), as[i]? = some a → Q i a (s.1 i)) (s, turn) b m := by
  rw [Op.Keeps, Op.gather_task]
  refine Task.Keeps.bind (Task.Keeps.mono (fun rs s' _ _ hrs => ?_)
    (Task.Keeps.interleave (Q := fun i r s => ∃ a, r = .ok a ∧ Q i a s) order (List.length_map _) fun i t ht => ?_))
  · obtain ⟨hlength, hvalues⟩ := hrs
    obtain ⟨as, rfl, has⟩ := Op.exists_allOf fun r hr => by
      obtain ⟨i, hi⟩ := List.mem_iff_getElem?.1 hr
      obtain ⟨a, ha, -⟩ := hvalues i r hi
      exact ⟨a, ha⟩
    refine ⟨as, has, (List.length_map _).symm.trans hlength, fun i a ha => ?_⟩
    obtain ⟨a', ha', hvalue⟩ := hvalues i (.ok a) (by rw [List.getElem?_map, ha]; rfl)
    cases ha'
    exact hvalue
  · rw [List.getElem?_map] at ht
    obtain ⟨op, hop, rfl⟩ := Option.map_eq_some_iff.1 ht
    exact hops i op hop

/-! ## Servers -/

/-- What holds of a stage and the server is kept by what the protocol allows. -/
structure Protocol.Upholds (M : Protocol σ) (P : σ → Server → Prop) : Prop where
  leads : ∀ {s s' server}, P s server → M.leads s s' → P s' server
  apply : ∀ {s server c}, P s server → M.allows s c → P (M.next s c (server.apply c).1) (server.apply c).2

namespace Protocol.Upholds

/-- Carried out to its end where no call fails and no time passes. -/
theorem run_task {M : Protocol σ} {P : σ → Server → Prop} (hM : M.Upholds P) {Q : α → σ → Prop}
    {t : Task Memory α} {s : σ} {b : Core} {w : World} (hfails : w.network.NeverFails)
    (hprompt : w.network.IsPrompt) (ht : t.Keeps M.conduct (fun a s _ _ => Q a s) s b w.memory)
    (hP : P s w.server) : ∃ s', P s' (w.run t).2.server ∧ Q (w.run t).1 s' := by
  induction t generalizing s b w with
  | done a => exact ⟨s, hP, ht⟩
  | look k ih => exact ih w.memory hfails hprompt ht hP
  | keep m k ih => exact ih (w := { w with memory := m }) hfails hprompt ht hP
  | pause k ih =>
    obtain ⟨s', hleads, hlater⟩ := ht
    exact ih hfails hprompt (hlater w.memory trivial) (hM.leads hP hleads)
  | call client c k ih =>
    obtain ⟨s', hleads, hallows, hlater⟩ := ht
    have hreply : w.reply c = (w.server.apply c).1 := by rw [World.reply, hprompt w.history c, Server.wait]
    have hserver : (w.answered client c).server = (w.server.apply c).2 := by
      simp only [World.answered, hprompt w.history c, Server.wait]
    have hnext := hM.apply (hM.leads hP hleads) hallows
    rw [← hreply, ← hserver] at hnext
    rw [World.run, World.answer_of_neverFails hfails]
    exact ih _ (w := w.answered client c) hfails hprompt (hlater _ trivial w.memory trivial) hnext

theorem run {M : Protocol σ} {P : σ → Server → Prop} (hM : M.Upholds P) {Q : Except Failure α → σ → Prop}
    {op : Op α} {s : σ} {b : Core} {w : World} (hfails : w.network.NeverFails) (hprompt : w.network.IsPrompt)
    (hop : op.Keeps M.conduct (fun r s _ _ => Q r s) s b w.memory) (hP : P s w.server) :
    ∃ s', P s' (op.run w).2.server ∧ Q (op.run w).1 s' :=
  run_task hM hfails hprompt hop hP

end Protocol.Upholds

end CacheAside
