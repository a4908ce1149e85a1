import CacheAside.Proofs.Cache.Shared
import CacheAside.Proofs.Cache.Standing
import CacheAside.Proofs.Invalidation.Announcing
import CacheAside.Proofs.Resource.Shown

/-! # A read that overlaps a drop

A read that misses waits for its provider and writes what it delivers, and nothing keeps an update from dropping the
key in between. What the read writes afterwards stands although it was delivered before: the drop is lost on it.
This is the only way in which something from before the drop can stand. -/

namespace CacheAside
set_option autoImplicit false

/-- Whether an exchange leaves nothing under a key. -/
def Exchange.removes (x : Exchange) (key : String) : Bool := x.touches key && x.command.leaves.isNone

/-- Whether an exchange leaves an entry under a key. -/
def Exchange.fills (x : Exchange) (key : String) : Bool := x.touches key && x.command.leaves.isSome

/-- Something was written under the key on the way from one world to another. -/
def World.FilledSince (key : String) (w w' : World) : Prop :=
  ∃ exchanges, w'.history = exchanges ++ w.history ∧ ∃ x ∈ exchanges, x.fills key = true

theorem Traced.find?_of_removes {w w' : World} {x : Exchange} {key : String} (h : Traced w w' [x])
    (hx : x.removes key = true) : w'.server.find? key = none := by
  obtain ⟨htouches, hleaves⟩ := Bool.and_eq_true_iff.1 hx
  rcases h.find? key with ⟨huntouched, -⟩ | ⟨later, y, earlier, hlast, hfind⟩
  · rw [huntouched x (List.mem_singleton_self x)] at htouches
    cases htouches
  · have hy : y ∈ [x] := by
      rw [hlast.split]
      exact List.mem_append_right _ List.mem_cons_self
    obtain rfl := List.mem_singleton.1 hy
    rw [hfind, Option.isNone_iff_eq_none.1 hleaves, Entry.aged_none]

/-! ## What the feed delivers -/

namespace Feed

theorem aloof_draw (m : Memory) : draw.Aloof (fun _ => True) m := by
  refine Op.Aloof.get_bind ?_
  cases m.draws with
  | nil => exact ⟨_, rfl, trivial⟩
  | cons x rest => exact ⟨rfl, _, rfl, trivial⟩

theorem aloof_between (base width : Float) (m : Memory) : (between base width).Aloof (fun _ => True) m :=
  (aloof_draw m).bind fun _ _ _ => ⟨_, rfl, trivial⟩

theorem aloof_drawSnapshot (asset : String) (m : Memory) :
    (drawSnapshot (.str asset)).Aloof (fun s => s.asset = asset) m := by
  refine (aloof_between _ _ m).bind fun price _ m₁ => (aloof_between _ _ m₁).bind fun volume _ m₂ => ?_
  refine (aloof_between _ _ m₂).bind fun cap _ m₃ => (aloof_between _ _ m₃).bind fun change _ m₄ => ?_
  exact ⟨_, rfl, rfl⟩

/-- Where nothing is out of order, a snapshot of the asset is delivered after a pause. -/
theorem aloof_fetchSnapshot (asset : String) {m : Memory} (houtages : m.outages = []) :
    (fetchSnapshot (.str asset)).Aloof (fun p => ∃ v, p = .json v ∧ (Resource.snapshot asset).Shows v) m := by
  have hnone : m.outage? .fetchSnapshot = none := by
    rw [Memory.outage?, houtages]
    rfl
  refine Op.Aloof.get_bind ?_
  rw [hnone]
  refine fun m' => ⟨rfl, (aloof_drawSnapshot asset _).bind ?_⟩
  rintro s rfl m''
  exact ⟨_, rfl, _, rfl, s, rfl, rfl⟩

end Feed

/-- A snapshot can always be written. -/
theorem Resource.text_of_shows (limits : Json.Limits) {asset : String} {v : Json}
    (h : (Resource.snapshot asset).Shows v) : (Payload.json v).text limits = .ok v.text := by
  obtain ⟨s, -, rfl⟩ := h
  have hwidest : s.json.widest = 0 := rfl
  have hdepth : s.json.depth = 1 := rfl
  exact Payload.writeWithin_eq_ok.2 ⟨hwidest ▸ Nat.zero_le _, hdepth ▸ limits.depth_pos, rfl⟩

namespace Market

/-- An announced price, as one task or as the removals that it makes at once. -/
def priceUpdates (asset : String) : List (List (Op Unit)) :=
  [[Invalidation.announce (.asset (.str asset) (.str AssetKind.price.name))],
   [Cache.delete (snapshotKey asset), Cache.delete (extendedKey asset)]]

/-- A read of a snapshot and the tasks of an update. -/
def overlap (asset : String) (update : List (Op Unit)) : Pool (Except Failure (Option Payload)) :=
  ExceptT.run (some <$> Api.snapshot (.str asset)) ::
    update.map fun op => ExceptT.run ((fun _ => (none : Option Payload)) <$> op)

namespace Overlap

/-! ## Stages -/

/-- How far a task has come. A read has found an entry, or misses one, or holds what its provider delivered, or has
written that; an update has removed the key. -/
inductive Stage where
  | fresh
  | found
  | missing
  | holding (v : Json)
  | written (v : Json)
  | removed

namespace Stage

def next (limits : Json.Limits) (key : String) : Stage → (c : Command) → c.Reply → Stage
  | .fresh, .get _, reply =>
    match Cache.replied limits reply with
    | .null => .missing
    | _ => .found
  | .holding v, .setFor _ _ _, _ => .written v
  | s, .remove keys, _ => if key ∈ keys then .removed else s
  | s, _, _ => s

/-- What the provider of a read has delivered by then. -/
def haul (key : String) : Stage → List (String × Payload)
  | .holding v | .written v => [(key, .json v)]
  | _ => []

variable {limits : Json.Limits}

theorem next_open (limits : Json.Limits) (key : String) (s : Stage) (endpoint : Endpoint) :
    next limits key s (.open endpoint) () = s := by
  cases s <;> rfl

theorem next_remove_eq_removed {key : String} {s : Stage} {keys : List String} {n : ℕ}
    (h : next limits key s (.remove keys) n = .removed) : key ∈ keys ∨ s = .removed := by
  by_cases hkey : key ∈ keys
  · exact .inl hkey
  · cases s <;> simp [next, hkey] at h ⊢

theorem next_remove_of_mem {key : String} (s : Stage) {keys : List String} (h : key ∈ keys) (n : ℕ) :
    next limits key s (.remove keys) n = .removed := by
  cases s <;> exact if_pos h

theorem next_get_of_null (key : String) {reply : Option String} (h : Cache.replied limits reply = .null) :
    next limits key .fresh (.get key) reply = .missing := by
  simp only [next, h]

theorem next_get_of_ne_null (key : String) {reply : Option String} (h : Cache.replied limits reply ≠ .null) :
    next limits key .fresh (.get key) reply = .found := by
  cases hv : Cache.replied limits reply with
  | null => exact absurd hv h
  | _ => simp only [next, hv]

end Stage

/-! ## The read -/

variable {limits : Json.Limits} {key asset : String}

inductive Reads (key : String) : Stage → Command → Prop
  | opening (s : Stage) (endpoint : Endpoint) : Reads key s (.open endpoint)
  | get : Reads key .fresh (.get key)
  | write (v : Json) : Reads key (.holding v) (.setFor key (.whole 60) v.text)

/-- What a stretch of a read comes to: nothing, or a snapshot is delivered. -/
inductive Advance (asset : String) : Stage → Core → Core → Stage → Prop
  | stay {s : Stage} {x y : Core} (fetched : y.fetched = x.fetched) : Advance asset s x y s
  | deliver {x y : Core} {v : Json} (shows : (Resource.snapshot asset).Shows v)
      (fetched : y.fetched = (snapshotKey asset, .json v) :: x.fetched) : Advance asset .missing x y (.holding v)

/-- What a task counts on and leaves as it is: what is out of order, and what is read and written as JSON. -/
structure Calm (x y : Core) : Prop where
  outages : y.outages = x.outages
  limits : y.limits = x.limits

theorem Calm.refl (x : Core) : Calm x x := ⟨rfl, rfl⟩

theorem Calm.trans {x y z : Core} (h : Calm x y) (h' : Calm y z) : Calm x z :=
  ⟨h'.outages.trans h.outages, h'.limits.trans h.limits⟩

def reading (limits : Json.Limits) (asset : String) : Conduct Stage where
  allows := Reads (snapshotKey asset)
  admits _ _ := True
  next := Stage.next limits (snapshotKey asset)
  moves s x y s' := Calm x y ∧ y.assetSubscribers = x.assetSubscribers ∧ Advance asset s x y s'
  rely := Calm
  stays _ x := ⟨Calm.refl x, rfl, .stay rfl⟩
  refl := Calm.refl
  trans _ _ _ := Calm.trans
  allows_open := .opening
  next_open := Stage.next_open limits (snapshotKey asset)

/-- What a read ends in at its last stage; it does not end before what was delivered is written. -/
def Ends (asset : String) (result : Except Failure (Option Payload)) : Stage → Prop
  | .fresh => ∃ f, result = .error f
  | .found => True
  | .written v => result = .ok (some (.json v)) ∧ (Resource.snapshot asset).Shows v
  | .missing | .holding _ | .removed => False

/-- The same of what the read gives. -/
def Gives (asset : String) (r : Except Failure Payload) : Stage → Prop := Ends asset (r.map some)

theorem order_minute (m : Memory) (key : String) {v : Json} (h : (Payload.json v).text m.limits = .ok v.text) :
    Cache.order m key (.json v) (some (.whole 60)) = .ok (v.text, some (.whole 60)) := by
  rw [Cache.order, Cache.secondsFor, h]
  rfl

/-- What was delivered is written. -/
theorem keeps_delivered {v : Json} (hv : (Resource.snapshot asset).Shows v) {b : Core} {m : Memory}
    (hb : (reading limits asset).moves .missing b m.core .missing) :
    Cache.Delivered (reading limits asset) ((reading limits asset).EndsIn (Gives asset)) (snapshotKey asset)
      (some (.whole 60)) (.ok (.json v)) .missing b m := by
  obtain ⟨hcalm, hsubscribers, hstay⟩ := hb
  have horder := fun m : Memory => order_minute m (snapshotKey asset) (Resource.text_of_shows m.limits hv)
  refine Cache.keeps_set _ (.json v) (some (.whole 60)) (fun f hf => ?_) fun text left hsent => ?_
  · rw [horder] at hf
    cases hf
  · rw [horder] at hsent
    cases hsent
    refine ⟨.holding v, ⟨⟨hcalm.outages, hcalm.limits⟩, hsubscribers, .deliver hv ?_⟩, .write v, fun _ _ m' _ => ?_⟩
    · rw [Cache.core_deliveredIn]
      cases hstay with
      | stay fetched => exact congrArg _ fetched
    · exact ⟨.written v, (reading limits asset).stays _ _, rfl, hv⟩

/-- What a read does after its reply. -/
theorem sends_get {m : Memory} (houtages : m.outages = []) (hlimits : m.limits = limits) :
    (reading limits asset).Sends .fresh .fresh m.core m.core (.get (snapshotKey asset)) fun reply s m' =>
      (Cache.replied m'.limits reply ≠ .null → (reading limits asset).EndsIn (Gives asset)
        (.ok (.json (Cache.replied m'.limits reply))) s m'.core (Cache.readIn (snapshotKey asset) reply m')) ∧
      (Cache.replied m'.limits reply = .null → (Feed.fetchSnapshot (.str asset)).Keeps (reading limits asset)
        (Cache.Delivered (reading limits asset) ((reading limits asset).EndsIn (Gives asset)) (snapshotKey asset)
          (some (.whole 60))) s m'.core
        (Cache.fetchIn (snapshotKey asset) (Cache.readIn (snapshotKey asset) reply m'))) := by
  refine ⟨(reading limits asset).stays _ _, .get, fun reply _ m' hm' => ?_⟩
  have hkept : m'.limits = limits := hm'.limits.trans hlimits
  have hread : ∀ s, (reading limits asset).moves s m'.core (Cache.readIn (snapshotKey asset) reply m').core s := by
    intro s
    cases reply with
    | none => exact ⟨⟨rfl, rfl⟩, rfl, .stay rfl⟩
    | some text =>
      rw [Cache.readIn]
      cases Json.read m'.limits text <;> exact ⟨⟨rfl, rfl⟩, rfl, .stay rfl⟩
  rw [hkept]
  refine ⟨fun hhit => ?_, fun hmiss => ?_⟩
  · have hfound : (reading limits asset).next .fresh (.get (snapshotKey asset)) reply = .found :=
      Stage.next_get_of_ne_null (snapshotKey asset) hhit
    rw [hfound]
    exact ⟨.found, hread _, trivial⟩
  · have hmissing : (reading limits asset).next .fresh (.get (snapshotKey asset)) reply = .missing :=
      Stage.next_get_of_null (snapshotKey asset) hmiss
    obtain ⟨hcalm, hsubscribers, hstay⟩ := hread .missing
    have hquiet : (Cache.readIn (snapshotKey asset) reply m').outages = [] :=
      hcalm.outages.trans (hm'.outages.trans houtages)
    rw [hmissing]
    refine Task.Keeps.of_aloof (J := fun b x => (reading limits asset).moves .missing b x .missing)
      (fun b x hx => ?_) ?_ (Feed.aloof_fetchSnapshot asset hquiet) ?_
    · exact ⟨hx, fun y _ => (reading limits asset).stays _ _⟩
    · rintro _ ⟨_, rfl, v, rfl, hv⟩ b m hb
      exact keeps_delivered hv hb
    · cases hstay with
      | stay fetched => exact ⟨⟨hcalm.outages, hcalm.limits⟩, hsubscribers, .stay fetched⟩

theorem keeps_read {m : Memory} (houtages : m.outages = []) (hlimits : m.limits = limits) :
    (some <$> Api.snapshot (.str asset)).Keeps (reading limits asset) ((reading limits asset).EndsIn (Ends asset))
      .fresh m.core m := by
  have hname : Api.assetName (.str asset) =
      if Api.isName asset then .ok asset else .error (.refused (.invalidAsset (.str asset))) := rfl
  refine Op.Keeps.map (Op.Keeps.duty houtages (Op.Keeps.bind ?_))
  rw [hname]
  split
  · exact Op.Keeps.pure (Op.Keeps.duty houtages (Cache.keeps_getOrSet _ _ _ (sends_get houtages hlimits)))
  · exact Op.Keeps.throw ⟨.fresh, (reading limits asset).stays _ _, _, rfl⟩

/-! ## The update -/

/-- What a step of an update leaves as it is. -/
structure Meek (x y : Core) : Prop extends Calm x y where
  fetched : y.fetched = x.fetched

/-- The same with those who hear of updates of assets. -/
structure Steady (x y : Core) : Prop extends Meek x y where
  subscribers : y.assetSubscribers = x.assetSubscribers

theorem Meek.refl (x : Core) : Meek x x := ⟨Calm.refl x, rfl⟩

theorem Steady.refl (x : Core) : Steady x x := ⟨Meek.refl x, rfl⟩

theorem Meek.trans {x y z : Core} (h : Meek x y) (h' : Meek y z) : Meek x z :=
  ⟨h.toCalm.trans h'.toCalm, h'.fetched.trans h.fetched⟩

inductive Drops : Command → Prop
  | opening (endpoint : Endpoint) : Drops (.open endpoint)
  | list (pattern : String) : Drops (.list pattern)
  | remove (keys : List String) : Drops (.remove keys)

/-- A task of an update that may enlist further handlers. It finds nothing out of order and the handlers that were
there when it began. -/
def announcing (limits : Json.Limits) (key : String) : Conduct Stage where
  allows _ := Drops
  admits _ _ := True
  next := Stage.next limits key
  moves s x y s' := s' = s ∧ Meek x y
  rely x y := Calm x y ∧ y.assetSubscribers = x.assetSubscribers
  stays _ x := ⟨rfl, Meek.refl x⟩
  refl x := ⟨Calm.refl x, rfl⟩
  trans _ _ _ h h' := ⟨h.1.trans h'.1, h'.2.trans h.2⟩
  allows_open _ := .opening
  next_open := Stage.next_open limits key

/-- A task of an update that enlists nobody. -/
def removing (limits : Json.Limits) (key : String) : Conduct Stage where
  allows _ := Drops
  admits _ _ := True
  next := Stage.next limits key
  moves s x y s' := s' = s ∧ Steady x y
  rely _ _ := True
  stays _ x := ⟨rfl, Steady.refl x⟩
  refl _ := trivial
  trans _ _ _ _ _ := trivial
  allows_open _ := .opening
  next_open := Stage.next_open limits key

/-- Keeps to the conduct of announcing from every stage on, and what is removed stays so. -/
def Gentle (limits : Json.Limits) (key : String) (α : Type) (op : Op α) : Prop :=
  ∀ (s : Stage) (b : Core) (m : Memory), Meek b m.core →
    op.Keeps (announcing limits key) (fun _ s' b m => Meek b m.core ∧ (s = .removed → s' = .removed)) s b m

theorem closed_gentle (limits : Json.Limits) (key : String) : Op.Closed (Gentle limits key) where
  pure _ _ _ _ h := ⟨h, id⟩
  throw _ _ _ _ h := ⟨h, id⟩
  bind hop hf s b m h := by
    refine Op.Keeps.bind (Op.Keeps.mono (fun r s' b' m' hr => ?_) (hop s b m h))
    obtain ⟨hmeek, hremoved⟩ := hr
    cases r with
    | error e => exact ⟨hmeek, hremoved⟩
    | ok a => exact Op.Keeps.mono (fun _ _ _ _ hr => ⟨hr.1, hr.2 ∘ hremoved⟩) (hf a s' b' m' hmeek)
  tryCatch hbody hhandle s b m h := by
    refine Op.Keeps.tryCatch (Op.Keeps.mono (fun r s' b' m' hr => ?_) (hbody s b m h))
    obtain ⟨hmeek, hremoved⟩ := hr
    cases r with
    | ok a => exact ⟨hmeek, hremoved⟩
    | error e => exact Op.Keeps.mono (fun _ _ _ _ hr => ⟨hr.1, hr.2 ∘ hremoved⟩) (hhandle e s' b' m' hmeek)
  get _ _ _ h := ⟨h, id⟩
  modify f hf _ _ m h := ⟨h.trans ⟨⟨(hf m).1, (hf m).2.1⟩, (hf m).2.2⟩, id⟩
  delete k s b m h := by
    refine Cache.keeps_delete k ⟨⟨rfl, h⟩, .remove [k], fun n _ m' _ => ⟨Meek.refl _, ?_⟩⟩
    rintro rfl
    exact ite_self _
  deleteByPattern pattern s b m h := by
    refine Cache.keeps_deleteByPattern pattern ⟨⟨rfl, h⟩, .list pattern, fun keys _ m' _ => ?_⟩
    have hlist : s = .removed → (announcing limits key).next s (.list pattern) keys = .removed := by
      rintro rfl
      rfl
    refine ⟨fun _ => ⟨Meek.refl _, hlist⟩, fun _ => ?_⟩
    refine ⟨_, ⟨rfl, Meek.refl _⟩, .remove keys, fun n _ m'' _ => ⟨Meek.refl _, fun hs => ?_⟩⟩
    rw [hlist hs]
    exact ite_self _

/-- Such an operation where nothing is out of order, and at its end the key is removed. -/
def Removing (limits : Json.Limits) (key : String) {α : Type} (op : Op α) : Prop :=
  ∀ (s : Stage) (b : Core) (m : Memory), m.outages = [] → Meek b m.core →
    op.Keeps (announcing limits key) (fun _ s' b m => Meek b m.core ∧ s' = .removed) s b m

namespace Removing
variable {α β : Type}

theorem delete (key : String) : Removing limits key (Cache.delete key) := by
  intro s b m _ h
  refine Cache.keeps_delete key ⟨⟨rfl, h⟩, .remove [key], fun n _ m' _ => ⟨Meek.refl _, ?_⟩⟩
  exact Stage.next_remove_of_mem s (List.mem_singleton_self key) n

theorem modify_bind {f : Memory → Memory} (hf : Memory.Modest f) {op : Op α} (hop : Removing limits key op) :
    Removing limits key (modify f >>= fun _ => op) := by
  intro s b m houtages h
  obtain ⟨hkept, hlimits, hfetched⟩ := hf m
  exact Op.Keeps.bind (Op.Keeps.modify (hop s b (f m) (hkept.trans houtages) (h.trans ⟨⟨hkept, hlimits⟩, hfetched⟩)))

theorem bind {op : Op α} {f : α → Op β} (hop : Removing limits key op) (hf : ∀ a, Gentle limits key β (f a)) :
    Removing limits key (op >>= f) := by
  intro s b m houtages h
  refine Op.Keeps.bind (Op.Keeps.mono (fun r s' b' m' hr => ?_) (hop s b m houtages h))
  obtain ⟨hmeek, hremoved⟩ := hr
  cases r with
  | error e => exact ⟨hmeek, hremoved⟩
  | ok a => exact Op.Keeps.mono (fun _ _ _ _ hr => ⟨hr.1, hr.2 hremoved⟩) (hf a s' b' m' hmeek)

theorem tryCatch {body : Op α} {handle : Failure → Op α} (hbody : Removing limits key body)
    (hhandle : ∀ f, Gentle limits key α (handle f)) : Removing limits key (MonadExcept.tryCatch body handle) := by
  intro s b m houtages h
  refine Op.Keeps.tryCatch (Op.Keeps.mono (fun r s' b' m' hr => ?_) (hbody s b m houtages h))
  obtain ⟨hmeek, hremoved⟩ := hr
  cases r with
  | ok a => exact ⟨hmeek, hremoved⟩
  | error e => exact Op.Keeps.mono (fun _ _ _ _ hr => ⟨hr.1, hr.2 hremoved⟩) (hhandle e s' b' m' hmeek)

theorem map {f : α → β} {op : Op α} (hop : Removing limits key op) : Removing limits key (f <$> op) := by
  rw [← bind_pure_comp]
  exact hop.bind fun _ => (closed_gentle limits key).pure _

theorem contain {body : Op α} {handle : Failure → Op α} (hbody : Removing limits key body)
    (hhandle : ∀ f, Gentle limits key α (handle f)) : Removing limits key (Op.contain body handle) := by
  refine hbody.tryCatch fun f => ?_
  split
  · exact hhandle f
  · exact (closed_gentle limits key).throw f

theorem duty (d : Duty) {body : Op α} (hbody : Removing limits key body) : Removing limits key (Op.duty d body) :=
  fun s b m houtages h => Op.Keeps.duty houtages (hbody s b m houtages h)

/-- What was removed by the first of several operations at once stays so. -/
theorem gather {op : Op α} {ops : List (Op α)} (hop : Removing limits key op)
    (hops : ∀ op ∈ ops, Gentle limits key α op) : Removing limits key (Op.gather [] (op :: ops)) := by
  have closed := closed_gentle limits key
  rw [Op.gather_cons]
  refine (hop.map.tryCatch fun _ => closed.pure _).bind fun first => ?_
  refine closed.bind (closed.outcome (closed.gather hops)) fun others => ?_
  cases first with
  | error f => exact closed.throw f
  | ok a =>
    cases others with
    | error f => exact closed.throw f
    | ok as => exact closed.pure _

end Removing

theorem removing_dropAsset (asset : String) : Removing limits (snapshotKey asset) (dropAsset asset) := by
  refine Removing.duty _ (Removing.map ((Removing.delete _).gather fun op hop => ?_))
  obtain rfl := List.mem_singleton.1 hop
  exact (closed_gentle _ _).delete _

/-- The service itself hears of an update first. -/
theorem keeps_announce {m : Memory} (houtages : m.outages = [])
    (hfirst : m.assetSubscribers.head? = some .invalidation) :
    (Invalidation.announce (.asset (.str asset) (.str AssetKind.price.name))).Keeps
      (announcing limits (snapshotKey asset)) (fun _ s b m => Meek b m.core ∧ s = .removed) .fresh m.core m := by
  have closed := closed_gentle limits (snapshotKey asset)
  obtain ⟨rest, hrest⟩ := List.head?_eq_some_iff.1 hfirst
  have hanswer : Removing limits (snapshotKey asset) (Invalidation.invalidate (.asset (.str asset) .price)) := by
    refine Removing.modify_bind ?_ ?_
    · exact fun _ => ⟨rfl, rfl, rfl⟩
    simp only [Key.segment_str, reduceCtorEq, if_false]
    exact removing_dropAsset asset
  have hdeliver : Removing limits (snapshotKey asset)
      (Invalidation.deliverAll (Invalidation.announceWithin 31) (.asset (.str asset) .price)
        m.assetSubscribers) := by
    rw [hrest]
    refine Removing.bind (Removing.contain (Removing.modify_bind ?_ hanswer) fun _ => closed.note _) fun _ =>
      Invalidation.closed_deliverAll closed (Invalidation.closed_announceWithin closed 31) _ rest
    exact fun _ => ⟨rfl, rfl, rfl⟩
  exact Op.Keeps.bind (Op.Keeps.modify (Op.Keeps.bind (Op.Keeps.get
    (hdeliver .fresh m.core _ houtages (Meek.refl _)))))

/-! ## Both together -/

/-- The read comes first, then what may enlist others. -/
def conducts (limits : Json.Limits) (asset : String) : ℕ → Conduct Stage
  | 0 => reading limits asset
  | 1 => announcing limits (snapshotKey asset)
  | _ + 2 => removing limits (snapshotKey asset)

def Outcome (asset : String) : ℕ → Except Failure (Option Payload) → Stage → Prop
  | 0 => Ends asset
  | 1 => fun _ s => s = .removed
  | _ + 2 => fun _ _ => True

theorem admits (limits : Json.Limits) (asset : String) (i : ℕ) (c : Command) (reply : c.Reply) :
    (conducts limits asset i).admits c reply := by
  rcases i with _ | _ | i <;> trivial

theorem compatible (limits : Json.Limits) (asset : String) : Compatible (conducts limits asset) := by
  rintro (_ | _ | i) (_ | _ | j) hne s x y s' h
  · exact absurd rfl hne
  · exact ⟨h.1, h.2.1⟩
  · trivial
  · exact h.2.toCalm
  · exact absurd rfl hne
  · trivial
  · exact h.2.toCalm
  · exact ⟨h.2.toCalm, h.2.subscribers⟩
  · trivial

/-- Where the core stays as it is, so does the stage. -/
theorem eq_of_moves (limits : Json.Limits) {i : ℕ} {s s' : Stage} {x : Core}
    (h : (conducts limits asset i).moves s x x s') : s' = s := by
  rcases i with _ | _ | i
  · obtain ⟨-, -, hadvance⟩ := h
    cases hadvance with
    | stay => rfl
    | deliver _ fetched => exact absurd fetched List.ne_cons_self
  · exact h.1
  · exact h.1

theorem conducted {update : List (Op Unit)} (hupdate : update ∈ priceUpdates asset) {m : Memory}
    (houtages : m.outages = []) (hlimits : m.limits = limits)
    (hfirst : m.assetSubscribers.head? = some .invalidation) :
    Conducted (conducts limits asset) (Outcome asset) (overlap asset update) (fun _ => .fresh) m := by
  simp only [priceUpdates, List.mem_cons, List.not_mem_nil, or_false] at hupdate
  rintro (_ | _ | i) t ht m' hm'
  · cases ht
    exact keeps_read (hm'.outages.trans houtages) (hm'.limits.trans hlimits)
  · obtain ⟨hkept, hsubscribers⟩ := hm'
    have hquiet : m'.outages = [] := hkept.outages.trans houtages
    obtain rfl | rfl := hupdate
    · cases ht
      refine Op.Keeps.map (Op.Keeps.mono (fun r s b m hr => ?_) (keeps_announce hquiet ?_))
      · exact ⟨s, ⟨rfl, hr.1⟩, hr.2⟩
      · exact (congrArg List.head? hsubscribers).trans hfirst
    · cases ht
      refine Op.Keeps.map (Op.Keeps.mono (fun r s b m hr => ?_)
        (Removing.delete _ .fresh _ m' hquiet (Meek.refl _)))
      exact ⟨s, ⟨rfl, hr.1⟩, hr.2⟩
  · obtain rfl | rfl := hupdate
    · cases ht
    · rcases i with _ | i
      · cases ht
        have hmoved := (removing limits (snapshotKey asset)).stays .fresh m'.core
        refine Op.Keeps.map (Cache.keeps_delete _ ⟨hmoved, .remove _, fun _ _ m' _ => ?_⟩)
        exact ⟨_, (removing limits (snapshotKey asset)).stays _ _, trivial⟩
      · cases ht

/-! ## What happens on the way -/

/-- The exchange by which a client fills the key of a snapshot. -/
def filling (asset : String) (client : Option ℕ) (v : Json) : Exchange :=
  ⟨client, .setFor (snapshotKey asset) (.whole 60) v.text, none⟩

theorem touches_filling (asset : String) (client : Option ℕ) (v : Json) :
    (filling asset client v).touches (snapshotKey asset) = true := decide_eq_true rfl

/-- What happened on the way from one world to another, told by the stages of the tasks at both ends: only the read
fetches and fills the key, and it does so once. -/
structure Span (asset : String) (start : World) (s₀ s : ℕ → Stage) (w : World) : Prop where
  run : ∃ exchanges, Traced start w exchanges ∧
    (∀ x ∈ exchanges, x.touches (snapshotKey asset) = true → x.removes (snapshotKey asset) = true ∨
      ∃ client v, s 0 = .written v ∧ s₀ 0 ≠ s 0 ∧ x = filling asset client v) ∧
    (∀ v, s 0 = .written v → s₀ 0 = s 0 ∨ ∃ client, filling asset client v ∈ exchanges) ∧
    (s 1 = .removed → s₀ 1 = .removed ∨ ∃ x ∈ exchanges, x.removes (snapshotKey asset) = true)
  written : ∀ v, s₀ 0 = .written v → s 0 = .written v
  holding : ∀ v, s₀ 0 = .holding v → s 0 = .holding v ∨ s 0 = .written v
  fetched : ∀ before, start.memory.fetched = (s₀ 0).haul (snapshotKey asset) ++ before →
    w.memory.fetched = (s 0).haul (snapshotKey asset) ++ before

namespace Span
variable {start w w' : World} {s₀ s s' : ℕ → Stage}

theorem refl (asset : String) (w : World) (s : ℕ → Stage) : Span asset w s s w :=
  ⟨⟨[], Traced.refl w, fun _ hx => (List.not_mem_nil hx).elim, fun _ _ => .inl rfl, .inl⟩, fun _ h => h,
    fun _ => .inl, fun _ h => h⟩

theorem trans (h : Span asset start s₀ s w) (h' : Span asset w s s' w') : Span asset start s₀ s' w' := by
  obtain ⟨earlier, htraced, htouches, hwritten, hremoved⟩ := h.run
  obtain ⟨later, htraced', htouches', hwritten', hremoved'⟩ := h'.run
  refine ⟨⟨later ++ earlier, htraced.trans htraced', fun x hx ht => ?_, fun v hs => ?_, fun hs => ?_⟩,
    fun v hs => h'.written v (h.written v hs), fun v hs => ?_, fun before hbefore => h'.fetched before
      (h.fetched before hbefore)⟩
  · rcases List.mem_append.1 hx with hx | hx
    · refine (htouches' x hx ht).imp_right ?_
      rintro ⟨client, v, hs, hne, hwriting⟩
      refine ⟨client, v, hs, fun hsame => hne ?_, hwriting⟩
      rw [hs] at hsame ⊢
      exact h.written v hsame
    · refine (htouches x hx ht).imp_right ?_
      rintro ⟨client, v, hs, hne, hwriting⟩
      have hs' := h'.written v hs
      exact ⟨client, v, hs', by rwa [hs', ← hs], hwriting⟩
  · rcases hwritten' v hs with hsame | ⟨client, hmem⟩
    · rcases hwritten v (hsame.trans hs) with hsame' | ⟨client, hmem⟩
      · exact .inl (hsame'.trans hsame)
      · exact .inr ⟨client, List.mem_append_right _ hmem⟩
    · exact .inr ⟨client, List.mem_append_left _ hmem⟩
  · rcases hremoved' hs with hs | ⟨x, hx, hremoves⟩
    · refine (hremoved hs).imp_right ?_
      rintro ⟨x, hx, hremoves⟩
      exact ⟨x, List.mem_append_right _ hx, hremoves⟩
    · exact .inr ⟨x, List.mem_append_left _ hx, hremoves⟩
  · rcases h.holding v hs with hs | hs
    · exact h'.holding v hs
    · exact .inr (h'.written v hs)

/-- A step without a command that leaves the other tasks at their stages. -/
theorem quiet (htraced : Traced w w' []) (hfirst : s' 1 = .removed → s 1 = .removed)
    (hwritten : ∀ v, s' 0 = .written v ↔ s 0 = .written v)
    (hholding : ∀ v, s 0 = .holding v → s' 0 = .holding v)
    (hfetched : ∀ before, w.memory.fetched = (s 0).haul (snapshotKey asset) ++ before →
      w'.memory.fetched = (s' 0).haul (snapshotKey asset) ++ before) : Span asset w s s' w' := by
  refine ⟨⟨[], htraced, fun _ hx => (List.not_mem_nil hx).elim, fun v hs => .inl ?_, fun hs => .inl (hfirst hs)⟩,
    fun v => (hwritten v).2, fun v hs => .inl (hholding v hs), hfetched⟩
  rw [hs, (hwritten v).1 hs]

/-- A step that gives a command. -/
theorem single {x : Exchange} (htraced : Traced w w' [x])
    (htouches : x.touches (snapshotKey asset) = true → x.removes (snapshotKey asset) = true ∨
      ∃ client v, s' 0 = .written v ∧ s 0 ≠ s' 0 ∧ x = filling asset client v)
    (hwritten : ∀ v, s' 0 = .written v → s 0 = s' 0 ∨ ∃ client, x = filling asset client v)
    (hremoved : s' 1 = .removed → s 1 = .removed ∨ x.removes (snapshotKey asset) = true)
    (hkept : ∀ v, s 0 = .written v → s' 0 = .written v)
    (hholding : ∀ v, s 0 = .holding v → s' 0 = .holding v ∨ s' 0 = .written v)
    (hfetched : w'.memory = w.memory ∧ (s' 0).haul (snapshotKey asset) = (s 0).haul (snapshotKey asset)) :
    Span asset w s s' w' := by
  refine ⟨⟨[x], htraced, fun y hy ht => ?_, fun v hs => ?_, fun hs => ?_⟩, hkept, hholding, fun before hbefore => ?_⟩
  · obtain rfl := List.mem_singleton.1 hy
    exact htouches ht
  · refine (hwritten v hs).imp_right ?_
    rintro ⟨client, rfl⟩
    exact ⟨client, List.mem_singleton_self _⟩
  · exact (hremoved hs).imp_right fun hx => ⟨x, List.mem_singleton_self x, hx⟩
  · rw [hfetched.1, hfetched.2]
    exact hbefore

/-- A step of the read. -/
theorem of_reading {next : Stage} (hfails : w.network.NeverFails) (h : Stride (reading limits asset) (s 0) w next w') :
    Span asset w s (Function.update s 0 next) w' := by
  have hother : ∀ next, Function.update s 0 next 1 = s 1 := fun next => Function.update_of_ne one_ne_zero next s
  rcases h.traced hfails with
    ⟨htraced, -, -, hadvance⟩ | ⟨client, c, stage, htraced, hmemory, ⟨-, -, hadvance⟩, hreads, rfl⟩
  · have hself : Function.update s 0 next 0 = next := Function.update_self ..
    refine quiet htraced (fun hr => hother next ▸ hr) (fun v => ?_) (fun v hs => ?_) fun before hbefore => ?_
    all_goals rw [hself]
    all_goals generalize s 0 = stage at *
    · cases hadvance with
      | stay => exact Iff.rfl
      | deliver => exact iff_of_false Stage.noConfusion Stage.noConfusion
    · cases hadvance with
      | stay => exact hs
      | deliver => cases hs
    · cases hadvance with
      | stay fetched => exact fetched.trans hbefore
      | deliver _ fetched => exact fetched.trans (congrArg _ hbefore)
  · -- a command finds the read at the stage that it has come to before
    obtain rfl : stage = s 0 := eq_of_moves limits (i := 0) ⟨Calm.refl _, rfl, hadvance⟩
    have hreads' : Reads (snapshotKey asset) (s 0) c := hreads
    have hself : ∀ next, Function.update s 0 next 0 = next := fun next => Function.update_self ..
    change Span asset w s (Function.update s 0 (Stage.next limits (snapshotKey asset) (s 0) c (w.reply c))) w'
    generalize hs : s 0 = stage at hreads'
    cases hreads' with
    | opening _ endpoint =>
      rw [Stage.next_open, ← hs, Function.update_eq_self]
      exact single htraced (fun ht => by cases ht) (fun _ _ => .inl rfl) .inl (fun _ h => h) (fun _ => .inl)
        ⟨hmemory, rfl⟩
    | get =>
      have hnext : ∀ reply, Stage.next limits (snapshotKey asset) .fresh (.get (snapshotKey asset)) reply = .missing ∨
          Stage.next limits (snapshotKey asset) .fresh (.get (snapshotKey asset)) reply = .found := by
        intro reply
        rcases em (Cache.replied limits reply = .null) with hnull | hnull
        · exact .inl (Stage.next_get_of_null _ hnull)
        · exact .inr (Stage.next_get_of_ne_null _ hnull)
      refine single htraced (fun ht => by cases ht) (fun v hw => ?_) (fun hr => .inl (hother _ ▸ hr))
        (fun v hw => ?_) (fun v hh => ?_) ⟨hmemory, ?_⟩
      · rw [hself] at hw
        rcases hnext (w.reply (.get (snapshotKey asset))) with h | h <;> rw [h] at hw <;> cases hw
      · rw [hs] at hw
        cases hw
      · rw [hs] at hh
        cases hh
      · rw [hself, hs]
        rcases hnext (w.reply (.get (snapshotKey asset))) with h | h <;> rw [h] <;> rfl
    | write v =>
      have hnext : Function.update s 0 (Stage.next limits (snapshotKey asset) (.holding v)
          (.setFor (snapshotKey asset) (.whole 60) v.text)
          (w.reply (.setFor (snapshotKey asset) (.whole 60) v.text))) 0 = .written v := Function.update_self ..
      refine single htraced (fun _ => .inr ⟨client, v, hnext, by rw [hs, hnext]; exact Stage.noConfusion, rfl⟩)
        (fun v' hw => .inr ?_) (fun hr => .inl (hother _ ▸ hr)) (fun v' hw => ?_) (fun v' hh => .inr ?_)
        ⟨hmemory, ?_⟩
      · rw [hnext] at hw
        cases hw
        exact ⟨client, rfl⟩
      · rw [hs] at hw
        cases hw
      · rw [hs] at hh
        cases hh
        exact hnext
      · rw [hnext, hs]
        rfl

/-- A step of the update. -/
theorem of_dropping {C : Conduct Stage} (hnext : C.next = Stage.next limits (snapshotKey asset))
    (hdrops : ∀ {s c}, C.allows s c → Drops c) (hmoves : ∀ {s x y s'}, C.moves s x y s' → s' = s ∧ Meek x y)
    (hfails : w.network.NeverFails) {i : ℕ} {next : Stage} (h : Stride C (s (i + 1)) w next w') :
    Span asset w s (Function.update s (i + 1) next) w' := by
  have hread : Function.update s (i + 1) next 0 = s 0 := Function.update_of_ne (Nat.succ_ne_zero i).symm next s
  have hfirst : Function.update s (i + 1) next 1 = .removed → s 1 = .removed ∨ i = 0 ∧ next = .removed := by
    intro hr
    rcases i with _ | i
    · exact .inr ⟨rfl, by rwa [Function.update_self] at hr⟩
    · exact .inl (by rwa [Function.update_of_ne (by omega)] at hr)
  rcases h.traced hfails with ⟨htraced, hmoved⟩ | ⟨client, c, stage, htraced, hmemory, hmoved, hallowed, rfl⟩
  · obtain ⟨rfl, hmeek⟩ := hmoves hmoved
    rw [Function.update_eq_self]
    refine quiet htraced id (fun _ => Iff.rfl) (fun _ => id) fun before hbefore => hmeek.fetched.trans hbefore
  · obtain ⟨rfl, -⟩ := hmoves hmoved
    refine single htraced (fun ht => ?_) (fun _ _ => .inl hread.symm) (fun hr => ?_) (fun _ hw => hread.trans hw)
      (fun _ hh => .inl (hread.trans hh)) ⟨hmemory, congrArg _ hread⟩
    · cases hdrops hallowed with
      | opening => cases ht
      | list => cases ht
      | remove keys => exact .inl (Bool.and_eq_true_iff.2 ⟨ht, rfl⟩)
    · rcases hfirst hr with hr | ⟨rfl, hr⟩
      · exact .inl hr
      · rw [hnext] at hr
        cases hdrops hallowed with
        | opening endpoint => exact .inl ((Stage.next_open _ _ _ endpoint).symm.trans hr)
        | list pattern =>
          refine .inl ?_
          cases hs : s (0 + 1) <;> rw [hs] at hr <;> first | exact hs | cases hr
        | remove keys =>
          rcases Stage.next_remove_eq_removed hr with hkey | hs
          · refine .inr (Bool.and_eq_true_iff.2 ⟨?_, rfl⟩)
            exact decide_eq_true hkey
          · exact .inl hs

theorem of_stride {i : ℕ} {next : Stage} (hfails : w.network.NeverFails)
    (h : Stride (conducts limits asset i) (s i) w next w') : Span asset w s (Function.update s i next) w' := by
  rcases i with _ | _ | i
  · exact of_reading hfails h
  · exact of_dropping rfl id id hfails h
  · exact of_dropping (C := removing limits (snapshotKey asset)) rfl id
      (fun hmoved => ⟨hmoved.1, hmoved.2.toMeek⟩) hfails h

theorem network (h : Span asset start s₀ s w) : w.network = start.network := by
  obtain ⟨exchanges, htraced, -⟩ := h.run
  exact htraced.network

theorem of_schedule {p : Pool (Except Failure (Option Payload))} (hfails : w.network.NeverFails)
    (h : Conducted (conducts limits asset) (Outcome asset) p s w.memory) (schedule : List ℕ) :
    ∃ s', Span asset w s s' (Pool.runSchedule schedule p w).2 ∧
      Conducted (conducts limits asset) (Outcome asset) (Pool.runSchedule schedule p w).1 s'
        (Pool.runSchedule schedule p w).2.memory := by
  refine Conducted.runSchedule (compatible limits asset) (fun _ _ i _ c _ _ _ => admits limits asset i c _)
    (fun s₁ w₁ i next w₂ _ hspan hstride => ?_) schedule rfl hfails (Span.refl asset w s) h
  refine hspan.trans (of_stride ?_ hstride)
  rw [hspan.network]
  exact hfails

end Span

theorem one_lt_length_overlap {update : List (Op Unit)} (hupdate : update ∈ priceUpdates asset) :
    1 < (overlap asset update).length := by
  simp only [priceUpdates, List.mem_cons, List.not_mem_nil, or_false] at hupdate
  obtain rfl | rfl := hupdate <;> exact of_decide_eq_true rfl

/-- What the tasks have come to when all have ended. -/
theorem outcomes {results : List (Except Failure (Option Payload))} {s : ℕ → Stage} {m : Memory}
    (h : Conducted (conducts limits asset) (Outcome asset) (results.map .done) s m) {i : ℕ}
    {v : Except Failure (Option Payload)} (hv : results[i]? = some v) : Outcome asset i v (s i) := by
  obtain ⟨s', hmoved, hend⟩ := h.ended hv
  rwa [eq_of_moves limits hmoved] at hend

/-- By the time that all tasks have ended the first task of the update has removed the key. -/
theorem exists_removal {p : Pool (Except Failure (Option Payload))} {w w' : World} (hfails : w.network.NeverFails)
    (h : Conducted (conducts limits asset) (Outcome asset) p (fun _ => .fresh) w.memory) {schedule : List ℕ}
    {results : List (Except Failure (Option Payload))} (hends : Pool.Ends schedule p w results w')
    (hlength : 1 < results.length) :
    ∃ w₁ w₂, Pool.LastStep (fun x => x.removes (snapshotKey asset) = true) schedule p w w₁ w₂ := by
  obtain ⟨s, hspan, hended⟩ := Span.of_schedule hfails h schedule
  have hpool : (Pool.runSchedule schedule p w).1 = results.map .done := congrArg Prod.fst hends
  rw [hpool] at hended
  have hremoved : s 1 = .removed := outcomes hended (List.getElem?_eq_getElem hlength)
  obtain ⟨exchanges, htraced, -, -, hremoves⟩ := hspan.run
  obtain ⟨x, hx, hxremoves⟩ := (hremoves hremoved).resolve_left Stage.noConfusion
  exact Pool.exists_lastStep htraced hx hxremoves

theorem not_removes_of_reads {stage : Stage} {c : Command} (client : Option ℕ) (h : Reads key stage c) :
    ¬ (Exchange.mk client c none).removes key = true := by
  cases h with
  | opening s endpoint => exact Bool.false_ne_true
  | get => exact Bool.false_ne_true
  | write v => exact fun hr => Bool.false_ne_true (Bool.and_eq_true_iff.1 hr).2

/-- The spans before and after the last removal of the key. The removal leaves the read at its stage, and nothing is
delivered by it. -/
theorem exists_spans {p : Pool (Except Failure (Option Payload))} {s : ℕ → Stage} {w w₁ w₂ w' : World}
    (hfails : w.network.NeverFails) (h : Conducted (conducts limits asset) (Outcome asset) p s w.memory)
    {schedule : List ℕ} {results : List (Except Failure (Option Payload))}
    (hends : Pool.Ends schedule p w results w')
    (hlast : Pool.LastStep (fun x => x.removes (snapshotKey asset) = true) schedule p w w₁ w₂) :
    ∃ s₁ s₂ s', Span asset w s s₁ w₁ ∧ s₂ 0 = s₁ 0 ∧ w₂.memory = w₁.memory ∧ Span asset w₂ s₂ s' w' ∧
      ∀ (i : ℕ) v, results[i]? = some v → Outcome asset i v (s' i) := by
  obtain ⟨before, i, after, rfl, rfl, hw₂⟩ := hlast.split
  obtain ⟨s₁, hspan₁, hconducted₁⟩ := Span.of_schedule hfails h before
  rw [Pool.Ends, Pool.runSchedule_append, Pool.runSchedule] at hends
  rw [Pool.runSchedule_append, Pool.runSchedule, Pool.runSchedule] at hw₂
  generalize (Pool.runSchedule before p w).1 = p₁ at *
  generalize (Pool.runSchedule before p w).2 = w₁ at *
  have hfails₁ : w₁.network.NeverFails := hspan₁.network ▸ hfails
  obtain ⟨next, hstride, hconducted₂⟩ :=
    hconducted₁.advance (i := i) (compatible limits asset) hfails₁ fun _ c _ _ => admits limits asset i c _
  rw [hw₂] at hstride hconducted₂ hends
  have hfails₂ : w₂.network.NeverFails := hstride.network ▸ hfails₁
  obtain ⟨s', hspan', hconducted'⟩ := Span.of_schedule hfails₂ hconducted₂ after
  rw [hends] at hspan' hconducted'
  obtain ⟨x, htraced, hremoves⟩ := hlast.exchange
  refine ⟨s₁, Function.update s₁ i next, s', hspan₁, ?_, ?_, hspan', fun i v hv => outcomes hconducted' hv⟩
  all_goals rcases hstride.traced hfails₁ with ⟨hnone, -⟩ | ⟨client, c, stage, hone, hmemory, -, hreads, -⟩
  all_goals try cases htraced.exchanges_unique hnone
  · rcases i with _ | i
    · cases htraced.exchanges_unique hone
      exact absurd hremoves (not_removes_of_reads client hreads)
    · exact Function.update_of_ne (Nat.succ_ne_zero i).symm next s₁
  · exact hmemory

/-- What fills the key in a span was written by the read. -/
theorem Span.written_of_filled {start w : World} {s₀ s : ℕ → Stage} (h : Span asset start s₀ s w)
    (hfilled : start.FilledSince (snapshotKey asset) w) : ∃ v, s 0 = .written v := by
  obtain ⟨exchanges, htraced, htouches, -⟩ := h.run
  obtain ⟨exchanges', hhistory, x, hx, hfills⟩ := hfilled
  obtain rfl : exchanges' = exchanges := List.append_cancel_right (hhistory.symm.trans htraced.history)
  obtain ⟨ht, hsome⟩ := Bool.and_eq_true_iff.1 hfills
  rcases htouches x hx ht with hremoves | ⟨client, v, hs, -⟩
  · obtain ⟨-, hnone⟩ := Bool.and_eq_true_iff.1 hremoves
    rw [Option.isNone_iff_eq_none.1 hnone] at hsome
    cases hsome
  · exact ⟨v, hs⟩

theorem Span.filled_of_written {start w : World} {s₀ s : ℕ → Stage} (h : Span asset start s₀ s w) {v : Json}
    (hs : s 0 = .written v) (hne : s₀ 0 ≠ s 0) : start.FilledSince (snapshotKey asset) w := by
  obtain ⟨exchanges, htraced, -, hwritten, -⟩ := h.run
  obtain ⟨client, hmem⟩ := (hwritten v hs).resolve_left hne
  exact ⟨exchanges, htraced.history, _, hmem, Bool.and_eq_true_iff.2 ⟨touches_filling asset client v, rfl⟩⟩

/-- Where the key is absent at the start of a span and nothing removes it again, it is absent at the end unless the
read wrote meanwhile. -/
theorem Span.stands {start w : World} {s₀ s : ℕ → Stage} (h : Span asset start s₀ s w)
    (habsent : start.server.find? (snapshotKey asset) = none) {exchanges : List Exchange}
    (htraced : Traced start w exchanges) (hkept : ∀ x ∈ exchanges, ¬ x.removes (snapshotKey asset) = true) :
    w.server.find? (snapshotKey asset) = none ∧ (∀ v, s 0 = .written v → s₀ 0 = s 0) ∨
      ∃ client v later earlier, s 0 = .written v ∧ s₀ 0 ≠ s 0 ∧
        w.history = later ++ filling asset client v :: earlier ∧
        w.server.find? (snapshotKey asset) = Entry.aged
          (start.network.pauses (filling asset client v :: earlier) later) (some ⟨v.text, some (.whole 60)⟩) := by
  obtain ⟨exchanges', htraced', htouches, hwritten, -⟩ := h.run
  obtain rfl := htraced'.exchanges_unique htraced
  rcases htraced.find? (snapshotKey asset) with ⟨huntouched, hfind⟩ | ⟨later, x, earlier, hlast, hfind⟩
  · refine .inl ⟨by rw [hfind, habsent, Entry.aged_none], fun v hs => ?_⟩
    refine (hwritten v hs).resolve_right ?_
    rintro ⟨client, hmem⟩
    exact Bool.false_ne_true ((huntouched _ hmem).symm.trans (touches_filling asset client v))
  · have hx : x ∈ exchanges' := by
      rw [hlast.split]
      exact List.mem_append_right _ List.mem_cons_self
    obtain ⟨client, v, hs, hne, rfl⟩ := (htouches x hx hlast.touches).resolve_left (hkept x hx)
    refine .inr ⟨client, v, later, earlier ++ start.history, hs, hne, ?_, hfind⟩
    rw [htraced.history, hlast.split, List.append_assoc, List.cons_append]

section
variable {w w₁ w₂ w' : World} {s₁ s₂ s' : ℕ → Stage} {later : List Exchange}
  {result : Except Failure (Option Payload)}

/-- What stands after the last removal was delivered to the read, and was not written before. -/
theorem held (hbefore : Span asset w (fun _ => .fresh) s₁ w₁) (hstage : s₂ 0 = s₁ 0)
    (hmemory : w₂.memory = w₁.memory) (hafter : Span asset w₂ s₂ s' w')
    (habsent : w₂.server.find? (snapshotKey asset) = none) (hlater : Traced w₂ w' later)
    (hkept : ∀ x ∈ later, ¬ x.removes (snapshotKey asset) = true) (hend : Ends asset result (s' 0)) {e : Entry}
    (he : w'.server.find? (snapshotKey asset) = some e) :
    ∃ v, (Resource.snapshot asset).Shows v ∧ e.text = v.text ∧ result = .ok (some (.json v)) ∧
      w'.memory.fetched = (snapshotKey asset, .json v) :: w.memory.fetched ∧
      ¬ w.FilledSince (snapshotKey asset) w₁ := by
  rcases hafter.stands habsent hlater hkept with ⟨hnone, -⟩ | ⟨client, v, later, earlier, hs, hne, -, hfind⟩
  · rw [hnone] at he
    cases he
  · rw [he] at hfind
    have hfetched := hafter.fetched w.memory.fetched (by rw [hmemory, hstage, hbefore.fetched _ rfl])
    rw [hs] at hend hfetched
    refine ⟨v, hend.2, Entry.text_aged hfind.symm, hend.1, hfetched, fun hfilled => ?_⟩
    obtain ⟨v', hs₁⟩ := hbefore.written_of_filled hfilled
    have hs₂ : s₂ 0 = .written v' := hstage.trans hs₁
    exact hne (hs₂.trans (hafter.written v' hs₂).symm)

/-- What was delivered to the read before the last removal, and not written, is written afterwards. -/
theorem put_back (hbefore : Span asset w (fun _ => .fresh) s₁ w₁) (hstage : s₂ 0 = s₁ 0)
    (hafter : Span asset w₂ s₂ s' w') (habsent : w₂.server.find? (snapshotKey asset) = none)
    (hlater : Traced w₂ w' later) (hkept : ∀ x ∈ later, ¬ x.removes (snapshotKey asset) = true)
    (hend : Ends asset result (s' 0)) {v : Json}
    (hfetched : w₁.memory.fetched = (snapshotKey asset, .json v) :: w.memory.fetched)
    (hunfilled : ¬ w.FilledSince (snapshotKey asset) w₁) :
    ∃ client later earlier, w'.history = later ++ filling asset client v :: earlier ∧
      w'.server.find? (snapshotKey asset) = Entry.aged
        (w₂.network.pauses (filling asset client v :: earlier) later) (some ⟨v.text, some (.whole 60)⟩) := by
  have hhaul : (s₁ 0).haul (snapshotKey asset) = [(snapshotKey asset, .json v)] :=
    List.append_cancel_right ((hbefore.fetched _ rfl).symm.trans hfetched)
  -- the read holds what was delivered: had it written, the key would have been filled
  have hholding : s₁ 0 = .holding v := by
    cases hs : s₁ 0 with
    | holding v' =>
      rw [hs] at hhaul
      cases hhaul
      rfl
    | written v' =>
      refine absurd (hbefore.filled_of_written hs ?_) hunfilled
      rw [hs]
      exact Stage.noConfusion
    | _ =>
      rw [hs] at hhaul
      cases hhaul
  have hs : s' 0 = .written v := by
    refine (hafter.holding v (hstage.trans hholding)).resolve_left fun hs => ?_
    rw [hs] at hend
    exact hend
  rcases hafter.stands habsent hlater hkept with
    ⟨-, hsame⟩ | ⟨client, v', later, earlier, hs', -, hhistory, hfind⟩
  · have hcontra := (hstage.trans hholding).symm.trans ((hsame v hs).trans hs)
    cases hcontra
  · cases hs.symm.trans hs'
    exact ⟨client, later, earlier, hhistory, hfind⟩

end

end Overlap

/-! ## What stands in the end -/

/-- The moment before and the moment after the last removal of a key. -/
abbrev LastRemoval (key : String) (schedule : List ℕ) (p : Pool (Except Failure (Option Payload)))
    (w w₁ w₂ : World) : Prop :=
  Pool.LastStep (fun x => x.removes key = true) schedule p w w₁ w₂

open Overlap in
/-- A read of a snapshot overlaps an update that drops it, in any order. What stands in the end is what the provider
of the read delivered, the only thing that was delivered, and it was not yet written when the key was removed for the
last time. So what stood before is gone, and so is what was written before the removal; but if the removal came
between the delivery and the write, what was delivered stands for its minute. -/
theorem stale_iff_dropped_meanwhile {asset : String} {update : List (Op Unit)} (hupdate : update ∈ priceUpdates asset)
    {w w' : World} (hfails : w.network.NeverFails) (houtages : w.memory.outages = [])
    (hfirst : w.memory.assetSubscribers.head? = some .invalidation) {schedule : List ℕ}
    {results : List (Except Failure (Option Payload))} (h : Pool.Ends schedule (overlap asset update) w results w') :
    (∃ w₁ w₂, LastRemoval (snapshotKey asset) schedule (overlap asset update) w w₁ w₂) ∧
      ∀ w₁ w₂, LastRemoval (snapshotKey asset) schedule (overlap asset update) w w₁ w₂ →
        (∀ e, w'.server.find? (snapshotKey asset) = some e → ∃ v, (Resource.snapshot asset).Shows v ∧
          e.text = v.text ∧ results[0]? = some (.ok (some (.json v))) ∧
          w'.memory.fetched = (snapshotKey asset, .json v) :: w.memory.fetched ∧
          ¬ w.FilledSince (snapshotKey asset) w₁) ∧
        (∀ v, w₁.memory.fetched = (snapshotKey asset, .json v) :: w.memory.fetched →
          ¬ w.FilledSince (snapshotKey asset) w₁ → ∃ client later earlier,
            w'.history = later ++ filling asset client v :: earlier ∧
            w'.server.find? (snapshotKey asset) = Entry.aged
              (w.network.pauses (filling asset client v :: earlier) later) (some ⟨v.text, some (.whole 60)⟩) ∧
            (w.network.IsPrompt → w'.server.find? (snapshotKey asset) = some ⟨v.text, some (.whole 60)⟩)) := by
  have hconducted := conducted hupdate houtages rfl hfirst
  have hlength : 1 < results.length := by
    rw [h.length]
    exact one_lt_length_overlap hupdate
  refine ⟨exists_removal hfails hconducted h hlength, fun w₁ w₂ hlast => ?_⟩
  obtain ⟨s₁, s₂, s', hspan₁, hstage, hmemory, hspan₂, houtcomes⟩ := exists_spans hfails hconducted h hlast
  obtain ⟨y, hstep, hyremoves⟩ := hlast.exchange
  obtain ⟨later, hlater, hkept⟩ := hlast.later
  have hrun : (Pool.runSchedule schedule (overlap asset update) w).2 = w' := congrArg Prod.snd h
  rw [hrun] at hlater
  have habsent := hstep.find?_of_removes hyremoves
  have hresult := List.getElem?_eq_getElem (Nat.zero_lt_one.trans hlength)
  have hend : Ends asset _ (s' 0) := houtcomes 0 _ hresult
  refine ⟨fun e he => ?_, fun v hfetched hunfilled => ?_⟩
  · obtain ⟨v, hshows, htext, hv, hdelivered⟩ := held hspan₁ hstage hmemory hspan₂ habsent hlater hkept hend he
    exact ⟨v, hshows, htext, hresult.trans (congrArg some hv), hdelivered⟩
  · obtain ⟨client, later, earlier, hhistory, hfind⟩ :=
      put_back hspan₁ hstage hspan₂ habsent hlater hkept hend hfetched hunfilled
    rw [hstep.network.trans hspan₁.network] at hfind
    refine ⟨client, later, earlier, hhistory, hfind, fun hprompt => ?_⟩
    rw [hfind, Entry.aged_zero (Network.pauses_of_isPrompt hprompt _ _)]

/-! ## One overlap -/

/-- A read of a snapshot overlaps an update. -/
def overtaken : Pool (Except Failure (Option Payload)) :=
  overlap "XLM" [Invalidation.announce (.asset (.str "XLM") (.str AssetKind.price.name))]

/-- The read is about to write what was delivered, the update removes both keys, and the read writes. -/
def overtaking : List ℕ := [0, 0, 0, 0, 0, 0, 0, 1, 1, 1, 1, 1, 0, 0]

/-- What the feed delivers where there are no random numbers. -/
def plainSnapshot : Json :=
  (Feed.Snapshot.mk "XLM" (100.5 + 0.0 * 10.0) (1000000.0 + 0.0 * 100000.0) (1000000000.0 + 0.0 * 100000000.0)
    (-2.5 + 0.0 * 5.0) (World.fresh []).memory.clock).json

theorem mem_priceUpdates_announce (asset : String) :
    [Invalidation.announce (.asset (.str asset) (.str AssetKind.price.name))] ∈ priceUpdates asset :=
  List.mem_cons_self

theorem overtaken_ends : Pool.Ends overtaking overtaken (World.fresh []) [.ok (some (.json plainSnapshot)), .ok none]
    (Pool.runSchedule overtaking overtaken (World.fresh [])).2 :=
  Pool.Ends.of_fst (by with_unfolding_all rfl)

/-- The removal is the ninth step. -/
theorem overtaken_lastRemoval : LastRemoval (snapshotKey "XLM") overtaking overtaken (World.fresh [])
    (Pool.runSchedule (overtaking.take 8) overtaken (World.fresh [])).2
    (Pool.runSchedule (overtaking.take 9) overtaken (World.fresh [])).2 where
  split := ⟨overtaking.take 8, 1, [1, 1, 1, 0, 0], rfl, rfl, rfl⟩
  exchange := by
    refine ⟨⟨some 0, .remove [snapshotKey "XLM"], none⟩, ?_, ?_⟩
    · with_unfolding_all exact ⟨rfl, rfl, rfl, rfl, trivial⟩
    · with_unfolding_all rfl
  later := by
    let write : Exchange := Overlap.filling "XLM" (some 0) plainSnapshot
    let removal : Exchange := ⟨some 0, .remove [extendedKey "XLM"], none⟩
    refine ⟨[write, removal], ?_, ?_⟩
    · with_unfolding_all exact ⟨rfl, rfl, rfl, rfl, rfl, trivial⟩
    · have hwrite : write.removes (snapshotKey "XLM") = false := by with_unfolding_all rfl
      have hremoval : removal.removes (snapshotKey "XLM") = false := by with_unfolding_all rfl
      simp [hwrite, hremoval]

theorem overtaken_fetched : (Pool.runSchedule (overtaking.take 8) overtaken (World.fresh [])).2.memory.fetched =
    [(snapshotKey "XLM", .json plainSnapshot)] := by
  with_unfolding_all rfl

/-- Before the removal a client was opened, and the key was looked up. -/
theorem overtaken_unfilled : ¬ (World.fresh []).FilledSince (snapshotKey "XLM")
    (Pool.runSchedule (overtaking.take 8) overtaken (World.fresh [])).2 := by
  rintro ⟨exchanges, hhistory, x, hx, hfills⟩
  have hexchanges : exchanges =
      [⟨some 0, .get (snapshotKey "XLM"), none⟩, ⟨none, .open (World.fresh []).memory.endpoint, none⟩] := by
    refine (List.append_nil exchanges).symm.trans (hhistory.symm.trans ?_)
    with_unfolding_all rfl
  rw [hexchanges] at hx
  simp only [List.mem_cons, List.not_mem_nil, or_false] at hx
  obtain rfl | rfl := hx <;> cases hfills

theorem stale_iff_dropped_meanwhile_overtaken :
    ∃ w', Pool.Ends overtaking overtaken (World.fresh []) [.ok (some (.json plainSnapshot)), .ok none] w' ∧
      w'.server.find? (snapshotKey "XLM") = some ⟨plainSnapshot.text, some (.whole 60)⟩ := by
  obtain ⟨-, hstands⟩ := stale_iff_dropped_meanwhile (mem_priceUpdates_announce "XLM") (World.neverFails_fresh []) rfl
    rfl overtaken_ends
  obtain ⟨-, hback⟩ := hstands _ _ overtaken_lastRemoval
  obtain ⟨client, later, earlier, -, -, hfind⟩ := hback plainSnapshot overtaken_fetched overtaken_unfilled
  exact ⟨_, overtaken_ends, hfind (World.isPrompt_fresh [])⟩

/-- An update does not keep what was delivered before from standing afterwards. -/
theorem not_fresh_after_drop :
    ¬ ∀ {asset : String} {update : List (Op Unit)} {schedule : List ℕ}
        {results : List (Except Failure (Option Payload))} {w w₁ w₂ w' : World},
      update ∈ priceUpdates asset → w.network.NeverFails → w.memory.outages = [] →
      w.memory.assetSubscribers.head? = some .invalidation →
      Pool.Ends schedule (overlap asset update) w results w' →
      LastRemoval (snapshotKey asset) schedule (overlap asset update) w w₁ w₂ →
      ∀ v, w₁.memory.fetched = (snapshotKey asset, .json v) :: w.memory.fetched →
        (w'.server.find? (snapshotKey asset)).map Entry.text ≠ some v.text := by
  intro hfresh
  refine hfresh (mem_priceUpdates_announce "XLM") (World.neverFails_fresh []) rfl rfl overtaken_ends
    overtaken_lastRemoval plainSnapshot overtaken_fetched ?_
  with_unfolding_all rfl

end Market
end CacheAside
