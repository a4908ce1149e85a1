import CacheAside.Proofs.Resource.Upstream
import CacheAside.Proofs.Cache.Serving

/-! # Which names are admitted

A read that is given a name is refused at once, before anything else happens, unless the name is plain: one to
sixty-four letters, digits, dots, underscores and hyphens, all of them ASCII; and no category is called like the
trending list. That is so for every name without a line feed at its end (`Inquiry.served_or_refused`). One line feed
after a plain name slips through the test, and becomes part of the key (`Inquiry.served_with_line_feed`). -/

namespace CacheAside
set_option autoImplicit false

/-! ## Plain names -/

namespace Api

/-- One to sixty-four ASCII letters, digits, dots, underscores and hyphens. -/
def IsPlainName (s : String) : Prop :=
  1 ≤ s.length ∧ s.length ≤ 64 ∧ ∀ c ∈ s.toList, c.isAlphanum = true ∨ c = '.' ∨ c = '_' ∨ c = '-'

theorem isNameChar_iff (c : Char) :
    isNameChar c = true ↔ c.isAlphanum = true ∨ c = '.' ∨ c = '_' ∨ c = '-' := by
  have hupper : c.isUpper = true ↔ 'A' ≤ c ∧ c ≤ 'Z' := decide_eq_true_iff
  have hlower : c.isLower = true ↔ 'a' ≤ c ∧ c ≤ 'z' :=
    Bool.and_eq_true_iff.trans (and_congr decide_eq_true_iff decide_eq_true_iff)
  have hdigit : c.isDigit = true ↔ '0' ≤ c ∧ c ≤ '9' :=
    Bool.and_eq_true_iff.trans (and_congr decide_eq_true_iff decide_eq_true_iff)
  have halpha : c.isAlpha = (c.isUpper || c.isLower) := rfl
  have halphanum : c.isAlphanum = (c.isAlpha || c.isDigit) := rfl
  simp only [isNameChar, decide_eq_true_eq, halphanum, halpha, Bool.or_eq_true, hupper, hlower, hdigit, or_assoc]

instance (s : String) : Decidable (IsPlainName s) :=
  decidable_of_iff (1 ≤ s.length ∧ s.length ≤ 64 ∧ s.toList.all isNameChar = true)
    (by simp only [IsPlainName, List.all_eq_true, isNameChar_iff])

/-- The test on the characters that are left when a line feed at the end is cut off. -/
theorem isName_iff_of_dropLineFeed {s t : String} (h : dropLineFeed s.toList = t.toList) :
    isName s = true ↔ IsPlainName t := by
  simp only [isName, h, Bool.and_eq_true, decide_eq_true_eq, List.all_eq_true, isNameChar_iff, IsPlainName,
    String.length_toList, and_assoc]

theorem not_isPlainName_lineFeed (t : String) : ¬IsPlainName (t ++ "\n") := by
  intro h
  have hlast := h.2.2 '\n' (by simp [String.toList_append])
  revert hlast
  decide

/-- A name passes the test if it is plain, and also if it is one with a line feed behind it. -/
theorem isName_iff (s : String) : isName s = true ↔ IsPlainName s ∨ ∃ t, s = t ++ "\n" ∧ IsPlainName t := by
  by_cases hlast : s.toList.getLast? = some '\n'
  · obtain ⟨front, hfront⟩ := List.getLast?_eq_some_iff.1 hlast
    obtain rfl : s = String.ofList front ++ "\n" := by
      rw [← String.toList_inj, hfront]
      simp [String.toList_append]
    have hdrop : dropLineFeed (String.ofList front ++ "\n").toList = (String.ofList front).toList := by
      rw [dropLineFeed, if_pos hlast, hfront, List.dropLast_concat, String.toList_ofList]
    rw [isName_iff_of_dropLineFeed hdrop, or_iff_right (not_isPlainName_lineFeed _)]
    refine ⟨fun h => ⟨_, rfl, h⟩, ?_⟩
    rintro ⟨t, ht, h⟩
    rwa [(String.append_left_inj _).1 ht]
  · have hdrop : dropLineFeed s.toList = s.toList := if_neg hlast
    rw [isName_iff_of_dropLineFeed hdrop, or_iff_left]
    rintro ⟨t, rfl, -⟩
    exact hlast (by simp [String.toList_append])

theorem assetName_of_not_isName {a : String} (h : isName a = false) :
    assetName (.str a) = .error (.refused (.invalidAsset (.str a))) := by
  change (if isName a then Except.ok a else .error (Failure.refused (.invalidAsset (.str a)))) = _
  rw [h, if_neg (by decide)]

theorem categoryName_of_not {c : String} (h : ¬(isName c = true ∧ c ≠ "trending")) :
    ∃ refusal : Refusal, categoryName (.str c) = .error (.refused refusal) ∧
      refusal.details = [("category", .str c)] := by
  have htest : categoryName (.str c) = if !isName c then .error (.refused (.invalidCategory (.str c)))
      else if c = "trending" then .error (.refused (.reservedCategory c)) else .ok c := rfl
  cases hname : isName c with
  | false => exact ⟨.invalidCategory (.str c), by rw [htest, hname]; rfl, rfl⟩
  | true =>
    have htrending : c = "trending" := Decidable.not_not.1 fun hne => h ⟨hname, hne⟩
    exact ⟨.reservedCategory c, by rw [htest, hname, if_neg (by decide), if_pos htrending], rfl⟩

end Api

/-! ## Operations that make a call -/

/-- Makes a call at least, in every world. -/
def Op.Calls {α : Type} (op : Op α) : Prop := ∀ w : World, w.history.length < (op.run w).2.history.length

/-- The history only grows. -/
theorem Op.length_history_le {α : Type} (op : Op α) (w : World) :
    w.history.length ≤ (op.run w).2.history.length := by
  obtain ⟨exchanges, htraced⟩ := op.traced_run w
  rw [htraced.history, List.length_append]
  exact Nat.le_add_left _ _

namespace Op.Calls
variable {α β : Type}

theorem bind {op : Op α} (h : op.Calls) (f : α → Op β) : (op >>= f).Calls := by
  intro w
  have hfirst := h w
  rw [Op.run_bind]
  rcases hrun : op.run w with ⟨r, w₁⟩
  rw [hrun] at hfirst
  cases r with
  | error e => exact hfirst
  | ok a => exact hfirst.trans_le ((f a).length_history_le w₁)

theorem contain {body : Op α} (h : body.Calls) (handle : Failure → Op α) : (Op.contain body handle).Calls := by
  intro w
  have hbody := h w
  rw [Op.run_contain]
  rcases hrun : body.run w with ⟨r, w₁⟩
  rw [hrun] at hbody
  cases r with
  | ok a => exact hbody
  | error f =>
    simp only
    split
    · exact hbody.trans_le ((handle f).length_history_le w₁)
    · exact hbody

end Op.Calls

theorem Store.calls_fetch (key : String) : (Store.fetch key).Calls := by
  intro w
  obtain ⟨exchanges, htraced, hgiving⟩ := giving_reporting "get" [("key", .str key)] (.get key) w
  rw [fetch, htraced.history, List.length_append]
  cases hgiving <;> simp

theorem Cache.calls_getOrSet (key : String) (provider : Op Payload) (seconds : Option Seconds) :
    (getOrSet key provider seconds).Calls :=
  (((Store.calls_fetch key).bind _).contain _).bind _

/-! ## Inquiries -/

/-- The reads that are given a name. -/
inductive Inquiry where
  | snapshot
  | extended
  | news

namespace Inquiry

/-- What an inquiry with a name is about. -/
def about : Inquiry → String → Resource
  | .snapshot, s => .snapshot s
  | .extended, s => .extended s
  | .news, s => .news s

/-- What the name is called in a report. -/
def field : Inquiry → String
  | .snapshot => "asset_id"
  | .extended => "asset_id"
  | .news => "category"

/-- The names that an inquiry is meant for. -/
def Admits : Inquiry → String → Prop
  | .news, s => Api.IsPlainName s ∧ s ≠ "trending"
  | _, s => Api.IsPlainName s

/-- Whether an inquiry becomes a read of the cache, which makes a call at least. -/
def IsServed (q : Inquiry) (s : String) (w : World) : Prop :=
  let r := q.about s
  r.read.run w = (Cache.getOrSet r.key r.provider (some r.lifetime)).run w ∧
    w.history.length < (r.read.run w).2.history.length

/-- Whether an inquiry is turned down with the name in the report, and leaves the world as it is. -/
def IsRefused (q : Inquiry) (s : String) (w : World) : Prop :=
  ∃ refusal : Refusal, (q.about s).read.run w = (.error (.refused refusal), w) ∧
    refusal.report.code = .str "VALIDATION_ERROR" ∧ refusal.report.details = .obj [(q.field, .str s)]

theorem not_isServed_of_isRefused {q : Inquiry} {s : String} {w : World} (h : q.IsRefused s w) : ¬q.IsServed s w := by
  obtain ⟨refusal, hrun, -, -⟩ := h
  rintro ⟨-, hcalls⟩
  rw [hrun] at hcalls
  exact lt_irrefl _ hcalls

theorem isAccepted_iff (q : Inquiry) (s : String) :
    (q.about s).IsAccepted ↔ q.Admits s ∨ ∃ t, s = t ++ "\n" ∧ Api.IsPlainName t := by
  cases q with
  | snapshot => exact Api.isName_iff s
  | extended => exact Api.isName_iff s
  | news =>
    have hlineFeed : (∃ t, s = t ++ "\n" ∧ Api.IsPlainName t) → s ≠ "trending" := by
      rintro ⟨t, rfl, -⟩ htrending
      have hlast := congrArg (fun u : String => u.toList.getLast?) htrending
      simp only [String.toList_append] at hlast
      rw [show "\n".toList = ['\n'] from rfl, List.getLast?_concat] at hlast
      revert hlast
      decide
    rw [Admits, about, Resource.IsAccepted, Api.isName_iff, or_and_right]
    exact or_congr_right (and_iff_left_of_imp hlineFeed)

theorem isServed {q : Inquiry} {s : String} (h : (q.about s).IsAccepted) {w : World} (hduties : w.memory.outages = []) :
    q.IsServed s w := by
  refine ⟨Resource.run_read h hduties, ?_⟩
  rw [Resource.run_read h hduties]
  exact Cache.calls_getOrSet _ _ _ w

theorem isRefused {q : Inquiry} {s : String} (h : ¬(q.about s).IsAccepted) {w : World}
    (hduties : w.memory.outages = []) : q.IsRefused s w := by
  have hthrown : ∀ (f : Failure) (body : String → Op Payload), (Api.accepted (.error f) body).run w = (.error f, w) :=
    fun _ _ => rfl
  cases q with
  | snapshot =>
    refine ⟨.invalidAsset (.str s), ?_, rfl, rfl⟩
    rw [about, Resource.read, Api.snapshot, Op.run_duty_of_no_outages _ _ hduties,
      Api.assetName_of_not_isName (Bool.eq_false_iff.2 h), hthrown]
  | extended =>
    refine ⟨.invalidAsset (.str s), ?_, rfl, rfl⟩
    rw [about, Resource.read, Api.extended, Op.run_duty_of_no_outages _ _ hduties,
      Api.assetName_of_not_isName (Bool.eq_false_iff.2 h), hthrown]
  | news =>
    obtain ⟨refusal, hname, hdetails⟩ := Api.categoryName_of_not h
    refine ⟨refusal, ?_, rfl, by rw [Refusal.report, Report.details_ofValidation, hdetails]; rfl⟩
    rw [about, Resource.read, Api.news, Op.run_duty_of_no_outages _ _ hduties, hname, hthrown]

/-- Every inquiry is either served or refused. It is served for the names that it is meant for and, beyond these, for
a plain name with a line feed behind it; so for names without a line feed at the end just for those it is meant for. -/
theorem served_or_refused (q : Inquiry) (s : String) {w : World} (hduties : w.memory.outages = []) :
    (q.IsServed s w ↔ q.Admits s ∨ ∃ t, s = t ++ "\n" ∧ Api.IsPlainName t) ∧
      (q.IsRefused s w ↔ ¬q.IsServed s w) ∧
      (s.toList.getLast? ≠ some '\n' → (q.IsServed s w ↔ q.Admits s)) := by
  have hserved : q.IsServed s w ↔ (q.about s).IsAccepted := by
    refine ⟨fun h => Decidable.not_not.1 fun hnot => ?_, fun h => isServed h hduties⟩
    exact not_isServed_of_isRefused (isRefused hnot hduties) h
  have hiff := hserved.trans (q.isAccepted_iff s)
  refine ⟨hiff, ⟨not_isServed_of_isRefused, fun h => isRefused (mt hserved.2 h) hduties⟩, fun hlast => ?_⟩
  rw [hiff, or_iff_left]
  rintro ⟨t, rfl, -⟩
  exact hlast (by simp [String.toList_append])

/-- The name of the trending list is refused as a category, and so is an asset without a name, which an asset called
like the list is not. -/
theorem served_or_refused_trending : Inquiry.news.IsRefused "trending" (World.fresh []) ∧
    Inquiry.extended.IsRefused "" (World.fresh []) ∧ Inquiry.extended.IsServed "trending" (World.fresh []) := by
  have hduties : (World.fresh []).memory.outages = [] := rfl
  obtain ⟨-, hrefused, hnews⟩ := served_or_refused .news "trending" hduties
  obtain ⟨-, hunnamed, hempty⟩ := served_or_refused .extended "" hduties
  obtain ⟨-, -, hasset⟩ := served_or_refused .extended "trending" hduties
  refine ⟨hrefused.2 fun h => ((hnews (by decide)).1 h).2 rfl, hunnamed.2 fun h => ?_, (hasset (by decide)).2 ?_⟩
  · exact absurd ((hempty (by decide)).1 h).1 (by decide)
  · exact (show Api.IsPlainName "trending" by decide)

/-- An asset may be asked for with a line feed behind its name: its snapshot is fetched and kept. -/
theorem served_with_line_feed : ¬Inquiry.snapshot.Admits "XLM\n" ∧ Inquiry.snapshot.IsServed "XLM\n" (World.fresh []) ∧
    ((Resource.snapshot "XLM\n").read.run (World.fresh [])).2.memory.fetches = ["cache:market:snapshot:XLM\n"] ∧
    (((Resource.snapshot "XLM\n").read.run (World.fresh [])).2.server.find?
      "cache:market:snapshot:XLM\n").bind Entry.left = some (.whole 60) :=
  ⟨Api.not_isPlainName_lineFeed "XLM", isServed (by decide) rfl, rfl, rfl⟩

end Inquiry
end CacheAside
