import CacheAside.Proofs.Settings.Places

/-! # Which source decides a setting

The name of the service and its number are the arguments, and the seconds and milliseconds of settings are never
negative. Unless an override steers the reading, every other field is what its first place says at which anything
stands, or what it is where nothing is given; so whatever stands behind that place, fitting or not, can neither
change a field nor be a reason for having no settings (`Settings.settled_in_turn`). -/

namespace CacheAside
set_option autoImplicit false

/-! ## Checked fields -/

/-- What a field holds that is given like this, or else what it holds where nothing is given. -/
def Kind.Settles {α : Type} (kind : Kind α) (otherwise : α) : Option Json → α → Prop
  | some v, a => kind v = .ok a
  | none, a => a = otherwise

theorem Kind.nonneg_of_settles {otherwise i : Int} {v : Option Json} (hotherwise : 0 ≤ otherwise)
    (h : Kind.count.Settles otherwise v i) : 0 ≤ i := by
  cases v with
  | none => exact hotherwise.trans_eq h.symm
  | some v => exact (Kind.count_eq_ok_iff.1 h).2

namespace Checked
variable {α β : Type}

theorem map_eq_fits_iff {f : α → β} {a : Checked α} {b : β} : f <$> a = .fits b ↔ ∃ x, a = .fits x ∧ f x = b := by
  cases a <;> simp [Functor.map, apply]

theorem ofGiven_eq_fits_iff {kind : Kind α} {name : String} {v : Json} {a : α} :
    ofGiven kind name v = .fits a ↔ kind v = .ok a := by
  rw [ofGiven]
  cases kind v <;> simp

end Checked

/-- What a field is given as, whatever its name. -/
def Sources.word? (s : Sources) (n : FieldNames) : Option Json := (s.given? n).map Prod.snd

theorem Sources.field_eq_fits_iff {α : Type} {s : Sources} {n : FieldNames} {kind : Kind α} {otherwise a : α} :
    s.field n kind otherwise = .fits a ↔ kind.Settles otherwise (s.word? n) a := by
  rw [field, word?]
  cases s.given? n with
  | none => simp [Kind.Settles, eq_comm]
  | some given => exact Checked.ofGiven_eq_fits_iff

namespace Settings

/-- Settings whose fields are the arguments, and else what they are given as. -/
structure Settled (service tcp : Json) (word? : FieldNames → Option Json) (s : Settings) : Prop where
  env : Kind.text.Settles "local" (word? envNames) s.env
  logLevel : Kind.text.Settles "info" (word? logLevelNames) s.logLevel
  storeUrl : Kind.text.Settles "redis://localhost:6379/0" (word? storeUrlNames) s.storeUrl
  timeout : Kind.number.Settles 5.0 (word? timeoutNames) s.timeout
  connectTimeout : Kind.number.Settles 5.0 (word? connectTimeoutNames) s.connectTimeout
  lifetime : Kind.count.Settles 300 (word? lifetimeNames) s.lifetime
  latency : Kind.count.Settles 100 (word? latencyNames) s.latency
  metricsTcp : (Kind.optional Kind.integer).Settles none (word? metricsTcpNames) s.metricsTcp
  service : Kind.text service = .ok s.service
  tcp : Kind.integer tcp = .ok s.tcp
  host : Kind.text.Settles "0.0.0.0" (word? hostNames) s.host

/-- What is kept beside the fields. -/
def othersOf (s : Sources) : List (String × Json) :=
  (s.overrides.rows.filter fun row => isOther row.1) ++ fields.filterMap s.shadowed?

theorem check_eq_fits_iff {service tcp : Json} {s : Sources} {x : Settings} :
    check service tcp s = .fits x ↔ x.Settled service tcp s.word? ∧ x.others = othersOf s := by
  constructor
  · intro h
    obtain ⟨_, others, h₁, hothers, rfl⟩ := Checked.seq_eq_fits_iff.1 h
    obtain ⟨_, host, h₂, hhost, rfl⟩ := Checked.seq_eq_fits_iff.1 h₁
    obtain ⟨_, number, h₃, htcp, rfl⟩ := Checked.seq_eq_fits_iff.1 h₂
    obtain ⟨_, name, h₄, hservice, rfl⟩ := Checked.seq_eq_fits_iff.1 h₃
    obtain ⟨_, metricsTcp, h₅, hmetricsTcp, rfl⟩ := Checked.seq_eq_fits_iff.1 h₄
    obtain ⟨_, latency, h₆, hlatency, rfl⟩ := Checked.seq_eq_fits_iff.1 h₅
    obtain ⟨_, lifetime, h₇, hlifetime, rfl⟩ := Checked.seq_eq_fits_iff.1 h₆
    obtain ⟨_, connectTimeout, h₈, hconnectTimeout, rfl⟩ := Checked.seq_eq_fits_iff.1 h₇
    obtain ⟨_, timeout, h₉, htimeout, rfl⟩ := Checked.seq_eq_fits_iff.1 h₈
    obtain ⟨_, storeUrl, h₁₀, hstoreUrl, rfl⟩ := Checked.seq_eq_fits_iff.1 h₉
    obtain ⟨_, logLevel, h₁₁, hlogLevel, rfl⟩ := Checked.seq_eq_fits_iff.1 h₁₀
    obtain ⟨env, henv, rfl⟩ := Checked.map_eq_fits_iff.1 h₁₁
    obtain rfl : othersOf s = others := Checked.fits.inj hothers
    exact ⟨⟨Sources.field_eq_fits_iff.1 henv, Sources.field_eq_fits_iff.1 hlogLevel,
      Sources.field_eq_fits_iff.1 hstoreUrl, Sources.field_eq_fits_iff.1 htimeout,
      Sources.field_eq_fits_iff.1 hconnectTimeout, Sources.field_eq_fits_iff.1 hlifetime,
      Sources.field_eq_fits_iff.1 hlatency, Sources.field_eq_fits_iff.1 hmetricsTcp,
      Checked.ofGiven_eq_fits_iff.1 hservice, Checked.ofGiven_eq_fits_iff.1 htcp,
      Sources.field_eq_fits_iff.1 hhost⟩, rfl⟩
  · rintro ⟨h, hothers⟩
    rw [check, Sources.field_eq_fits_iff.2 h.env, Sources.field_eq_fits_iff.2 h.logLevel,
      Sources.field_eq_fits_iff.2 h.storeUrl, Sources.field_eq_fits_iff.2 h.timeout,
      Sources.field_eq_fits_iff.2 h.connectTimeout, Sources.field_eq_fits_iff.2 h.lifetime,
      Sources.field_eq_fits_iff.2 h.latency, Sources.field_eq_fits_iff.2 h.metricsTcp,
      Checked.ofGiven_eq_fits_iff.2 h.service, Checked.ofGiven_eq_fits_iff.2 h.tcp,
      Sources.field_eq_fits_iff.2 h.host]
    change Checked.fits (Settings.mk _ _ _ _ _ _ _ _ _ _ _ (othersOf s)) = _
    rw [← hothers]

/-! ## Reading -/

theorem ofSources_ne_ok (sources : Json) (x : Settings) : ofSources sources ≠ .ok x := by
  rw [ofSources]
  split
  · nofun
  · split <;> nofun
  · nofun

/-- Settings are checked in one manner or another. -/
theorem exists_check_of_read {service tcp : Json} {o : Table Json} {e : List (String × String)} {x : Settings}
    (h : read (some service) (some tcp) o e = .ok x) : ∃ manner, check service tcp ⟨o, e, manner⟩ = .fits x := by
  simp only [read] at h
  split at h
  · cases h
  · split at h
    · split at h
      · cases h
      · rename_i manner _
        split at h
        · cases h
        · cases hcheck : check service tcp ⟨o, e, manner⟩ with
          | fits settings =>
            rw [hcheck] at h
            cases h
            exact ⟨manner, hcheck⟩
          | faulty faults =>
            rw [hcheck] at h
            cases h
    · exact absurd h (ofSources_ne_ok _ _)

/-- Whether no override steers the reading. -/
def AreUnsteered (o : Table Json) : Prop := ∀ name ∈ Manner.steering, o.find? name = none

theorem AreUnsteered.manner {o : Table Json} (h : AreUnsteered o) : Manner.ofOverrides? o = some .standard := by
  have hidle : ∀ x ∈ Manner.idle, o.find? x.1 = none :=
    fun x hx => h x.1 (List.mem_append_right _ (List.mem_map_of_mem hx))
  simp only [Manner.ofOverrides?, h "_env_prefix" (by decide), h "_env_prefix_target" (by decide),
    hidle ("_env_file", _) List.mem_cons_self, h "_env_file_depth" (by decide), h "_case_sensitive" (by decide),
    h "_env_ignore_empty" (by decide), h "_env_parse_none_str" (by decide)]
  refine if_pos ?_
  rw [Bool.and_eq_true, List.all_eq_true]
  refine ⟨fun x hx => ?_, rfl⟩
  simp [hidle x hx, Json.isNull]

theorem AreUnsteered.command {o : Table Json} (h : AreUnsteered o) : CommandFault.of? o = none := by
  simp only [CommandFault.of?, h "_cli_prefix" (by decide), h "_cli_parse_args" (by decide)]
  rfl

/-- Where no override is taken or steers, the settings are checked in the standard manner. -/
theorem read_of_unsteered {o : Table Json} (h : AreUnsteered o)
    (htaken : ∀ name ∈ takenNames, o.find? name = none) (service tcp : Json) (e : List (String × String)) :
    read (some service) (some tcp) o e =
      match check service tcp ⟨o, e, .standard⟩ with
      | .fits settings => .ok settings
      | .faulty faults => .error (.invalid faults) := by
  have hfree : (takenNames.find? fun name => (o.find? name).isSome) = none := by
    rw [List.find?_eq_none]
    intro name hname
    simp [htaken name hname]
  have hsources : (o.find? Manner.sourcesName).getD .null = .null := by
    rw [h Manner.sourcesName (by decide)]
    rfl
  cases hcheck : check service tcp ⟨o, e, .standard⟩ <;>
    simp only [read, hfree, hsources, h.manner, h.command, hcheck]

theorem untaken_of_read {service tcp : Option Json} {o : Table Json} {e : List (String × String)} {x : Settings}
    (h : read service tcp o e = .ok x) : ∀ name ∈ takenNames, o.find? name = none := by
  cases hfirst : takenNames.find? fun name => (o.find? name).isSome with
  | some name =>
    simp only [read, hfirst] at h
    cases h
  | none =>
    intro name hname
    simpa using List.find?_eq_none.1 hfirst name hname

variable {service tcp : Json} {o o' : Table Json} {e e' : List (String × String)}

theorem Settled.withOthers {word? : FieldNames → Option Json} {s : Settings} (h : s.Settled service tcp word?)
    (others : List (String × Json)) : { s with others }.Settled service tcp word? :=
  ⟨h.env, h.logLevel, h.storeUrl, h.timeout, h.connectTimeout, h.lifetime, h.latency, h.metricsTcp, h.service, h.tcp,
    h.host⟩

theorem Settled.congr {word? word'? : FieldNames → Option Json} {s : Settings} (h : s.Settled service tcp word?)
    (hword : ∀ n ∈ fields, word'? n = word? n) : s.Settled service tcp word'? := by
  simp only [fields, List.forall_mem_cons] at hword
  obtain ⟨henv, hlogLevel, hstoreUrl, htimeout, hconnectTimeout, hlifetime, hlatency, hmetricsTcp, hhost, -⟩ := hword
  exact ⟨henv ▸ h.env, hlogLevel ▸ h.logLevel, hstoreUrl ▸ h.storeUrl, htimeout ▸ h.timeout,
    hconnectTimeout ▸ h.connectTimeout, hlifetime ▸ h.lifetime, hlatency ▸ h.latency, hmetricsTcp ▸ h.metricsTcp,
    h.service, h.tcp, hhost ▸ h.host⟩

/-- There are settings just if every field can be what settles it, and then it is. -/
theorem exists_read_iff (hunsteered : AreUnsteered o) (hdistinct : AreDistinct e) (s : Settings) :
    (∃ others, read (some service) (some tcp) o e = .ok { s with others }) ↔
      (∀ name ∈ takenNames, o.find? name = none) ∧ s.Settled service tcp (·.settled? o e) := by
  have hword : Sources.word? ⟨o, e, .standard⟩ = (·.settled? o e) := funext fun n => Sources.given?_standard n hdistinct
  constructor
  · rintro ⟨others, hread⟩
    have huntaken := untaken_of_read hread
    rw [read_of_unsteered hunsteered huntaken] at hread
    cases hcheck : check service tcp ⟨o, e, .standard⟩ with
    | faulty faults =>
      rw [hcheck] at hread
      cases hread
    | fits x =>
      rw [hcheck] at hread
      cases hread
      rw [check_eq_fits_iff, hword] at hcheck
      exact ⟨huntaken, hcheck.1.withOthers s.others⟩
  · rintro ⟨huntaken, hsettled⟩
    rw [← hword] at hsettled
    have hcheck := check_eq_fits_iff.2 ⟨hsettled.withOthers (othersOf ⟨o, e, .standard⟩), rfl⟩
    refine ⟨othersOf ⟨o, e, .standard⟩, ?_⟩
    rw [read_of_unsteered hunsteered huntaken, hcheck]

/-! ## Changes behind what counts -/

/-- Whether a name is one of a field that is no argument, whatever the case of its letters. -/
def isFieldName (name : String) : Bool := (fields.flatMap FieldNames.all).any (sameName name)

/-- The overrides beside the fields. -/
def beside (o : Table Json) : Table Json := o.keep fun name _ => !isFieldName name

/-- What is neither taken nor steers is no field. -/
theorem isFieldName_of_reserved : ∀ name ∈ takenNames ++ Manner.steering, isFieldName name = false := by
  simp only [isFieldName, sameName_eq_letterwise]
  decide +kernel

theorem find?_of_beside (h : beside o' = beside o) {name : String} (hname : name ∈ takenNames ++ Manner.steering) :
    o'.find? name = o.find? name := by
  have hkept : ∀ t : Table Json, (beside t).find? name = t.find? name := by
    intro t
    rw [beside, Table.find?_keep, isFieldName_of_reserved name hname]
    cases t.find? name <;> rfl
  rw [← hkept o', h, hkept o]

theorem filter_isOther (o : Table Json) :
    (o.rows.filter fun row => isOther row.1) = (beside o).rows.filter fun row => isOther row.1 := by
  have hother : ∀ name, isOther name = (isOther name && !isFieldName name) := by
    intro name
    rw [isOther, List.any_append, ← isFieldName]
    cases isFieldName name <;> simp
  change _ = (o.rows.filter fun row => !isFieldName row.1).filter fun row => isOther row.1
  rw [List.filter_filter]
  exact List.filter_congr fun row _ => hother row.1

theorem check_congr {s s' : Sources} (hgiven : ∀ n ∈ fields, s'.given? n = s.given? n)
    (hothers : othersOf s' = othersOf s) : check service tcp s' = check service tcp s := by
  rw [othersOf, othersOf] at hothers
  simp only [fields, List.forall_mem_cons] at hgiven
  obtain ⟨henv, hlogLevel, hstoreUrl, htimeout, hconnectTimeout, hlifetime, hlatency, hmetricsTcp, hhost, -⟩ := hgiven
  simp only [check, Sources.field, henv, hlogLevel, hstoreUrl, htimeout, hconnectTimeout, hlifetime, hlatency,
    hmetricsTcp, hhost, hothers]

theorem AreUnsteered.of_beside (h : AreUnsteered o) (hbeside : beside o' = beside o) : AreUnsteered o' :=
  fun name hname => (find?_of_beside hbeside (List.mem_append_right _ hname)).trans (h name hname)

/-- Where overrides are spelled as the names of fields are, what stands behind what counts changes nothing at all. -/
theorem read_of_agrees (hunsteered : AreUnsteered o) (hdistinct : AreDistinct e) (hdistinct' : AreDistinct e')
    (hbeside : beside o' = beside o) (hagrees : ∀ n ∈ fields, n.Agrees o e o' e') (hspelled : AreSpelled o)
    (hspelled' : AreSpelled o') :
    read (some service) (some tcp) o' e' = read (some service) (some tcp) o e := by
  have hfind : ∀ name ∈ takenNames ++ Manner.steering, o'.find? name = o.find? name := fun name hname =>
    find?_of_beside hbeside hname
  have hgiven : ∀ n ∈ fields, Sources.given? ⟨o', e', .standard⟩ n = Sources.given? ⟨o, e, .standard⟩ n := by
    intro n hn
    rw [Sources.given?_of_spelled n hdistinct' hspelled' hn, Sources.given?_of_spelled n hdistinct hspelled hn]
    exact ((hagrees n hn).map fun p v => (p.name, v)).findSome?
  have hshadowed : ∀ {t : Table Json} {f : List (String × String)}, AreSpelled t →
      fields.filterMap (Sources.shadowed? ⟨t, f, .standard⟩) = [] := fun ht =>
    List.filterMap_eq_nil_iff.2 fun n hn => Sources.shadowed?_of_spelled n ht hn
  have hothers : othersOf ⟨o', e', .standard⟩ = othersOf ⟨o, e, .standard⟩ := by
    rw [othersOf, othersOf, hshadowed hspelled', hshadowed hspelled, filter_isOther o', hbeside, ← filter_isOther o]
  have hunsteered' := hunsteered.of_beside hbeside
  by_cases htaken : ∀ name ∈ takenNames, o.find? name = none
  · have htaken' : ∀ name ∈ takenNames, o'.find? name = none := fun name hname =>
      (hfind name (List.mem_append_left _ hname)).trans (htaken name hname)
    rw [read_of_unsteered hunsteered' htaken', read_of_unsteered hunsteered htaken, check_congr hgiven hothers]
  · have hfirst : (takenNames.find? fun name => (o'.find? name).isSome) =
        takenNames.find? fun name => (o.find? name).isSome :=
      List.find?_congr fun name hname => by rw [hfind name (List.mem_append_left _ hname)]
    cases hname : takenNames.find? fun name => (o.find? name).isSome with
    | none =>
      refine absurd (fun name hmem => ?_) htaken
      simpa using List.find?_eq_none.1 hname name hmem
    | some name => simp only [read, hfirst, hname]

/-! ## The whole -/

/-- Whatever steers the reading: the name and the number of the service are the arguments, and neither seconds nor
milliseconds are negative. If nothing steers it, there are settings just if every field can be what settles it, and
then it is that; so whatever is changed behind what settles the fields, there are settings with the same fields as
before or there are still none. Where overrides are spelled as the names of fields are, nothing else changes either. -/
theorem settled_in_turn (service tcp : Json) (o : Table Json) (e : List (String × String)) :
    (∀ s, read (some service) (some tcp) o e = .ok s →
      Kind.text service = .ok s.service ∧ Kind.integer tcp = .ok s.tcp ∧ 0 ≤ s.lifetime ∧ 0 ≤ s.latency) ∧
    (AreUnsteered o → AreDistinct e →
      (∀ s : Settings, (∃ others, read (some service) (some tcp) o e = .ok { s with others }) ↔
        (∀ name ∈ takenNames, o.find? name = none) ∧ s.Settled service tcp (·.settled? o e)) ∧
      ∀ o' e', AreDistinct e' → beside o' = beside o → (∀ n ∈ fields, n.Agrees o e o' e') →
        (∀ s : Settings, (∃ others, read (some service) (some tcp) o' e' = .ok { s with others }) ↔
          ∃ others, read (some service) (some tcp) o e = .ok { s with others }) ∧
        (AreSpelled o → AreSpelled o' →
          read (some service) (some tcp) o' e' = read (some service) (some tcp) o e)) := by
  constructor
  · intro s hread
    obtain ⟨manner, hcheck⟩ := exists_check_of_read hread
    have hsettled := (check_eq_fits_iff.1 hcheck).1
    exact ⟨hsettled.service, hsettled.tcp, Kind.nonneg_of_settles (by decide) hsettled.lifetime,
      Kind.nonneg_of_settles (by decide) hsettled.latency⟩
  · intro hunsteered hdistinct
    refine ⟨exists_read_iff hunsteered hdistinct, fun o' e' hdistinct' hbeside hagrees => ⟨fun s => ?_, ?_⟩⟩
    · have hunsteered' := hunsteered.of_beside hbeside
      have htaken : (∀ name ∈ takenNames, o'.find? name = none) ↔ ∀ name ∈ takenNames, o.find? name = none :=
        forall₂_congr fun name hname => by rw [find?_of_beside hbeside (List.mem_append_left _ hname)]
      have hsettled : s.Settled service tcp (·.settled? o' e') ↔ s.Settled service tcp (·.settled? o e) :=
        ⟨fun h => h.congr fun n hn => (hagrees n hn).settled?.symm,
          fun h => h.congr fun n hn => (hagrees n hn).settled?⟩
      rw [exists_read_iff hunsteered' hdistinct', exists_read_iff hunsteered hdistinct, htaken, hsettled]
    · exact read_of_agrees hunsteered hdistinct hdistinct' hbeside hagrees

/-- What is given under an alias goes before what is given under the own name, among overrides as among variables. What
stands under the own names here would not fit. -/
theorem settled_in_turn_shadowed :
    read (some (.str "cache")) (some (.int 8020)) (Table.ofRows [("CACHE_ENV", .str "prod"), ("env", .int 5)])
        [("Cache_Provider_Latency_Ms", "60"), ("provider_latency_ms", "never")] =
      read (some (.str "cache")) (some (.int 8020)) (Table.ofRows [("CACHE_ENV", .str "prod")])
        [("Cache_Provider_Latency_Ms", "60")] ∧
    ∃ s, read (some (.str "cache")) (some (.int 8020)) (Table.ofRows [("CACHE_ENV", .str "prod")])
        [("Cache_Provider_Latency_Ms", "60")] = .ok s ∧ s.env = "prod" ∧ s.latency = 60 := by
  have hunsteered : AreUnsteered (Table.ofRows [("CACHE_ENV", .str "prod")]) := by
    unfold AreUnsteered
    decide +kernel
  have hdistinct : AreDistinct [("Cache_Provider_Latency_Ms", "60")] := List.pairwise_singleton _ _
  have hdistinct' : AreDistinct [("Cache_Provider_Latency_Ms", "60"), ("provider_latency_ms", "never")] := by
    rw [AreDistinct, sameName_eq_letterwise]
    decide +kernel
  have hspelled : AreSpelled (Table.ofRows [("CACHE_ENV", .str "prod")]) := by
    rw [AreSpelled, sameName_eq_letterwise]
    decide +kernel
  have hspelled' : AreSpelled (Table.ofRows [("CACHE_ENV", .str "prod"), ("env", .int 5)]) := by
    rw [AreSpelled, sameName_eq_letterwise]
    decide +kernel
  have hbeside : beside (Table.ofRows [("CACHE_ENV", .str "prod"), ("env", .int 5)]) =
      beside (Table.ofRows [("CACHE_ENV", .str "prod")]) := by
    simp only [beside, isFieldName, sameName_eq_letterwise]
    rfl
  have hagrees : ∀ n ∈ fields, n.Agrees (Table.ofRows [("CACHE_ENV", .str "prod")])
      [("Cache_Provider_Latency_Ms", "60")] (Table.ofRows [("CACHE_ENV", .str "prod"), ("env", .int 5)])
      [("Cache_Provider_Latency_Ms", "60"), ("provider_latency_ms", "never")] := by
    simp only [FieldNames.Agrees, Place.content?_eq_letterwise, fields, List.forall_mem_cons]
    refine ⟨⟨rfl, nofun⟩, ?_, ?_, ?_, ?_, ?_, ⟨rfl, fun _ => ⟨rfl, fun _ => ⟨rfl, nofun⟩⟩⟩, ?_, ?host, nofun⟩
    case host => exact ⟨rfl, fun _ => ⟨rfl, fun _ => trivial⟩⟩
    -- Nothing is given at any of the four places of the others.
    all_goals exact ⟨rfl, fun _ => ⟨rfl, fun _ => ⟨rfl, fun _ => ⟨rfl, fun _ => trivial⟩⟩⟩⟩
  have hsettled : Settled (.str "cache") (.int 8020)
      (·.settled? (Table.ofRows [("CACHE_ENV", .str "prod")]) [("Cache_Provider_Latency_Ms", "60")])
      ⟨"prod", "info", "redis://localhost:6379/0", 5.0, 5.0, 300, 60, none, "cache", 8020, "0.0.0.0", []⟩ := by
    simp only [FieldNames.settled?, Place.content?_eq_letterwise]
    exact ⟨rfl, rfl, rfl, rfl, rfl, rfl, rfl, rfl, rfl, rfl, rfl⟩
  obtain ⟨hread, hbehind⟩ := (settled_in_turn (.str "cache") (.int 8020) _ _).2 hunsteered hdistinct
  obtain ⟨others, hothers⟩ := (hread _).2 ⟨by decide +kernel, hsettled⟩
  exact ⟨(hbehind _ _ hdistinct' hbeside hagrees).2 hspelled hspelled', _, hothers, rfl, rfl⟩

theorem exists_ok_of_map {ε α β : Type} {r : Except ε α} {f : α → β} {b : β} (h : r.toOption.map f = some b) :
    ∃ a, r = .ok a ∧ f a = b := by
  cases r with
  | error fault => cases h
  | ok a => exact ⟨a, rfl, Option.some.inj h⟩

/-- The TCP number that metrics are exported on, and what is told by its name. -/
def metricsTold (s : Settings) : Option Int × Option String :=
  (s.metricsTcp, (s.json.member? "metrics_port").map Json.text)

/-- An override that steers the reading makes the case of letters count, so that a variable is not found. Behind an
override that is spelled otherwise than the names of its field a variable of the own name is kept, and told by that
name. -/
theorem settled_otherwise :
    (∃ s, read (some (.str "cache")) (some (.int 8020)) (Table.ofRows [("_case_sensitive", .bool true)])
        [("cache_env", "prod")] = .ok s ∧ s.env = "local") ∧
    envNames.settled? (Table.ofRows [("_case_sensitive", .bool true)]) [("cache_env", "prod")] = some (.str "prod") ∧
    (∃ s, read (some (.str "cache")) (some (.int 8020)) (Table.ofRows [("cache_metrics_port", .int 5)])
        [("METRICS_PORT", "1")] = .ok s ∧ s.metricsTold = (some 5, some "\"1\"")) ∧
    ∃ s, read (some (.str "cache")) (some (.int 8020)) (Table.ofRows [("cache_metrics_port", .int 5)]) [] = .ok s ∧
      s.metricsTold = (some 5, some "5") := by
  have hoverridden : Sources.overridden? = fun s name =>
      (s.overrides.rows.find? fun row => sameLetterwise row.1 name).map Prod.snd := by
    rw [← sameName_eq_letterwise]
    rfl
  have hshadowed : ∀ s : Sources, s.shadowed? = fun n => (s.override? n).bind fun _ =>
      if (s.written? n).isSome then none else (s.environment? n).filter fun v => v.1 ≠ n.first := fun _ => rfl
  -- The sources are variables until every comparison of names is one letter by letter.
  have hread : ∀ (o₁ o₂ : Table Json) (e₁ e₂ : List (String × String)),
      o₁ = Table.ofRows [("_case_sensitive", .bool true)] → o₂ = Table.ofRows [("cache_metrics_port", .int 5)] →
      e₁ = [("cache_env", "prod")] → e₂ = [("METRICS_PORT", "1")] →
      (read (some (.str "cache")) (some (.int 8020)) o₁ e₁).toOption.map env = some "local" ∧
      (read (some (.str "cache")) (some (.int 8020)) o₂ e₂).toOption.map metricsTold = some (some 5, some "\"1\"") ∧
      (read (some (.str "cache")) (some (.int 8020)) o₂ []).toOption.map metricsTold = some (some 5, some "5") := by
    intro o₁ o₂ e₁ e₂ ho₁ ho₂ he₁ he₂
    simp only [read, check, Sources.field, Sources.given?, hshadowed, Sources.override?, hoverridden,
      Sources.environment?, Sources.assigned?, Manner.names, isOther, sameName_eq_letterwise]
    subst ho₁ ho₂ he₁ he₂
    decide +kernel
  obtain ⟨hsteered, hbeside, halone⟩ := hread _ _ _ _ rfl rfl rfl rfl
  refine ⟨exists_ok_of_map hsteered, ?_, exists_ok_of_map hbeside, exists_ok_of_map halone⟩
  simp only [FieldNames.settled?, Place.content?_eq_letterwise]
  rfl

end Settings
end CacheAside
