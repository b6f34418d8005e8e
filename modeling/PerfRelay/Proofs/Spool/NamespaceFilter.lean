import PerfRelay.Proofs.Collection.PolicyFields
import PerfRelay.Proofs.Spool.Fetches
import PerfRelay.Proofs.Text.LowerCase

/-!
# Records of listed namespaces

Settings list namespaces, and a policy made from them asks for records without them or for nothing
but them.  The policy holds the lower case of what the settings list, while a record is compared as
it stands.  So a listed namespace matches the records that carry it if it is its own lower case, and
otherwise it matches none of them.

Main results:

- Theorem `Namespaces.contains_listed_iff`: when a listed namespace is one of the policy.
- Theorem `filters_iff`: when the records that carry a listed namespace are filtered as settings
  say.
-/

namespace PerfRelay

/-- What a policy asks a node for. -/
def Policy.query (policy : Policy) (node : Option String) (timestamp : String) : Query :=
  ⟨node, policy.filteringMode, policy.namespaces, timestamp⟩

@[simp]
theorem Policy.allows_query (policy : Policy) (node : Option String) (timestamp name : String) :
    (policy.query node timestamp).allows name = policy.allows name := rfl

/-- A collector asks for what its policy asks for. -/
theorem Collector.query_eq {σ μ : Type} (collector : Collector σ μ) (utc : Nat)
    (node : Option String) :
    collector.query utc node = collector.policy.query node (Calendar.stamp utc) := rfl

/-! ## Listed namespaces -/

/-- The settings list a namespace, whatever else stands beside it. -/
def Settings.Lists (settings : Settings) (name : String) : Prop :=
  ∃ entries, settings.get? Namespaces.settingName = some (.array entries) ∧
    Json.Value.string name ∈ entries

variable {settings : Settings} {name : String}

theorem Settings.Lists.isEmpty (h : settings.Lists name) : settings.isEmpty = false := by
  obtain ⟨entries, hentries, -⟩ := h
  rw [Settings.get?] at hentries
  exact Dictionary.isEmpty_of_isSome_get? (Option.isSome_of_eq_some hentries)

/-- A listed namespace is one of the policy if it is its own lower case: every other one is the
lower case of some text, and a lower case does not change any more. -/
theorem Namespaces.contains_listed_iff (h : settings.Lists name) :
    (ofSettings settings).contains name = true ↔ lowerCase name = name := by
  rw [← NameSet.mem_toList, mem_ofSettings_iff]
  constructor
  · rintro ⟨-, text, -, -, rfl⟩
    exact lowerCase_lowerCase text
  · intro hlower
    obtain ⟨entries, hentries, hmem⟩ := h
    exact ⟨entries, name, hentries, hmem, hlower⟩

/-- Something is listed, so the policy does not stand for all namespaces. -/
theorem Namespaces.isEmpty_of_lists (h : settings.Lists name) :
    (ofSettings settings).isEmpty = false := by
  obtain ⟨entries, hentries, hmem⟩ := h
  have hlower : lowerCase name ∈ (ofSettings settings).toList :=
    mem_ofSettings_iff.2 ⟨entries, name, hentries, hmem, rfl⟩
  exact Dictionary.isEmpty_of_isSome_get? (NameSet.mem_toList.1 hlower)

namespace Policy

variable {prior : Policy}

theorem namespaces_resolve (h : settings.Lists name) (prior : Policy) :
    (resolve (some settings) prior).namespaces = Namespaces.ofSettings settings := by
  rw [resolve_of_not_isEmpty h.isEmpty, ofSettings]

theorem allows_listed_of_exclude (h : settings.Lists name)
    (hmode : (resolve (some settings) prior).filteringMode = .exclude) :
    (resolve (some settings) prior).allows name = true ↔ lowerCase name ≠ name := by
  rw [allows, hmode, FilteringMode.allows_exclude_iff, namespaces_resolve h,
    ← Bool.not_eq_true, Namespaces.contains_listed_iff h]

theorem allows_listed_of_include (h : settings.Lists name)
    (hmode : (resolve (some settings) prior).filteringMode = .include) :
    (resolve (some settings) prior).allows name = true ↔ lowerCase name = name := by
  rw [allows, hmode, FilteringMode.allows_include_iff, namespaces_resolve h,
    Namespaces.isEmpty_of_lists h, Namespaces.contains_listed_iff h]
  simp

end Policy

/-! ## Filtered records -/

namespace SpoolSource

/-- Whether a record carries a namespace. -/
def carries (name : String) (record : Record) : Bool :=
  decide (Spool.namespaceOf? record = some name)

/-- A fetch gives no record with a namespace. -/
def Drops (source : SpoolSource) (fetch : SpoolFetch) (name : String) : Prop :=
  ∀ batch, (source.answer fetch).1 = .ok batch → batch.filter (carries name) = []

/-- A fetch that takes its file gives all records in it with a namespace. -/
def Keeps (source : SpoolSource) (fetch : SpoolFetch) (name : String) : Prop :=
  ∀ modified content records, source.Takes fetch modified content records →
    ∃ batch, (source.answer fetch).1 = .ok batch ∧
      batch.filter (carries name) = records.filter (carries name)

/-- A fetch takes no record with a namespace, whether it gives it or not. -/
def TakesNone (source : SpoolSource) (fetch : SpoolFetch) (name : String) : Prop :=
  ∀ modified content records, source.Takes fetch modified content records →
    records.filter (carries name) = []

variable {source : SpoolSource} {fetch : SpoolFetch}

/-- Of the records with a namespace either all are wanted or none. -/
theorem filter_carries_wants (query : Query) (records : List Record) (name : String) :
    (records.filter (Spool.wants query)).filter (carries name) =
      if query.allows name = true then records.filter (carries name) else [] := by
  have hwants : ∀ record, carries name record = true →
      (Spool.wants query record = true ↔ query.allows name = true) := by
    intro record hcarries
    rw [Spool.wants_iff, of_decide_eq_true hcarries]
    simp
  rw [List.filter_filter]
  split
  · rename_i hallows
    apply List.filter_congr
    intro record _
    cases hcarries : carries name record with
    | false => rfl
    | true => simpa using (hwants record hcarries).2 hallows
  · rename_i hallows
    rw [List.filter_eq_nil_iff]
    intro record _ hboth
    rw [Bool.and_eq_true] at hboth
    exact hallows ((hwants record hboth.1).1 hboth.2)

theorem drops_iff :
    source.Drops fetch name ↔ fetch.query.allows name = false ∨ source.TakesNone fetch name := by
  constructor
  · intro hdrops
    rw [or_iff_not_imp_left, Bool.not_eq_false]
    intro hallows modified content records htakes
    have hgiven := hdrops _ (by rw [htakes.answer_eq])
    rwa [filter_carries_wants, if_pos hallows] at hgiven
  · intro h batch hbatch
    rcases batch_cases hbatch with ⟨rfl, -⟩ | ⟨modified, content, records, htakes, rfl⟩
    · rfl
    · rw [filter_carries_wants]
      rcases h with hrefused | hnone
      · rw [if_neg (by simp [hrefused])]
      · rw [hnone _ _ _ htakes, ite_self]

theorem keeps_iff :
    source.Keeps fetch name ↔ fetch.query.allows name = true ∨ source.TakesNone fetch name := by
  constructor
  · intro hkeeps
    rw [or_iff_not_imp_left]
    intro hrefused modified content records htakes
    obtain ⟨batch, hbatch, hsame⟩ := hkeeps _ _ _ htakes
    rw [htakes.answer_eq, Except.ok.injEq] at hbatch
    rwa [← hbatch, filter_carries_wants, if_neg hrefused, eq_comm] at hsame
  · intro h modified content records htakes
    refine ⟨_, by rw [htakes.answer_eq], ?_⟩
    rw [filter_carries_wants]
    rcases h with hallows | hnone
    · rw [if_pos hallows]
    · rw [hnone _ _ _ htakes, ite_self]

/-- A fetch filters a namespace: it drops the records with it where the namespaces are excluded, and
keeps them where the namespaces are included. -/
def Filters (source : SpoolSource) (fetch : SpoolFetch) (name : String) : Prop :=
  (fetch.query.filteringMode = .exclude → source.Drops fetch name) ∧
    (fetch.query.filteringMode = .include → source.Keeps fetch name)

/-- A fetch with a policy that was made from settings filters a namespace that the settings list if
and only if there is no filtering, the namespace is its own lower case, or no record that is taken
carries it. -/
theorem filters_iff {settings : Settings} {name : String} (h : settings.Lists name)
    {prior : Policy} {node : Option String} {timestamp : String}
    (hquery : fetch.query = (Policy.resolve (some settings) prior).query node timestamp) :
    source.Filters fetch name ↔
      Policy.modeOf settings = .off ∨ lowerCase name = name ∨ source.TakesNone fetch name := by
  have hmode : (Policy.resolve (some settings) prior).filteringMode = Policy.modeOf settings := by
    rw [Policy.resolve_of_not_isEmpty h.isEmpty, Policy.ofSettings]
  have hasked : fetch.query.filteringMode = Policy.modeOf settings := by
    rw [hquery]
    exact hmode
  rw [Filters, drops_iff, keeps_iff, hasked]
  cases hcase : Policy.modeOf settings with
  | off => simp
  | «include» =>
    rw [hquery, Policy.allows_query, Policy.allows_listed_of_include h (hmode.trans hcase)]
    simp
  | exclude =>
    rw [hquery, Policy.allows_query, ← Bool.not_eq_true,
      Policy.allows_listed_of_exclude h (hmode.trans hcase)]
    simp

/-- An object that lists two spellings of a namespace beside something else, and excludes them. -/
def excludingApp : Dictionary Json.Value where
  entries := [("Namespaces", .array [.string "app", .int 3, .string "App"]),
    ("namespaceFilteringMode", .string "Exclude")]
  sorted := List.pairwise_pair.2 (by decide)

theorem lists_excludingApp {name : String} (h : name = "app" ∨ name = "App") :
    (Settings.ofDictionary excludingApp).Lists name := by
  have hnamespaces : lowerCase "Namespaces" = "namespaces" := by decide +kernel
  have hmode : lowerCase "namespaceFilteringMode" = "namespacefilteringmode" := by decide +kernel
  have hsetting : lowerCase Namespaces.settingName = "namespaces" := by decide +kernel
  refine ⟨[.string "app", .int 3, .string "App"], ?_, by simpa using h⟩
  rw [Settings.get?_ofDictionary]
  simp [Settings.spellings, Dictionary.filterKeys, excludingApp, hnamespaces, hmode, hsetting]

/-- A fetch of the local records that the settings do not exclude. -/
def fetchWithoutApp : SpoolFetch :=
  ⟨.perf, (Policy.resolve (some (.ofDictionary excludingApp)) (.initial 60)).query none "", []⟩

/-- The namespace is its own lower case. -/
theorem filters_iff_app :
    (Settings.ofDictionary excludingApp).Lists "app" ∧
      (start "/s" (Spool.localFile 5 (Spool.oneRecord "app"))).Filters fetchWithoutApp "app" := by
  have hlists : (Settings.ofDictionary excludingApp).Lists "app" := lists_excludingApp (by simp)
  have hlower : lowerCase "app" = "app" := by decide +kernel
  have hquery : fetchWithoutApp.query = (Policy.resolve (some (.ofDictionary excludingApp))
      (.initial 60)).query none "" := rfl
  exact ⟨hlists, (filters_iff hlists hquery).2 (.inr (.inl hlower))⟩

/-- A record with a capital letter in its namespace is given although this very namespace is
excluded. -/
theorem not_filters_capital :
    (Settings.ofDictionary excludingApp).Lists "App" ∧
      ¬ (start "/s" (Spool.localFile 5 (Spool.oneRecord "App"))).Filters fetchWithoutApp "App" := by
  have hlists : (Settings.ofDictionary excludingApp).Lists "App" := lists_excludingApp (by simp)
  have hmode : (Policy.resolve (some (.ofDictionary excludingApp))
      (.initial 60)).filteringMode = .exclude := by decide +kernel
  have hlower : lowerCase "App" ≠ "App" := by decide +kernel
  refine ⟨hlists, ?_⟩
  rintro ⟨hexcluded, -⟩
  rcases drops_iff.1 (hexcluded hmode) with hrefused | hnone
  · have hallows : fetchWithoutApp.query.allows "App" = true :=
      (Policy.allows_listed_of_exclude hlists hmode).2 hlower
    simp [hallows] at hrefused
  · have htaken := hnone _ _ _ (takes_localFile rfl (by decide) rfl)
    simp [carries, Spool.namespaceOf?, Json.Value.field?, lookupEntry, Json.Value.asString?]
      at htaken

end SpoolSource

end PerfRelay
