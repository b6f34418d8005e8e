import PerfRelay.Configuration.ContainerLogs
import Mathlib.Data.List.Forall2
import Mathlib.Data.List.Induction
import Mathlib.Data.List.Nodup
import Mathlib.Data.List.Perm.Basic

/-!
# What the routes of container logs are

The routes are made configuration by configuration and namespace by namespace.  What they come to
can be said without that: under a namespace stand the streams of the configurations that list it, in
the order of the configurations, each where it occurs first.

The entries of an output stream map have no order, but the stream for container logs is the first
one whose data type has the right name up to the case of the letters.  That makes no difference as
long as a configuration has one such stream, or lists no namespaces.

Main results:

- Theorem `get?_routes`: the streams under a namespace.
- Theorem `routes_reference`: the routes of configurations with one key for container logs at most.
- Theorem `routes_reordered_iff`: when the order of the output stream maps makes no difference.
-/

namespace PerfRelay

/-! ## Namespaces in settings -/

namespace Namespaces

variable {name : String}

theorem entries?_eq_some_iff {value : Json.Value} {entries : List Json.Value} :
    entries? value = some entries ↔ value = .array entries ∧ entries ≠ [] := by
  constructor
  · intro h
    unfold entries? at h
    split at h
    · cases h
      exact ⟨rfl, List.cons_ne_nil _ _⟩
    · cases h
  · rintro ⟨rfl, hne⟩
    cases entries with
    | nil => exact absurd rfl hne
    | cons entry entries => rfl

theorem mem_ofEntries_iff {entries : List Json.Value} :
    name ∈ (ofEntries entries).toList ↔
      ∃ text, Json.Value.string text ∈ entries ∧ lowerCase text = name := by
  rw [ofEntries, NameSet.mem_toList, NameSet.contains_ofList, List.mem_filterMap]
  constructor
  · rintro ⟨entry, hmem, hname⟩
    cases entry with
    | string text => exact ⟨text, hmem, Option.some.inj hname⟩
    | _ => cases hname
  · rintro ⟨text, hmem, rfl⟩
    exact ⟨.string text, hmem, rfl⟩

/-- The namespaces of settings are the texts of an array, in lower case. -/
theorem mem_ofSettings_iff {settings : Settings} :
    name ∈ (ofSettings settings).toList ↔
      ∃ entries text, settings.get? settingName = some (.array entries) ∧
        Json.Value.string text ∈ entries ∧ lowerCase text = name := by
  constructor
  · intro h
    unfold ofSettings at h
    split at h
    · simp [NameSet.mem_toList] at h
    · rename_i entries hsome
      obtain ⟨value, hvalue, hentries⟩ := Option.bind_eq_some_iff.1 hsome
      obtain ⟨rfl, -⟩ := entries?_eq_some_iff.1 hentries
      obtain ⟨text, hmem, hname⟩ := mem_ofEntries_iff.1 h
      exact ⟨entries, text, hvalue, hmem, hname⟩
  · rintro ⟨entries, text, hvalue, hmem, hname⟩
    have hentries : entries? (.array entries) = some entries :=
      entries?_eq_some_iff.2 ⟨rfl, List.ne_nil_of_mem hmem⟩
    rw [ofSettings_of_entries hvalue hentries]
    exact mem_ofEntries_iff.2 ⟨text, hmem, hname⟩

end Namespaces

namespace ContainerLogs

variable {configuration reordered : Configuration} {name : String}

/-! ## What one configuration says -/

/-- The streams under all keys for container logs, in the order of the entries. -/
def streams (configuration : Configuration) : List String :=
  (configuration.outputStreams.filter fun (name, _) => eqIgnoringCase name dataType).map (·.2)

/-- The namespaces that a configuration lists. -/
def namespacesOf (configuration : Configuration) : List String :=
  (configuration.settings.map fun settings => (Namespaces.ofSettings settings).toList).getD []

/-- The settings of a configuration have an array of namespaces with this one among its texts, up to
its case. -/
def Lists (configuration : Configuration) (name : String) : Prop :=
  ∃ settings entries text, configuration.settings = some settings ∧
    settings.get? Namespaces.settingName = some (.array entries) ∧
      Json.Value.string text ∈ entries ∧ lowerCase text = name

theorem stream?_eq_head? (configuration : Configuration) :
    stream? configuration = (streams configuration).head? := by
  rw [streams, List.head?_map, List.head?_filter]
  rfl

theorem lists_iff : Lists configuration name ↔ name ∈ namespacesOf configuration := by
  cases hsettings : configuration.settings with
  | none => simp [Lists, namespacesOf, hsettings]
  | some settings => simp [Lists, namespacesOf, hsettings, Namespaces.mem_ofSettings_iff]

instance : Decidable (Lists configuration name) :=
  decidable_of_iff _ lists_iff.symm

/-- What a configuration adds to the streams of a namespace. -/
def streamFor (configuration : Configuration) (name : String) : List String :=
  if Lists configuration name then (stream? configuration).toList else []

/-! ## Adding streams -/

section Adding

variable {stream : String} {found : List String}

theorem addStream_of_mem (h : stream ∈ found) : addStream stream found = found :=
  if_pos h

theorem addStream_of_not_mem (h : stream ∉ found) : addStream stream found = found ++ [stream] :=
  if_neg h

theorem mem_addStream_iff {other : String} :
    other ∈ addStream stream found ↔ other = stream ∨ other ∈ found := by
  by_cases h : stream ∈ found
  · rw [addStream_of_mem h]
    exact ⟨.inr, fun hother => hother.elim (fun heq => heq ▸ h) id⟩
  · rw [addStream_of_not_mem h, List.mem_append, List.mem_singleton, or_comm]

theorem addStream_append_of_not_mem {more : List String} (h : stream ∉ found) :
    addStream stream (found ++ more) = found ++ addStream stream more := by
  by_cases hmore : stream ∈ more
  · rw [addStream_of_mem hmore, addStream_of_mem (List.mem_append_right _ hmore)]
  · rw [addStream_of_not_mem hmore, addStream_of_not_mem (by simp [h, hmore]), List.append_assoc]

theorem filter_addStream (keeps : String → Bool) :
    (addStream stream found).filter keeps =
      if keeps stream then addStream stream (found.filter keeps) else found.filter keeps := by
  by_cases hmem : stream ∈ found <;> by_cases hkeeps : keeps stream = true <;>
    simp [addStream, hmem, hkeeps]

/-- Streams with more streams added one by one, each unless it is there. -/
def addStreams (found more : List String) : List String :=
  more.foldl (fun found stream => addStream stream found) found

@[simp] theorem addStreams_nil (found : List String) : addStreams found [] = found := rfl

theorem addStreams_append (found first second : List String) :
    addStreams found (first ++ second) = addStreams (addStreams found first) second :=
  List.foldl_append

theorem addStreams_concat (found more : List String) (stream : String) :
    addStreams found (more ++ [stream]) = addStream stream (addStreams found more) :=
  addStreams_append ..

theorem mem_addStreams_iff {more : List String} :
    stream ∈ addStreams found more ↔ stream ∈ found ∨ stream ∈ more := by
  induction more using List.reverseRecOn with
  | nil => simp
  | append_singleton more last ih =>
    rw [addStreams_concat, mem_addStream_iff, ih, List.mem_append, List.mem_singleton]
    tauto

theorem nodup_addStreams (h : found.Nodup) (more : List String) :
    (addStreams found more).Nodup := by
  induction more using List.reverseRecOn with
  | nil => exact h
  | append_singleton more last ih =>
    rw [addStreams_concat]
    by_cases hmem : last ∈ addStreams found more
    · rwa [addStream_of_mem hmem]
    · rw [addStream_of_not_mem hmem, ← List.concat_eq_append]
      exact List.Nodup.concat hmem ih

/-- Streams added to none stand where they occur first. -/
theorem addStreams_eq_eraseDups (more : List String) : addStreams [] more = more.eraseDups := by
  induction more using List.reverseRecOn with
  | nil => rfl
  | append_singleton more last ih =>
    rw [addStreams_concat, ih, List.eraseDups_append]
    by_cases hmem : last ∈ more
    · simp [addStream_of_mem (List.mem_eraseDups.2 hmem), List.removeAll, hmem]
    · simp [addStream, List.removeAll, hmem, List.eraseDups_cons]

/-- To add streams is to append those that are not there. -/
theorem addStreams_eq_append (found more : List String) :
    addStreams found more = found ++ (addStreams [] more).filter (· ∉ found) := by
  induction more using List.reverseRecOn with
  | nil => simp
  | append_singleton more last ih =>
    rw [addStreams_concat, addStreams_concat, ih, filter_addStream]
    by_cases hmem : last ∈ found
    · simp [addStream_of_mem (List.mem_append_left _ hmem), hmem]
    · simp [addStream_append_of_not_mem hmem, hmem]

end Adding

/-! ## The routes, configuration by configuration -/

/-- Enters the routes of one configuration. -/
def enter (routes : Routes) (configuration : Configuration) : Routes :=
  ((stream? configuration).map fun stream =>
    routeTo stream routes (namespacesOf configuration)).getD routes

theorem routes_eq_foldl (configurations : List Configuration) :
    routes configurations = configurations.foldl enter .empty := by
  rw [routes, List.foldl_filterMap]
  congr 1
  funext routes configuration
  cases hstream : stream? configuration <;> cases hsettings : configuration.settings <;>
    simp [source?, enter, namespacesOf, hstream, hsettings]

theorem get?_routeTo (stream : String) (routes : Routes) (namespaces : List String) :
    (routeTo stream routes namespaces).get? name =
      if name ∈ namespaces then some (addStream stream ((routes.get? name).getD []))
      else routes.get? name := by
  induction namespaces generalizing routes with
  | nil => rfl
  | cons head rest ih =>
    rw [routeTo_eq, ih]
    by_cases hhead : name = head
    · subst hhead
      -- A namespace that comes again has the stream already.
      simp [addStream_of_mem (mem_addStream_iff.2 (.inl rfl))]
    · rw [Dictionary.get?_alter_of_ne _ _ hhead]
      simp [hhead]

/-- What stands under a namespace after some streams were sent there: if there were none, what stood
there before. -/
def extend (found : Option (List String)) (more : List String) : Option (List String) :=
  if more = [] then found else some (addStreams (found.getD []) more)

theorem getD_extend (found : Option (List String)) (more : List String) :
    (extend found more).getD [] = addStreams (found.getD []) more := by
  by_cases h : more = []
  · simp [extend, h]
  · simp [extend, h]

theorem extend_extend (found : Option (List String)) (first second : List String) :
    extend (extend found first) second = extend found (first ++ second) := by
  by_cases hfirst : first = []
  · simp [extend, hfirst]
  · by_cases hsecond : second = []
    · simp [extend, hsecond]
    · simp [extend, hfirst, hsecond, addStreams_append]

theorem get?_enter (routes : Routes) (configuration : Configuration) :
    (enter routes configuration).get? name =
      extend (routes.get? name) (streamFor configuration name) := by
  cases hstream : stream? configuration with
  | none => simp [enter, extend, streamFor, hstream]
  | some stream =>
    by_cases hlists : Lists configuration name
    · have hmem := lists_iff.1 hlists
      simp [enter, extend, streamFor, hstream, hlists, get?_routeTo, hmem, addStreams]
    · have hmem := mt lists_iff.2 hlists
      simp [enter, extend, streamFor, hstream, hlists, get?_routeTo, hmem]

theorem get?_foldl_enter (configurations : List Configuration) (routes : Routes) :
    (configurations.foldl enter routes).get? name =
      extend (routes.get? name) (configurations.flatMap (streamFor · name)) := by
  induction configurations generalizing routes with
  | nil => rfl
  | cons configuration configurations ih =>
    rw [List.foldl_cons, ih, get?_enter, extend_extend, List.flatMap_cons]

/-- Under a namespace stand the streams of the configurations that list it. -/
theorem get?_routes (configurations : List Configuration) (name : String) :
    (routes configurations).get? name =
      extend none (configurations.flatMap (streamFor · name)) := by
  rw [routes_eq_foldl, get?_foldl_enter, Dictionary.get?_empty]

/-- The streams under a namespace, none if it is not mapped. -/
def streamsUnder (configurations : List Configuration) (name : String) : List String :=
  ((routes configurations).get? name).getD []

theorem streamsUnder_eq (configurations : List Configuration) (name : String) :
    streamsUnder configurations name =
      addStreams [] (configurations.flatMap (streamFor · name)) := by
  rw [streamsUnder, get?_routes, getD_extend]
  rfl

/-- More configurations add the streams that are not there. -/
theorem streamsUnder_append (first second : List Configuration) (name : String) :
    streamsUnder (first ++ second) name =
      streamsUnder first name ++
        (streamsUnder second name).filter (· ∉ streamsUnder first name) := by
  simp only [streamsUnder_eq, List.flatMap_append, addStreams_append]
  exact addStreams_eq_append ..

/-! ## Configurations with one key for container logs -/

/-- Of one key at most, the first stream is all there is. -/
theorem streamFor_of_length_le (h : (streams configuration).length ≤ 1) (name : String) :
    streamFor configuration name =
      if Lists configuration name then streams configuration else [] := by
  rw [streamFor, stream?_eq_head?]
  congr 1
  rcases hstreams : streams configuration with _ | ⟨first, _ | ⟨second, rest⟩⟩
  · rfl
  · rfl
  · simp [hstreams] at h

theorem flatMap_streamFor {configurations : List Configuration}
    (honce : ∀ configuration ∈ configurations, (streams configuration).length ≤ 1)
    (name : String) :
    configurations.flatMap (streamFor · name) =
      (configurations.filter (Lists · name)).flatMap streams := by
  induction configurations with
  | nil => rfl
  | cons configuration configurations ih =>
    have hfirst := streamFor_of_length_le (honce _ List.mem_cons_self) name
    have hrest := ih fun other hmem => honce other (List.mem_cons_of_mem _ hmem)
    by_cases hlists : Lists configuration name
    · simp [hfirst, hrest, hlists]
    · simp [hfirst, hrest, hlists]

/-- Configurations with one key for container logs at most map a namespace just if one of them has
the key and lists the namespace.  Under it stand the streams of all that do, in the order of the
configurations, each where it occurs first; further configurations add the streams that are not
there. -/
theorem routes_reference (configurations : List Configuration) (name : String)
    (honce : ∀ configuration ∈ configurations, (streams configuration).length ≤ 1) :
    (∀ found, (routes configurations).get? name = some found ↔
      (∃ configuration ∈ configurations,
        streams configuration ≠ [] ∧ Lists configuration name) ∧
      found = ((configurations.filter (Lists · name)).flatMap streams).eraseDups) ∧
    (streamsUnder configurations name).Nodup ∧
    (∀ stream, stream ∈ streamsUnder configurations name ↔
      ∃ configuration ∈ configurations,
        Lists configuration name ∧ stream ∈ streams configuration) ∧
    ∀ more, streamsUnder (configurations ++ more) name =
      streamsUnder configurations name ++
        (streamsUnder more name).filter (· ∉ streamsUnder configurations name) := by
  have hall := flatMap_streamFor honce name
  refine ⟨fun found => ?_, ?_, fun stream => ?_, fun more => streamsUnder_append ..⟩
  · have hmapped : (configurations.filter (Lists · name)).flatMap streams ≠ [] ↔
        ∃ configuration ∈ configurations,
          streams configuration ≠ [] ∧ Lists configuration name := by
      simp [List.flatMap_eq_nil_iff, and_comm]
    rw [get?_routes, hall, extend, ← hmapped, ← addStreams_eq_eraseDups]
    by_cases hnone : (configurations.filter (Lists · name)).flatMap streams = []
    · rw [if_pos hnone]
      exact iff_of_false (by simp) fun h => h.1 hnone
    · rw [if_neg hnone, Option.some.injEq, and_iff_right hnone]
      exact eq_comm
  · rw [streamsUnder_eq]
    exact nodup_addStreams List.nodup_nil _
  · rw [streamsUnder_eq, mem_addStreams_iff, hall]
    simp [and_assoc]

/-- A configuration with some output streams that lists some namespaces. -/
def logsTo (outputStreams : List (String × String)) (namespaces : List String) : Configuration :=
  ⟨outputStreams, some (.ofMembers [("namespaces", .array (namespaces.map .string))])⟩

/-- Two configurations that spell the key and one of the namespaces each in their own way. -/
def twoSpellings : List Configuration :=
  [logsTo [("ContainerInsights_ContainerLogV2", "dcr-logs-a"), ("LINUX_PERF_BLOB", "dcr-perf")]
      ["App", "kube-system"],
    logsTo [("containerinsights_containerlogv2", "dcr-logs-b")] ["app", "APP"]]

/-- Both of them have a stream for the namespace. -/
theorem routes_reference_twoSpellings :
    (∀ configuration ∈ twoSpellings, (streams configuration).length ≤ 1) ∧
      (∃ configuration ∈ twoSpellings, streams configuration ≠ [] ∧ Lists configuration "app") ∧
      streamsUnder twoSpellings "app" = ["dcr-logs-a", "dcr-logs-b"] := by
  have honce : ∀ configuration ∈ twoSpellings, (streams configuration).length ≤ 1 := by
    decide +kernel
  have hfound : (routes twoSpellings).get? "app" = some ["dcr-logs-a", "dcr-logs-b"] := by
    decide +kernel
  have hmapped := (((routes_reference twoSpellings "app" honce).1 _).1 hfound).1
  refine ⟨honce, hmapped, ?_⟩
  rw [streamsUnder, hfound, Option.getD_some]

/-! ## The order of the output streams -/

/-- A configuration with the entries of its output stream map in another order. -/
structure Reordered (configuration reordered : Configuration) : Prop where
  outputStreams : configuration.outputStreams.Perm reordered.outputStreams
  settings : configuration.settings = reordered.settings

/-- A configuration has no namespaces, or one stream for all of its keys for container logs. -/
def Unambiguous (configuration : Configuration) : Prop :=
  namespacesOf configuration = [] ∨
    ∀ stream ∈ streams configuration, ∀ other ∈ streams configuration, stream = other

theorem Reordered.perm_streams (h : Reordered configuration reordered) :
    (streams configuration).Perm (streams reordered) :=
  (h.outputStreams.filter _).map _

theorem Reordered.namespacesOf_eq (h : Reordered configuration reordered) :
    namespacesOf configuration = namespacesOf reordered := by
  rw [namespacesOf, namespacesOf, h.settings]

theorem Reordered.stream?_eq (h : Reordered configuration reordered)
    (hone : ∀ stream ∈ streams configuration, ∀ other ∈ streams configuration, stream = other) :
    stream? configuration = stream? reordered := by
  rw [stream?_eq_head?, stream?_eq_head?]
  have hperm := h.perm_streams
  rcases hfirst : streams configuration with _ | ⟨stream, rest⟩
  · rw [hfirst] at hperm
    rw [hperm.nil_eq]
  · rcases hsecond : streams reordered with _ | ⟨other, others⟩
    · rw [hsecond] at hperm
      exact absurd hperm.eq_nil (hfirst ▸ List.cons_ne_nil _ _)
    · have hother : other ∈ streams configuration :=
        hperm.mem_iff.2 (hsecond ▸ List.mem_cons_self)
      have hstream : stream ∈ streams configuration := hfirst ▸ List.mem_cons_self
      exact congrArg some (hone stream hstream other hother)

theorem Reordered.enter_eq (h : Reordered configuration reordered)
    (hclear : Unambiguous configuration) (routes : Routes) :
    enter routes configuration = enter routes reordered := by
  rcases hclear with hnone | hone
  · have hsame : ∀ found : Option String,
        (found.map fun stream => routeTo stream routes []).getD routes = routes := by
      intro found
      cases found <;> rfl
    rw [enter, enter, ← h.namespacesOf_eq, hnone, hsame, hsame]
  · rw [enter, enter, ← h.namespacesOf_eq, h.stream?_eq hone]

theorem foldl_enter_reordered {first second : List Configuration}
    (h : List.Forall₂ Reordered first second)
    (hclear : ∀ configuration ∈ first, Unambiguous configuration) (routes : Routes) :
    first.foldl enter routes = second.foldl enter routes := by
  induction h generalizing routes with
  | nil => rfl
  | cons hhead _ ih =>
    rw [List.foldl_cons, List.foldl_cons, hhead.enter_eq (hclear _ List.mem_cons_self)]
    exact ih (fun other hmem => hclear other (List.mem_cons_of_mem _ hmem)) _

/-- Each of the streams for container logs is the first one in some order. -/
theorem exists_reordered_stream? {stream : String} (h : stream ∈ streams configuration) :
    ∃ reordered, Reordered configuration reordered ∧ stream? reordered = some stream := by
  obtain ⟨entry, hentry, rfl⟩ := List.mem_map.1 h
  obtain ⟨hmem, hkey⟩ := List.mem_filter.1 hentry
  refine ⟨⟨entry :: configuration.outputStreams.erase entry, configuration.settings⟩,
    ⟨List.perm_cons_erase hmem, rfl⟩, ?_⟩
  simp [stream?, hkey]

theorem streamsUnder_single {stream : String} (hlists : Lists configuration name)
    (hstream : stream? configuration = some stream) :
    streamsUnder [configuration] name = [stream] := by
  simp [streamsUnder_eq, streamFor, hlists, hstream, addStreams, addStream]

/-- A configuration whose routes are the same in every order is unambiguous. -/
theorem unambiguous_of_routes_eq
    (hsame : ∀ reordered, Reordered configuration reordered →
      routes [configuration] = routes [reordered]) : Unambiguous configuration := by
  rcases hnames : namespacesOf configuration with _ | ⟨name, rest⟩
  · exact .inl hnames
  · have hlists : Lists configuration name := lists_iff.2 (hnames ▸ List.mem_cons_self)
    -- Whichever stream comes first stands alone under the namespace.
    have hunder : ∀ stream ∈ streams configuration,
        streamsUnder [configuration] name = [stream] := by
      intro stream hmem
      obtain ⟨reordered, hreordered, hstream⟩ := exists_reordered_stream? hmem
      have hlists' : Lists reordered name :=
        lists_iff.2 (hreordered.namespacesOf_eq ▸ lists_iff.1 hlists)
      rw [streamsUnder, hsame reordered hreordered]
      exact streamsUnder_single hlists' hstream
    refine .inr fun stream hmem other hother => ?_
    exact List.head_eq_of_cons_eq ((hunder stream hmem).symm.trans (hunder other hother))

/-- The routes of a list of configurations, and of every part of it, are the same for every order of
the output stream maps, just if all of the configurations are unambiguous. -/
theorem routes_reordered_iff (configurations : List Configuration) :
    (∀ part, part.Sublist configurations → ∀ others, List.Forall₂ Reordered part others →
        routes part = routes others) ↔
      ∀ configuration ∈ configurations, Unambiguous configuration := by
  constructor
  · intro hsame configuration hmem
    refine unambiguous_of_routes_eq fun reordered hreordered => ?_
    exact hsame [configuration] (List.singleton_sublist.2 hmem) [reordered] (.cons hreordered .nil)
  · intro hclear part hpart others hreordered
    rw [routes_eq_foldl, routes_eq_foldl]
    exact foldl_enter_reordered hreordered (fun other hmem => hclear other (hpart.subset hmem)) _

/-- A configuration with two keys for container logs and one stream, its entries in two orders. -/
theorem routes_reordered_iff_oneStream :
    routes [logsTo [("ContainerInsights_ContainerLogV2", "dcr-a"),
        ("containerinsights_containerlogv2", "dcr-a"), ("LINUX_PERF_BLOB", "dcr-p")] ["app"]] =
      routes [logsTo [("LINUX_PERF_BLOB", "dcr-p"), ("containerinsights_containerlogv2", "dcr-a"),
        ("ContainerInsights_ContainerLogV2", "dcr-a")] ["app"]] := by
  refine (routes_reordered_iff _).2 (fun configuration hmem => ?_) _ (List.Sublist.refl _) _
    (.cons ⟨(List.reverse_perm _).symm, rfl⟩ .nil)
  rw [List.mem_singleton.1 hmem]
  exact .inr (by decide +kernel)

/-- The key for container logs in small and in capital letters, each with a stream of its own. -/
def bothKeys : List (String × String) :=
  [("containerinsights_containerlogv2", "dcr-a"), ("CONTAINERINSIGHTS_CONTAINERLOGV2", "dcr-b")]

/-- Two orders of the entries of one configuration, with different keys, that give different
routes. -/
theorem routes_differ_reordered :
    ¬ ∀ configurations others,
      (∀ configuration ∈ configurations, (configuration.outputStreams.map (·.1)).Nodup) →
        List.Forall₂ Reordered configurations others →
          routes configurations = routes others := by
  intro hsame
  have hkeys : ∀ configuration ∈ [logsTo (bothKeys.take 1) ["app"], logsTo bothKeys ["app"]],
      (configuration.outputStreams.map (·.1)).Nodup := by decide +kernel
  have heq := hsame _ [logsTo (bothKeys.take 1) ["app"], logsTo bothKeys.reverse ["app"]] hkeys
    (.cons ⟨.refl _, rfl⟩ (.cons ⟨(List.reverse_perm _).symm, rfl⟩ .nil))
  revert heq
  decide +kernel

end ContainerLogs

end PerfRelay
