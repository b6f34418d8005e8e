import PerfRelay.Proofs.Collection.NodeCalls
import PerfRelay.Proofs.Dictionary
import PerfRelay.Spool.NodeList
import PerfRelay.Spool.Source

/-!
# What a spool remembers of nodes

A collector of remote nodes asks its source for the nodes that it knows and for no others, and has
the source forget its nodes before it takes over a new list.  So a spool remembers nothing of nodes
that are not on the list, and when it is told the live nodes it finds nothing to drop.

Main results:

- Theorem `Tracks.collectAll`: asking listed nodes keeps the spool to the list.
- Theorem `Tracks.refreshNodes`: so does bringing the list up to date.
- Theorem `spool_tracks_nodes`: the spool keeps to the list in every run.
-/

namespace PerfRelay

/-! ## The files that were taken -/

namespace Spool

namespace Consumed

/-- The number of files that are remembered. -/
def size (consumed : Consumed) : Nat := consumed.perf.size + consumed.insights.size

/-- Something is remembered of these nodes only. -/
def IsAbout (consumed : Consumed) (nodes : List String) : Prop :=
  ∀ stream, ∀ node ∈ (consumed.times stream).keys, node ∈ nodes

variable {consumed : Consumed} {nodes : List String}

theorem isAbout_empty : empty.IsAbout nodes := by
  intro stream node hnode
  cases stream <;> cases hnode

/-- No more than two files are remembered of each node. -/
theorem IsAbout.size_le (h : consumed.IsAbout nodes) :
    consumed.size ≤ 2 * nodes.dedup.length := by
  have hperf := Dictionary.size_le_of_keys_subset (h .perf)
  have hinsights := Dictionary.size_le_of_keys_subset (h .insights)
  rw [size]
  change consumed.perf.size ≤ nodes.dedup.length at hperf
  change consumed.insights.size ≤ nodes.dedup.length at hinsights
  omega

theorem IsAbout.insert (h : consumed.IsAbout nodes) {node : String} (hnode : node ∈ nodes)
    (stream : Stream) (modified : Int) :
    (consumed.insert stream node modified).IsAbout nodes := by
  intro other key hkey
  cases stream with
  | perf =>
    cases other with
    | perf =>
      rcases Dictionary.mem_keys_insert hkey with rfl | hold
      · exact hnode
      · exact h .perf key hold
    | insights => exact h .insights key hkey
  | insights =>
    cases other with
    | perf => exact h .perf key hkey
    | insights =>
      rcases Dictionary.mem_keys_insert hkey with rfl | hold
      · exact hnode
      · exact h .insights key hold

/-- If no node passes, nothing is remembered any more. -/
theorem IsAbout.filterNodes_of_none (h : consumed.IsAbout nodes) {passes : String → Bool}
    (hnone : ∀ node ∈ nodes, passes node = false) (others : List String) :
    (consumed.filterNodes passes).IsAbout others := by
  intro stream node hnode
  have hkept : passes node = true ∧ node ∈ (consumed.times stream).keys := by
    cases stream with
    | perf => exact Dictionary.mem_keys_filterKeys hnode
    | insights => exact Dictionary.mem_keys_filterKeys hnode
  have hdropped : passes node = false := hnone node (h stream node hkept.2)
  rw [hkept.1] at hdropped
  cases hdropped

/-- If all nodes pass, nothing is dropped. -/
theorem IsAbout.filterNodes_of_all (h : consumed.IsAbout nodes) {passes : String → Bool}
    (hall : ∀ node ∈ nodes, passes node = true) : consumed.filterNodes passes = consumed := by
  have hperf : consumed.perf.filterKeys passes = consumed.perf :=
    Dictionary.filterKeys_eq_self fun key hkey => hall key (h .perf key hkey)
  have hinsights : consumed.insights.filterKeys passes = consumed.insights :=
    Dictionary.filterKeys_eq_self fun key hkey => hall key (h .insights key hkey)
  rw [filterNodes, hperf, hinsights]

end Consumed

/-- Taking a file remembers nothing but its node. -/
theorem Consumed.IsAbout.consume {consumed : Consumed} {nodes : List String}
    (h : consumed.IsAbout nodes) {query : Query} (hnode : query.node.getD "" ∈ nodes)
    (root : String) (stream : Stream) (before after : FileTree) :
    (Spool.consume root stream query before after consumed).value.2.IsAbout nodes := by
  unfold Spool.consume
  simp only
  split
  · exact h
  · exact h
  · exact h
  · split
    · exact h
    · exact h.insert hnode stream _

end Spool

namespace SpoolSource

/-- A source is asked for a listed node. -/
theorem isAbout_fetch {source : SpoolSource} {nodes : List String}
    (h : source.consumed.IsAbout nodes) {query : Query} (hnode : query.node.getD "" ∈ nodes)
    (stream : Stream) :
    (MetricSource.fetch stream query source).value.2.consumed.IsAbout nodes :=
  h.consume hnode source.root stream source.files source.files

/-- A source that knows listed nodes only forgets all of them. -/
theorem isAbout_reset {source : SpoolSource} {nodes : List String}
    (h : source.consumed.IsAbout nodes) (hnames : "" ∉ nodes) (others : List String) :
    (MetricSource.resetNodeCache source).consumed.IsAbout others := by
  apply h.filterNodes_of_none
  intro node hnode
  rw [Spool.isLocal, ← Bool.not_eq_true, String.isEmpty_iff]
  rintro rfl
  exact hnames hnode

/-- A source that knows listed nodes only has nothing to drop. -/
theorem prune_eq_self {source : SpoolSource} {nodes : List String}
    (h : source.consumed.IsAbout nodes) : MetricSource.pruneNodeCache nodes source = source := by
  have hkept : source.consumed.filterNodes (fun node => Spool.isLocal node || nodes.contains node) =
      source.consumed := by
    apply h.filterNodes_of_all
    intro node hnode
    rw [Bool.or_eq_true, List.contains_iff_mem]
    exact .inr hnode
  change { source with consumed := source.consumed.filterNodes _ } = source
  rw [hkept]

end SpoolSource

namespace Collector

variable {μ φ : Type}

/-! ## The parts of a tick -/

/-- The spool remembers nothing but nodes on the list. -/
def Tracks (collector : Collector SpoolSource μ) : Prop :=
  collector.source.consumed.IsAbout collector.nodes

theorem nodes_of_upkeep {σ : Type} {collector other : Collector σ μ}
    (h : other.upkeep = collector.upkeep) : other.nodes = collector.nodes := by
  have hregistry : other.registry = collector.registry := congrArg Prod.fst h
  rw [nodes, nodes, hregistry]

theorem Tracks.of_eq {collector other : Collector SpoolSource μ} (h : collector.Tracks)
    (hupkeep : other.upkeep = collector.upkeep)
    (hconsumed : other.source.consumed = collector.source.consumed) : other.Tracks := by
  rw [Tracks, nodes_of_upkeep hupkeep, hconsumed]
  exact h

/-- Asking a listed node keeps the spool to the list. -/
theorem Tracks.ask {collector : Collector SpoolSource μ} (h : collector.Tracks) {node : String}
    (hnode : node ∈ collector.nodes) (utc : Nat) (stream : Stream) :
    (collector.ask utc stream (some node)).value.2.Tracks := by
  have hasked : (collector.query utc (some node)).node.getD "" ∈ collector.nodes := hnode
  exact SpoolSource.isAbout_fetch h hasked stream

theorem Tracks.collectTarget {collector : Collector SpoolSource μ} (h : collector.Tracks)
    {node : String} (hnode : node ∈ collector.nodes) (utc : Nat) :
    (collector.collectTarget utc (some node)).value.Tracks :=
  (h.ask hnode utc .perf).ask hnode utc .insights

/-- Asking listed nodes keeps the spool to the list.  The induction is on the nodes that are left to
ask. -/
theorem Tracks.collectAll {collector : Collector SpoolSource μ} (h : collector.Tracks)
    {nodes : List String} (hnodes : ∀ node ∈ nodes, node ∈ collector.nodes) (utc : Nat) :
    (Collector.collectAll utc (nodes.map some) collector).value.Tracks := by
  induction nodes generalizing collector with
  | nil => exact h
  | cons node nodes ih =>
    have hfirst := h.collectTarget (hnodes node (List.mem_cons_self ..)) utc
    exact ih hfirst fun other hother => hnodes other (List.mem_cons_of_mem node hother)

section Lister

variable [NodeLister μ]

/-- Every listing that succeeds gives names. -/
def GivesNames (lister : μ) : Prop :=
  ∀ n nodes, NodeLister.answer lister n = .ok nodes → "" ∉ nodes

theorem GivesNames.known {lister : μ} (h : GivesNames lister) (n : Nat) :
    "" ∉ NodeLister.known lister n := by
  induction n with
  | zero => exact List.not_mem_nil
  | succ n ih =>
    cases hanswer : NodeLister.answer lister n with
    | ok nodes =>
      rw [NodeLister.known_of_ok hanswer]
      exact h n nodes hanswer
    | error failure =>
      rw [NodeLister.known_of_error hanswer]
      exact ih

omit [NodeLister μ] in
/-- The names in a file are no blank lines. -/
theorem givesNames_spoolLister (lister : SpoolLister) : GivesNames lister := by
  intro n nodes hanswer hempty
  have hlist : ∃ text, nodes = NodeList.parse text := by
    have hsame : (NodeLister.after lister n).list = .ok nodes := hanswer
    rw [SpoolLister.list] at hsame
    split at hsame
    · cases hsame
    · rename_i text _
      exact ⟨text.toList, (Except.ok.inj hsame).symm⟩
  obtain ⟨text, rfl⟩ := hlist
  obtain ⟨line, -, hname, hline⟩ := NodeList.mem_parse.1 hempty
  rw [String.ofList_eq_empty_iff] at hline
  rw [NodeList.isName, hline] at hname
  exact absurd hname (by decide)

omit [NodeLister μ] in
theorem givesNames_fixedListings {lister : FixedListings}
    (h : ∀ nodes, .ok nodes ∈ lister.listings → "" ∉ nodes) : GivesNames lister := by
  have hafter : ∀ n, (NodeLister.after lister n).listings ⊆ lister.listings := by
    intro n
    induction n with
    | zero => exact List.Subset.refl _
    | succ n ih =>
      rw [NodeLister.after]
      generalize NodeLister.after lister n = later at ih
      obtain ⟨_ | ⟨listing, _ | ⟨second, listings⟩⟩⟩ := later
      · exact ih
      · exact ih
      · exact List.Subset.trans (List.subset_cons_self ..) ih
  intro n nodes hanswer
  have hlater := hafter n
  rw [NodeLister.answer] at hanswer
  generalize NodeLister.after lister n = later at hlater hanswer
  obtain ⟨_ | ⟨listing, _ | ⟨second, listings⟩⟩⟩ := later
  · cases hanswer
    exact List.not_mem_nil
  · cases hanswer
    exact h nodes (hlater (List.mem_cons_self ..))
  · cases hanswer
    exact h nodes (hlater (List.mem_cons_self ..))

/-- Bringing the list up to date keeps the spool to it: before a new list is taken over the spool
forgets the nodes of the old one. -/
theorem Tracks.refreshNodes {collector : Collector SpoolSource μ} (h : collector.Tracks)
    (hnames : "" ∉ collector.nodes) (now : Nat) :
    (collector.refreshNodes now).value.Tracks := by
  rw [Collector.refreshNodes]
  cases hregistry : collector.registry with
  | none => exact h
  | some registry =>
    have hnodes : collector.nodes = registry.nodes := by rw [nodes, hregistry]
    rw [Tracks, hnodes] at h
    rw [hnodes] at hnames
    have hrefreshed := registry.refreshed now collector.source
    simp only [Noted.value_map]
    generalize (registry.refreshIfDue now collector.source).value = result at hrefreshed
    cases hrefreshed with
    | waits hdue => exact h
    | succeeds hdue hanswer => exact SpoolSource.isAbout_reset h hnames _
    | fails hdue hanswer => exact h

end Lister

/-- The targets of a collector of remote nodes are the nodes on the list. -/
theorem targets_remote {σ : Type} {collector : Collector σ μ} (h : collector.isRemote = true) :
    collector.targets = collector.nodes.map some := by
  obtain ⟨registry, hregistry⟩ := Option.isSome_iff_exists.1 h
  rw [targets, nodes, hregistry]

/-- However many of the targets have been asked, the spool keeps to the list. -/
theorem Tracks.take_targets {collector : Collector SpoolSource μ} (h : collector.Tracks)
    (hremote : collector.isRemote = true) (utc n : Nat) :
    (Collector.collectAll utc (collector.targets.take n) collector).value.Tracks := by
  rw [targets_remote hremote, ← List.map_take]
  exact h.collectAll (fun _ hnode => List.mem_of_mem_take hnode) utc

/-- A clean-up finds nothing to drop. -/
theorem Tracks.source_cleanUp {collector : Collector SpoolSource μ} (h : collector.Tracks)
    (now : Nat) : (collector.cleanUp now).value.source = collector.source := by
  unfold Collector.cleanUp
  split
  · rfl
  · rename_i registry hregistry
    split
    · rfl
    · have hnodes : collector.nodes = registry.nodes := by rw [nodes, hregistry]
      rw [Tracks, hnodes] at h
      exact SpoolSource.prune_eq_self h

theorem registry_cleanUp {σ : Type} [MetricSource σ] (collector : Collector σ μ) (now : Nat) :
    (collector.cleanUp now).value.registry = collector.registry := by
  unfold Collector.cleanUp
  split
  · rfl
  · split <;> rfl

theorem Tracks.cleanUp {collector : Collector SpoolSource μ} (h : collector.Tracks) (now : Nat) :
    (collector.cleanUp now).value.Tracks := by
  rw [Tracks, h.source_cleanUp, nodes, registry_cleanUp]
  exact h

/-! ## Ticks and runs -/

end Collector

/-- Between two ticks the files of a spool change, and nothing else of it. -/
def Occasion.ChangesFiles {φ : Type} (occasion : Occasion SpoolSource φ) : Prop :=
  ∀ source, (occasion.meanwhile source).consumed = source.consumed

namespace Collector

variable {μ φ : Type} [ConfigurationFetcher φ] [NodeLister μ]

/-- The collector that has asked so many of its targets in a tick. -/
def asking (collector : Collector SpoolSource μ) (occasion : Occasion SpoolSource φ) (n : Nat) :
    Collector SpoolSource μ :=
  let ready := (collector.meeting occasion).collecting occasion.moment occasion.cache
  (collectAll occasion.moment.utc (ready.targets.take n) ready).value

/-- In a tick the spool keeps to the list, and when it is told the live nodes it finds nothing to
drop. -/
structure TidyOn (collector : Collector SpoolSource μ) (occasion : Occasion SpoolSource φ) :
    Prop where
  tracks_asking : ∀ n, (collector.asking occasion n).Tracks
  prune_eq_self : ∀ n, MetricSource.pruneNodeCache (collector.asking occasion n).nodes
    (collector.asking occasion n).source = (collector.asking occasion n).source
  source_cleaned : ((collector.meeting occasion).cleaned occasion.moment
    occasion.cache).value.source = ((collector.meeting occasion).flushed occasion.moment
      occasion.cache).value.source
  tracks_tickOn : (collector.tickOn occasion).value.Tracks

variable {collector : Collector SpoolSource μ} {lister : μ} {startedAt : Nat}
  {attempts cleanups : List Nat} {occasion : Occasion SpoolSource φ}

theorem Follows.nodes_eq {σ : Type} {collector : Collector σ μ}
    (h : collector.Follows lister startedAt attempts cleanups) :
    collector.nodes = NodeLister.known lister attempts.length := by
  rw [nodes, h.registry_eq]
  rfl

/-- A tick with other files keeps the spool to the list. -/
theorem Tracks.tickOn (h : collector.Tracks)
    (hfollows : collector.Follows lister startedAt attempts cleanups) (hnames : GivesNames lister)
    (hfiles : occasion.ChangesFiles) : collector.TidyOn occasion := by
  have hmeeting : (collector.meeting occasion).Tracks := h.of_eq rfl (hfiles collector.source)
  have hleft := lookUpStreams_upkeep occasion.moment (collector.meeting occasion) occasion.cache
  have hlookUp := hmeeting.of_eq hleft.1 (congrArg SpoolSource.consumed hleft.2)
  have hfollowsLookUp := (hfollows.of_upkeep rfl).of_upkeep hleft.1
  have hnone : "" ∉ ((collector.meeting occasion).lookUpStreams occasion.moment
      occasion.cache).value.1.nodes := by
    rw [hfollowsLookUp.nodes_eq]
    exact hnames.known _
  have hready : ((collector.meeting occasion).collecting occasion.moment
      occasion.cache).Tracks := hlookUp.refreshNodes hnone occasion.moment.now
  have hfollowsReady := (hfollowsLookUp.refreshNodes occasion.moment.now).1
  have hremote : ((collector.meeting occasion).collecting occasion.moment
      occasion.cache).isRemote = true :=
    Option.isSome_iff_exists.2 ⟨_, hfollowsReady.registry_eq⟩
  have hasking : ∀ n, (collector.asking occasion n).Tracks := fun n =>
    hready.take_targets hremote occasion.moment.utc n
  have hcollected : ((collector.meeting occasion).collected occasion.moment
      occasion.cache).value.Tracks := by
    have hall := hready.take_targets hremote occasion.moment.utc
      ((collector.meeting occasion).collecting occasion.moment occasion.cache).targets.length
    rwa [List.take_length] at hall
  have hflushed : ((collector.meeting occasion).flushed occasion.moment
      occasion.cache).value.Tracks := hcollected.of_eq rfl rfl
  constructor
  · exact hasking
  · exact fun n => SpoolSource.prune_eq_self (hasking n)
  · exact hflushed.source_cleanUp occasion.moment.now
  · rw [Collector.tickOn, Noted.value_map, tick_value]
    exact hflushed.cleanUp occasion.moment.now

/-- In every run of a collector of remote nodes with a new spool, whatever the lister answers and
whatever becomes of the files, the spool remembers nothing but nodes on the list, and no more than
two files of each. -/
theorem spool_tracks_nodes (hnames : GivesNames lister) (options : CollectorOptions)
    (root : String) (files : FileTree) (startedAt : Nat) {occasions : List (Occasion SpoolSource φ)}
    (hfiles : ∀ occasion ∈ occasions, occasion.ChangesFiles) {collector : Collector SpoolSource μ}
    (hrun : collector =
      (start options (SpoolSource.start root files) (some lister) startedAt).runOn occasions) :
    collector.Tracks ∧
      collector.source.consumed.size ≤ 2 * collector.nodes.dedup.length ∧
      ∀ occasion : Occasion SpoolSource φ, occasion.ChangesFiles →
        collector.TidyOn occasion ∧
          ∀ n, (collector.asking occasion n).source.consumed.size ≤
            2 * (collector.asking occasion n).nodes.dedup.length := by
  have htracks : collector.Tracks := by
    subst hrun
    induction occasions using List.reverseRecOn with
    | nil => exact Spool.Consumed.isAbout_empty
    | append_singleton occasions occasion ih =>
      have hearlier : ∀ other ∈ occasions, other.ChangesFiles := fun other hother =>
        hfiles other (List.mem_append_left _ hother)
      have hlast : occasion.ChangesFiles :=
        hfiles occasion (List.mem_append_right _ (List.mem_singleton_self _))
      rw [runOn_append]
      exact ((ih hearlier).tickOn (follows_runOn options _ lister startedAt occasions) hnames
        hlast).tracks_tickOn
  refine ⟨htracks, htracks.size_le, fun occasion hoccasion => ?_⟩
  have hfollows := follows_runOn options (SpoolSource.start root files) lister startedAt occasions
  rw [← hrun] at hfollows
  have htidy := htracks.tickOn hfollows hnames hoccasion
  exact ⟨htidy, fun n => (htidy.tracks_asking n).size_le⟩

/-- A spool with a file for each of two nodes, and the occasion on which a collector meets it. -/
def twoFiles (now : Nat) : Occasion SpoolSource FixedAnswers where
  moment := ⟨now, 0⟩
  cache := .start (.always [])
  meanwhile source := { source with files :=
    ⟨[(["s"], .directory 0), (["s", "a"], .directory 0), (["s", "b"], .directory 0),
      (["s", "a", "perf.json"], .file 5 [0x5b, 0x5d]),
      (["s", "b", "perf.json"], .file 5 [0x5b, 0x5d])]⟩ }

/-- A collector whose list loses a node, after a listing that fails. -/
def losingNode : Collector SpoolSource FixedListings :=
  start ⟨"c", false, false, 60000000, none⟩ (.start "/s" .empty)
    (some ⟨[.ok ["a", "b"], .error ⟨[], .text "x"⟩, .ok ["b"]]⟩) 0

/-- When the list has lost a node, no more than two files are remembered. -/
theorem spool_tracks_nodes_losingNode :
    (losingNode.runOn [twoFiles 0, twoFiles nodeLifetime, twoFiles (2 * nodeLifetime)]).nodes =
        ["b"] ∧
      (losingNode.runOn [twoFiles 0, twoFiles nodeLifetime,
        twoFiles (2 * nodeLifetime)]).source.consumed.size ≤ 2 := by
  have hnames : GivesNames (FixedListings.mk
      [.ok ["a", "b"], .error ⟨[], .text "x"⟩, .ok ["b"]]) := by
    apply givesNames_fixedListings
    intro nodes hnodes
    simp only [List.mem_cons, Except.ok.injEq, List.not_mem_nil, or_false, reduceCtorEq,
      false_or] at hnodes
    rcases hnodes with rfl | rfl <;> decide
  have hfiles : ∀ occasion ∈ [twoFiles 0, twoFiles nodeLifetime, twoFiles (2 * nodeLifetime)],
      occasion.ChangesFiles := by
    intro occasion hoccasion source
    simp only [List.mem_cons, List.not_mem_nil, or_false] at hoccasion
    rcases hoccasion with rfl | rfl | rfl <;> rfl
  have hnodes : (losingNode.runOn [twoFiles 0, twoFiles nodeLifetime,
      twoFiles (2 * nodeLifetime)]).nodes = ["b"] := rfl
  obtain ⟨-, hsize, -⟩ := spool_tracks_nodes hnames ⟨"c", false, false, 60000000, none⟩ "/s"
    .empty 0 hfiles (Eq.refl (losingNode.runOn _))
  rw [hnodes] at hsize
  exact ⟨hnodes, hsize⟩

end Collector

end PerfRelay
