import PerfRelay.Collection.Registry
import PerfRelay.Routing.Cache

/-!
# Collaborators with fixed answers

Fetchers, sources and listers whose answers are written down beforehand.  They give their answers
one after another, and nothing but the number of calls decides which one it is.
-/

namespace PerfRelay.Collector

/-! ## Fetchers -/

/-- A fetcher that gives fixed answers one after another, and the last one again and again. -/
structure FixedAnswers where
  answers : List (List Configuration)

instance : ConfigurationFetcher FixedAnswers where
  fetch
    | ⟨[]⟩ => pure ([], ⟨[]⟩)
    | ⟨[answer]⟩ => pure (answer, ⟨[answer]⟩)
    | ⟨answer :: answers⟩ => pure (answer, ⟨answers⟩)

/-- A fetcher that always gives the same answer. -/
def FixedAnswers.always (answer : List Configuration) : FixedAnswers := ⟨[answer]⟩

/-! ## Sources and listers -/

/-- A source without records, and a lister without nodes. -/
inductive Silence where
  | silence

instance : MetricSource Silence where
  fetch _ _ source := pure (.ok [], source)
  resetNodeCache source := source
  pruneNodeCache _ source := source

instance : NodeLister Silence where
  list lister := pure (.ok [], lister)

/-- A source that gives fixed answers one after another, and no records after that. -/
structure FixedRecords where
  answers : List (Except Failure (List Record))

instance : MetricSource FixedRecords where
  fetch _ _
    | ⟨[]⟩ => pure (.ok [], ⟨[]⟩)
    | ⟨answer :: answers⟩ => pure (answer, ⟨answers⟩)
  resetNodeCache source := source
  pruneNodeCache _ source := source

/-- A lister that always lists the same nodes. -/
structure FixedNodes where
  nodes : List String

instance : NodeLister FixedNodes where
  list lister := pure (.ok lister.nodes, lister)

/-- A lister that gives fixed answers one after another, and the last one again and again. -/
structure FixedListings where
  listings : List (Except Failure (List String))

instance : NodeLister FixedListings where
  list
    | ⟨[]⟩ => pure (.ok [], ⟨[]⟩)
    | ⟨[listing]⟩ => pure (listing, ⟨[listing]⟩)
    | ⟨listing :: listings⟩ => pure (listing, ⟨listings⟩)

end PerfRelay.Collector
