import PerfRelay.Collection.Event
import PerfRelay.Routing.Table

/-!
# The routing cache

Collectors share one routing table.  It is trusted for some time, and rebuilt from the
configurations that a fetcher gets when it is too old or when a collector still uses a default tag.

Main results:

- Theorem `resolve_of_cached`: a data type in the table is answered without asking the fetcher.
-/

namespace PerfRelay

/-- Something that gets the configurations of an extension.  It never fails: where it meets a fault
it notes it and gives no configurations. -/
class ConfigurationFetcher (φ : Type) where
  fetch : φ → Noted Entry (List Configuration × φ)

/-- Whether a tag is the id of an output stream, and not a default tag. -/
def isStreamId (tag : String) : Bool :=
  "dcr-".toList.isPrefixOf tag.toList

/-- How long the table is trusted, in microseconds. -/
def routingLifetime : Nat := 300 * 1000000

/-- The shared table and the fetcher that it is rebuilt with. -/
structure RoutingCache (φ : Type) where
  fetcher : φ
  table : RoutingTable

namespace RoutingCache

variable {φ : Type}

/-- A cache that knows nothing. -/
def start (fetcher : φ) : RoutingCache φ := ⟨fetcher, .empty⟩

variable [ConfigurationFetcher φ]

/-- Asks the fetcher and enters its answer into the table. -/
def refetch (cache : RoutingCache φ) : Traced (RoutingCache φ) := do
  Noted.note .fetchedConfigurations
  let (configurations, fetcher) ← Traced.ofLogged (ConfigurationFetcher.fetch cache.fetcher)
  Traced.logAll (RoutingTable.absorbNotes configurations)
  return ⟨fetcher, cache.table.absorb configurations⟩

/-- The output stream of a data type after the fetcher was asked. -/
def resolveAnew (cache : RoutingCache φ) (dataType : String) :
    Traced (String × RoutingCache φ) := do
  let cache ← cache.refetch
  let stream := cache.table.streamOf dataType
  Traced.log (.info s!"resolved stream id '{stream}' for data type {dataType}")
  return (stream, cache)

/-- The output stream of a data type; the table is used if that is wanted and it knows the type. -/
def resolve (cache : RoutingCache φ) (dataType : String) (useTable : Bool) :
    Traced (String × RoutingCache φ) :=
  match if useTable then cache.table.mapping.get? dataType else none with
  | some stream => pure (stream, cache)
  | none => cache.resolveAnew dataType

/-- An output stream and whether it was taken from the table. -/
structure Resolution where
  stream : String
  fromTable : Bool
deriving DecidableEq, Repr

/-- The output stream of a data type whose tag in use was looked up some time ago.  While that is
recent, the table is trusted for stream ids, and for data types without a stream once there is a
table; a default tag is always looked up anew. -/
def outputStream (cache : RoutingCache φ) (dataType tag : String) (age : Nat) :
    Traced (Resolution × RoutingCache φ) :=
  let fresh := decide (age < routingLifetime)
  if fresh && tag.isEmpty && decide (0 < cache.table.rebuilds) then
    pure (⟨cache.table.streamOf dataType, true⟩, cache)
  else
    let useTable := fresh && isStreamId tag
    (fun (stream, cache) => (⟨stream, useTable⟩, cache)) <$> cache.resolve dataType useTable

/-- A data type in the table is answered without asking the fetcher. -/
theorem resolve_of_cached {cache : RoutingCache φ} {dataType stream : String}
    (h : cache.table.mapping.get? dataType = some stream) :
    cache.resolve dataType true = pure (stream, cache) := by
  simp [resolve, h]

end RoutingCache

end PerfRelay
