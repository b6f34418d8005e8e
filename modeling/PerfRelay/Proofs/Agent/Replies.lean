import PerfRelay.Agent.Client
import PerfRelay.Proofs.Envelope.Truncation
import PerfRelay.Proofs.Routing.Lookups

/-!
# Replies and the routing table

A reply goes through four layers before it changes the routing table: the reads of a connection, the
envelope, the document in it, and the table.  Each of them may refuse it, and then the table stays
as it was, all of it; otherwise all of the table comes from the document.

Main results:

- Theorem `fetch_cases`: configurations come from a document in an envelope that was received.
- Theorem `resolve_reply`: what any reply, and one that breaks off, does to the table.
-/

namespace PerfRelay.Client

open Envelope (Delivery IsExact arriving decode receive)

/-! ## One exchange -/

/-- A client that has configurations has received the text that they are in. -/
theorem roundTrip_ok {client after : Client} {configurations : List Configuration}
    (h : client.roundTrip.value = (.ok configurations, after)) :
    ∃ deliveries text, client.peer = .answering deliveries ∧
      (receive mostBytes deliveries).result = .ok text ∧
      (Configuration.ofDocument text).value = .ok configurations := by
  rw [roundTrip] at h
  cases hpeer : client.peer with
  | absent kind =>
    simp only [hpeer] at h
    cases h
  | deaf kind =>
    simp only [hpeer] at h
    split at h
    · cases h
    · cases h
  | answering deliveries =>
    simp only [hpeer] at h
    split at h
    · cases h
    · simp only [Noted.value_map, exchange, Noted.value_bind, Prod.mk.injEq] at h
      cases hreceive : (receive mostBytes deliveries).result with
      | error fault =>
        simp only [hreceive] at h
        cases h.1
      | ok text =>
        simp only [hreceive, readReply, Noted.value_bind] at h
        cases hdocument : (Configuration.ofDocument text).value with
        | error stop =>
          simp only [hdocument] at h
          cases h.1
        | ok found =>
          simp only [hdocument, Noted.value_bind, Noted.value_pure, Except.ok.injEq] at h
          exact ⟨deliveries, text, rfl, hreceive, by rw [hdocument, h.1]⟩

/-- A fetch gives no configurations, or those in a document that was received. -/
theorem fetch_cases (client : Client) :
    client.fetch.value.1 = [] ∨
      ∃ deliveries text, client.peer = .answering deliveries ∧
        (receive mostBytes deliveries).result = .ok text ∧
        (Configuration.ofDocument text).value = .ok client.fetch.value.1 := by
  cases hround : client.roundTrip.value with
  | mk result after =>
    cases result with
    | error fault => exact .inl (by rw [fetch_of_fault hround])
    | ok configurations =>
      have hfetch : client.fetch.value = (configurations, after) := by
        simp only [fetch, Noted.value_bind, hround, Noted.value_pure]
      rw [hfetch]
      exact .inr (roundTrip_ok hround)

/-- A reply that breaks off gives no configurations. -/
theorem fetch_of_truncated {client : Client} {deliveries : List Delivery} {lost : List UInt8}
    (hpeer : client.peer = .answering deliveries) (hlost : lost ≠ [])
    (h : IsExact (arriving deliveries ++ lost)) : client.fetch.value.1 = [] := by
  rcases client.fetch_cases with hnone | ⟨others, text, hothers, hreceive, -⟩
  · exact hnone
  · obtain rfl : deliveries = others := by
      rw [hpeer] at hothers
      exact Peer.answering.inj hothers
    obtain ⟨fault, hfault⟩ := h.receive_error hlost mostBytes
    rw [hreceive] at hfault
    cases hfault

/-! ## The table -/

variable (client : Client) (table : RoutingTable) (dataType : String)

/-- The table after a look-up that does not use it. -/
theorem resolve_table :
    ((RoutingCache.mk client table).resolve dataType false).value.2.table =
      table.absorb client.fetch.value.1 :=
  rfl

/-- A reply that breaks off before the end of its envelope is not received, gives no configurations
and leaves the table as it was, however it arrives and whatever becomes of the connection.  Any
other reply may change the table as a whole: it stems then from the configurations in an envelope
that was accepted from at most 65536 bytes. -/
theorem resolve_reply :
    (∀ deliveries lost, client.peer = .answering deliveries → lost ≠ [] →
      IsExact (arriving deliveries ++ lost) →
        (∀ limit, ∃ fault, (receive limit deliveries).result = .error fault) ∧
        client.fetch.value.1 = [] ∧
        ((RoutingCache.mk client table).resolve dataType false).value.2.table = table) ∧
    (((RoutingCache.mk client table).resolve dataType false).value.2.table = table ∨
      ∃ deliveries bytes text configurations,
        client.peer = .answering deliveries ∧
        bytes <+: arriving deliveries ∧ bytes.length ≤ 65536 ∧ decode bytes = .accepted text ∧
        (Configuration.ofDocument text).value = .ok configurations ∧ configurations ≠ [] ∧
        ((RoutingCache.mk client table).resolve dataType false).value.2.table =
          ⟨streamMapping configurations, latestSettings configurations, table.rebuilds + 1⟩) := by
  refine ⟨?_, ?_⟩
  · intro deliveries lost hpeer hlost hexact
    have hfetch := fetch_of_truncated hpeer hlost hexact
    refine ⟨fun limit => hexact.receive_error hlost limit, hfetch, ?_⟩
    rw [resolve_table, hfetch, RoutingTable.absorb_nil]
  · rw [resolve_table]
    rcases client.fetch_cases with hnone | ⟨deliveries, text, hpeer, hreceive, hdocument⟩
    · rw [hnone]
      exact .inl (table.absorb_nil)
    · obtain ⟨bytes, hprefix, hsize, hdecode⟩ := Envelope.receive_ok hreceive
      cases hfetch : client.fetch.value.1 with
      | nil => exact .inl (table.absorb_nil)
      | cons first rest =>
        rw [hfetch] at hdocument
        exact .inr ⟨deliveries, bytes, text, first :: rest, hpeer, hprefix, hsize, hdecode,
          hdocument, List.cons_ne_nil first rest, table.absorb_cons first rest⟩

/-- What arrives when a connection fails after two bytes. -/
def brokenOff : List Delivery := [.bytes [0x91], .interrupted, .bytes [0xa1], .failed .timedOut]

/-- A client of an agent whose connections fail so. -/
def ofBroken : Client := ⟨"s", .containerInsights, 1000000, .answering brokenOff, 0, []⟩

/-- Of an array with a text of one letter the last byte is lost. -/
theorem resolve_reply_broken :
    IsExact (arriving brokenOff ++ [0x61]) ∧ ofBroken.fetch.value.1 = [] ∧
      ((RoutingCache.mk ofBroken ⟨.empty, none, 7⟩).resolve "x" false).value.2.table =
        ⟨.empty, none, 7⟩ := by
  have hexact : IsExact (arriving brokenOff ++ [0x61]) :=
    ⟨"a", by decide +kernel, .inl (by decide +kernel)⟩
  have htruncated := (resolve_reply ofBroken ⟨.empty, none, 7⟩ "x").1 brokenOff [0x61] rfl
    (List.cons_ne_nil _ _) hexact
  exact ⟨hexact, htruncated.2⟩

end PerfRelay.Client
