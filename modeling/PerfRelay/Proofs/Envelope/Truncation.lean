import PerfRelay.Proofs.Envelope.Chunks

/-!
# Replies that break off

An envelope says itself where it ends.  So a reply that breaks off before its last byte carries no
text, in whatever chunks it arrives and whatever becomes of the connection, and a text that is
received comes from bytes that have arrived.

Main results:

- Theorem `IsExact.not_accepted`: no beginning of an envelope is an envelope.
- Theorem `receive_ok`: a text that is received is in an envelope within the limit.
- Theorem `IsExact.receive_error`: an envelope that breaks off is not received.
-/

namespace PerfRelay.Envelope

variable {b : UInt8} {s t : List UInt8} {limit : Nat}

/-! ## Exact envelopes -/

/-- The bytes are accepted as an envelope, in one of its two formats, and no byte follows it. -/
def IsExact (s : List UInt8) : Prop :=
  ∃ text, decode s = .accepted text ∧
    (readPacked s = .ok (text, []) ∨ (Json.Fold.record [field]).run "" s = .ok (text, []))

theorem readPlain_eq_ok {text : String} :
    readPlain s = .ok text ↔
      ∃ rest, (Json.Fold.record [field]).run "" s = .ok (text, rest) ∧ Json.Blank rest := by
  rw [← Json.Fold.document_eq_ok, readPlain]
  cases (Json.Fold.record [field]).document "" s with
  | error stop => simp only [Except.mapError, reduceCtorEq]
  | ok other => simp only [Except.mapError, Except.ok.injEq]

/-- From `0x80` on an accepted envelope is one of MessagePack. -/
theorem readPacked_of_accepted (hb : 0x80 ≤ b) {text : String}
    (h : decode (b :: s) = .accepted text) : ∃ rest, readPacked (b :: s) = .ok (text, rest) := by
  rw [decode_of_high hb] at h
  cases hread : readPacked (b :: s) with
  | ok result =>
    rw [hread] at h
    cases h
    exact ⟨result.2, rfl⟩
  | error stop =>
    rw [hread] at h
    cases stop with
    | _ => cases h

/-- Below `0x80` an accepted envelope is one of JSON. -/
theorem readPlain_of_accepted (hb : b < 0x80) {text : String}
    (h : decode (b :: s) = .accepted text) : readPlain (b :: s) = .ok text := by
  rw [decode_of_low hb, decodePlain] at h
  split at h
  · rename_i other hread
    cases h
    exact hread
  · cases h
  · cases h

/-- No beginning of an envelope is an envelope. -/
theorem IsExact.not_accepted (h : IsExact (s ++ t)) (ht : t ≠ []) (text : String) :
    decode s ≠ .accepted text := by
  intro haccepted
  obtain ⟨whole, -, hexact⟩ := h
  rcases s with _ | ⟨b, s⟩
  · cases haccepted
  · by_cases hb : b < 0x80
    · obtain ⟨rest, hread, -⟩ := readPlain_eq_ok.1 (readPlain_of_accepted hb haccepted)
      have hmore : (Json.Fold.record [field]).run "" (b :: s ++ t) = .ok (text, rest ++ t) :=
        (Json.foreseen_record foreseen_field).run_append hread
      rcases hexact with hpacked | hplain
      · rw [List.cons_append, readPacked_of_low hb] at hpacked
        cases hpacked
      · rw [hmore, Except.ok.injEq, Prod.mk.injEq, List.append_eq_nil_iff] at hplain
        exact ht hplain.2.2
    · have hhigh : 0x80 ≤ b := UInt8.not_lt.1 hb
      obtain ⟨rest, hread⟩ := readPacked_of_accepted hhigh haccepted
      have hmore : readPacked (b :: s ++ t) = .ok (text, rest ++ t) := steady_readPacked.ok hread
      rcases hexact with hpacked | hplain
      · rw [hmore, Except.ok.injEq, Prod.mk.injEq, List.append_eq_nil_iff] at hpacked
        exact ht hpacked.2.2
      · have hrefused : readPlain (b :: (s ++ t)) = .ok whole :=
          readPlain_eq_ok.2 ⟨[], hplain, rfl⟩
        rw [readPlain_of_high hhigh] at hrefused
        cases hrefused

/-! ## Receptions -/

/-- A text that is received is in an envelope among the bytes that have arrived, within the limit.
The induction is on the reads that are left. -/
theorem receiveEach_ok {received : List UInt8} {reads : List Delivery} {text : String}
    (hsize : received.length ≤ limit) (h : (receiveEach limit received reads).result = .ok text) :
    ∃ bytes, bytes <+: received ++ arriving reads ∧ bytes.length ≤ limit ∧
      decode bytes = .accepted text := by
  induction reads generalizing received with
  | nil =>
    rw [receiveEach] at h
    refine ⟨received, List.prefix_append _ _, hsize, ?_⟩
    cases hdecode : decode received with
    | accepted other =>
      rw [hdecode] at h
      cases h
      rfl
    | needsMore missing =>
      rw [hdecode] at h
      cases h
    | rejected cause =>
      rw [hdecode] at h
      cases h
  | cons delivery reads ih =>
    cases delivery with
    | interrupted => exact ih hsize h
    | failed kind => cases h
    | bytes chunk =>
      have hnext : received ++ arriving (.bytes chunk :: reads) =
          (received ++ chunk) ++ arriving reads := by
        rw [List.append_assoc]
        rfl
      rw [hnext]
      by_cases hlarge : limit < (received ++ chunk).length
      · simp only [receiveEach, if_pos hlarge] at h
        cases h
      · have hfits : (received ++ chunk).length ≤ limit := Nat.le_of_not_lt hlarge
        simp only [receiveEach, if_neg hlarge] at h
        cases hdecode : decode (received ++ chunk) with
        | accepted other =>
          rw [hdecode] at h
          cases h
          exact ⟨received ++ chunk, List.prefix_append _ _, hfits, hdecode⟩
        | needsMore missing =>
          rw [hdecode] at h
          exact ih hfits h
        | rejected cause =>
          rw [hdecode] at h
          cases h

theorem receive_ok {deliveries : List Delivery} {text : String}
    (h : (receive limit deliveries).result = .ok text) :
    ∃ bytes, bytes <+: arriving deliveries ∧ bytes.length ≤ limit ∧
      decode bytes = .accepted text := by
  rw [receive_eq] at h
  have hempty : ([] : List UInt8).length ≤ limit := Nat.zero_le limit
  obtain ⟨bytes, hprefix, hfits, hdecode⟩ := receiveEach_ok hempty h
  rw [List.nil_append, arriving_flatMap_reads] at hprefix
  exact ⟨bytes, hprefix, hfits, hdecode⟩

/-- An envelope that breaks off is not received. -/
theorem IsExact.receive_error {deliveries : List Delivery} {lost : List UInt8}
    (h : IsExact (arriving deliveries ++ lost)) (hlost : lost ≠ []) (limit : Nat) :
    ∃ fault, (receive limit deliveries).result = .error fault := by
  cases hresult : (receive limit deliveries).result with
  | error fault => exact ⟨fault, rfl⟩
  | ok text =>
    obtain ⟨bytes, ⟨unread, hunread⟩, -, hdecode⟩ := receive_ok hresult
    rw [← hunread, List.append_assoc] at h
    exact (h.not_accepted (List.append_ne_nil_of_right_ne_nil unread hlost) text hdecode).elim

end PerfRelay.Envelope
