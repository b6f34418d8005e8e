import PerfRelay.Envelope.Reception
import PerfRelay.Proofs.Envelope.Prefix

/-!
# Replies in chunks

A connection cuts a reply into chunks as it likes, and reads may be interrupted in between.  From a
first byte `0x80` on neither matters: as long as the bytes ask for more another read follows, and
any other verdict is that on the whole of them.

Main results:

- Theorem `Delivery.reads_of_short`: a chunk that fits into the buffer takes one read.
- Theorem `receiveEach_eq_conclude`: the reads do not matter where a verdict stands once given.
- Theorem `receive_eq_conclude`: what is received is the verdict on the bytes of the connection.
-/

namespace PerfRelay.Envelope

variable {limit : Nat}

/-- The bytes of a delivery. -/
def Delivery.chunk : Delivery → List UInt8
  | .bytes chunk => chunk
  | _ => []

/-- The bytes that arrive until the connection is closed. -/
def arriving (deliveries : List Delivery) : List UInt8 :=
  deliveries.flatMap Delivery.chunk

/-- The result of a verdict on the whole of the bytes of a connection. -/
def Verdict.conclude (received : Nat) : Verdict → Except ExchangeFault String
  | .accepted text => .ok text
  | .needsMore _ => .error (.incomplete received)
  | .rejected cause => .error (.envelope cause)

theorem Verdict.conclude_ne_tooLarge (verdict : Verdict) (received n : Nat) :
    verdict.conclude received ≠ .error (.tooLarge n) := by
  cases verdict with
  | accepted text => exact nofun
  | needsMore missing => simp [conclude]
  | rejected cause => simp [conclude]

/-! ## Reads -/

/-- One read gets a chunk that fits into the buffer. -/
theorem Delivery.reads_of_short {chunk : List UInt8} (hne : chunk ≠ [])
    (hshort : chunk.length ≤ bufferSize) : Delivery.reads (.bytes chunk) = [.bytes chunk] := by
  have hrest : pieces bufferSize [] = [] := by
    rw [pieces, dif_pos (.inr rfl)]
  have hsize : ¬ (bufferSize = 0 ∨ chunk = []) := by
    rintro (hsize | hempty)
    · exact absurd hsize (by decide)
    · exact hne hempty
  rw [reads, pieces, dif_neg hsize, List.take_of_length_le hshort, List.drop_of_length_le hshort,
    hrest]
  rfl

/-- The reads of a delivery get its bytes. -/
theorem arriving_reads (delivery : Delivery) : arriving delivery.reads = delivery.chunk := by
  cases delivery with
  | bytes chunk =>
    have hchunks : ∀ chunks : List (List UInt8), arriving (chunks.map .bytes) = chunks.flatten := by
      intro chunks
      rw [arriving, List.flatMap_map]
      exact List.flatMap_id ..
    rw [Delivery.reads, hchunks, flatten_pieces (by decide)]
    rfl
  | interrupted => rfl
  | failed kind => rfl

theorem arriving_flatMap_reads (deliveries : List Delivery) :
    arriving (deliveries.flatMap Delivery.reads) = arriving deliveries := by
  induction deliveries with
  | nil => rfl
  | cons delivery deliveries ih =>
    have hsplit : ∀ xs ys : List Delivery, arriving (xs ++ ys) = arriving xs ++ arriving ys :=
      fun xs ys => List.flatMap_append
    rw [List.flatMap_cons, hsplit, ih, arriving_reads]
    rfl

/-- No read fails that belongs to a delivery without failure. -/
theorem failed_not_mem_reads {deliveries : List Delivery} {kind : IoKind}
    (h : .failed kind ∉ deliveries) : .failed kind ∉ deliveries.flatMap Delivery.reads := by
  intro hmem
  obtain ⟨delivery, hdelivery, hread⟩ := List.mem_flatMap.1 hmem
  cases delivery with
  | bytes chunk => simp [Delivery.reads] at hread
  | interrupted => simp [Delivery.reads] at hread
  | failed cause =>
    obtain rfl : kind = cause := by simpa [Delivery.reads] using hread
    exact h hdelivery

/-! ## Receptions -/

/-- Where a verdict on a beginning of the bytes stands once it is given, the result is the verdict
on the whole of them.  The induction is on the reads that are left. -/
theorem receiveEach_eq_conclude {whole received : List UInt8} {reads : List Delivery}
    (hfinal : ∀ s t, s ++ t = whole → (∀ n, decode s ≠ .needsMore n) → decode whole = decode s)
    (hlimit : whole.length ≤ limit) (hfailed : ∀ kind, .failed kind ∉ reads)
    (hwhole : received ++ arriving reads = whole) :
    (receiveEach limit received reads).result = (decode whole).conclude whole.length := by
  induction reads generalizing received with
  | nil =>
    have hreceived : received = whole := by simpa [arriving] using hwhole
    rw [receiveEach, hreceived]
    cases decode whole <;> rfl
  | cons delivery reads ih =>
    have hrest : ∀ kind, .failed kind ∉ reads := fun kind hmem =>
      hfailed kind (List.mem_cons_of_mem delivery hmem)
    cases delivery with
    | interrupted =>
      rw [receiveEach]
      exact ih hrest hwhole
    | failed kind => exact (hfailed kind (List.mem_cons_self ..)).elim
    | bytes chunk =>
      have hnext : (received ++ chunk) ++ arriving reads = whole := by
        rw [← hwhole, List.append_assoc]
        rfl
      have hsize : ¬ limit < (received ++ chunk).length := by
        have hlength := congrArg List.length hnext
        rw [List.length_append] at hlength
        omega
      simp only [receiveEach, if_neg hsize]
      cases hdecode : decode (received ++ chunk) with
      | needsMore missing => exact ih hrest hnext
      | accepted text =>
        rw [hfinal _ _ hnext (by simp [hdecode]), hdecode]
        rfl
      | rejected cause =>
        rw [hfinal _ _ hnext (by simp [hdecode]), hdecode]
        rfl

/-- From `0x80` on, what is received is the verdict on all the bytes, however they arrive. -/
theorem receive_eq_conclude {deliveries : List Delivery} {b : UInt8} {s : List UInt8}
    (hbytes : arriving deliveries = b :: s) (hb : 0x80 ≤ b) (hlimit : (b :: s).length ≤ limit)
    (hfailed : ∀ kind, .failed kind ∉ deliveries) :
    (receive limit deliveries).result = (decode (b :: s)).conclude (b :: s).length ∧
      ∀ n, (receive limit deliveries).result ≠ .error (.tooLarge n) := by
  have hfinal : ∀ p t, p ++ t = b :: s → (∀ n, decode p ≠ .needsMore n) →
      decode (b :: s) = decode p := by
    intro p t hsplit hmore
    rcases p with _ | ⟨c, p⟩
    · exact (hmore 1 rfl).elim
    · obtain ⟨rfl, rfl⟩ : c = b ∧ p ++ t = s := by simpa using hsplit
      exact decode_append_of_high hb hmore
  have hreads : [] ++ arriving (deliveries.flatMap Delivery.reads) = b :: s := by
    rw [List.nil_append, arriving_flatMap_reads, hbytes]
  have hresult : (receive limit deliveries).result =
      (decode (b :: s)).conclude (b :: s).length := by
    rw [receive_eq]
    exact receiveEach_eq_conclude hfinal hlimit (fun kind => failed_not_mem_reads (hfailed kind))
      hreads
  refine ⟨hresult, fun n => ?_⟩
  rw [hresult]
  exact Verdict.conclude_ne_tooLarge _ _ n

/-- An array with a text of one letter, in three chunks and with an interruption. -/
theorem receive_eq_conclude_three :
    decode [0x91, 0xa1, 0x61] = .accepted "a" ∧
      (receive 3 [.bytes [0x91], .interrupted, .bytes [0xa1], .bytes [0x61]]).result =
        (decode [0x91, 0xa1, 0x61]).conclude 3 ∧
      ∀ n, (receive 3 [.bytes [0x91], .interrupted, .bytes [0xa1], .bytes [0x61]]).result ≠
        .error (.tooLarge n) :=
  have hbytes : arriving [.bytes [0x91], .interrupted, .bytes [0xa1], .bytes [0x61]] =
      [0x91, 0xa1, 0x61] := rfl
  ⟨by decide +kernel, receive_eq_conclude hbytes (by decide) (Nat.le_refl 3) (by simp)⟩

end PerfRelay.Envelope
