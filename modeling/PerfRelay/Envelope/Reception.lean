import PerfRelay.Envelope.Reply
import PerfRelay.Failure

/-!
# Receiving a reply

A reply is collected from the reads of a connection until the bytes carry a text, until they cannot
become an envelope any more, or until there are too many of them.  A read that was interrupted is
repeated; any other failure ends the reception.  Bytes that are known to need continuation are not
looked at again before enough of them have arrived.

Main results:

- Theorem `receive_eq`: the result is the same as if the bytes were looked at after every read.
- Theorem `receive_interrupted`: interrupted reads change nothing but the number of reads.
-/

namespace PerfRelay

/-- Why an exchange with the agent failed. -/
inductive ExchangeFault where
  /-- There was no connection to the socket at this path. -/
  | connect (path : String) (kind : IoKind)
  /-- The connection failed. -/
  | io (kind : IoKind)
  /-- The reply is no envelope. -/
  | envelope (cause : MessagePack.Stop)
  /-- The reply has more bytes than this. -/
  | tooLarge (limit : Nat)
  /-- The reply ended after this many bytes. -/
  | incomplete (received : Nat)
  /-- The text in the envelope is no configuration document. -/
  | payload (stop : Json.Stop)
deriving DecidableEq, Repr

/-- The text of a fault. -/
def ExchangeFault.message : ExchangeFault → String
  | .connect path _ => s!"could not connect to extension endpoint {path}: {unspecified}"
  | .io _ => s!"extension socket i/o failed: {unspecified}"
  | .envelope _ => s!"malformed extension response envelope: {unspecified}"
  | .tooLarge limit => s!"extension response exceeds {limit} bytes"
  | .incomplete received =>
    s!"extension endpoint closed the connection after {received} bytes"
  | .payload _ => s!"could not decode tagged data: {unspecified}"

namespace Envelope

/-- What one read of a connection gives. -/
inductive Delivery where
  | bytes (chunk : List UInt8)
  | interrupted
  | failed (kind : IoKind)
deriving DecidableEq, Repr

/-- How many bytes one read gives at most. -/
def bufferSize : Nat := 4096

/-- Bytes in pieces of the given size, the last one perhaps shorter. -/
def pieces (size : Nat) (bytes : List UInt8) : List (List UInt8) :=
  if _ : size = 0 ∨ bytes = [] then []
  else bytes.take size :: pieces size (bytes.drop size)
termination_by bytes.length
decreasing_by
  rename_i h
  have : bytes.length ≠ 0 := fun hlen => h (.inr (List.length_eq_zero_iff.1 hlen))
  simp only [List.length_drop]
  omega

theorem flatten_pieces {size : Nat} (hsize : 0 < size) (bytes : List UInt8) :
    (pieces size bytes).flatten = bytes := by
  fun_induction pieces size bytes with
  | case1 bytes h => rcases h with h | rfl <;> simp_all
  | case2 bytes h ih => simp [ih]

/-- The reads that it takes to get what a connection offers. -/
def Delivery.reads : Delivery → List Delivery
  | .bytes chunk => (pieces bufferSize chunk).map .bytes
  | other => [other]

/-- The text that was received, or why there is none, and the number of reads. -/
structure Reception where
  result : Except ExchangeFault String
  reads : Nat

/-- A reception that took one more read before. -/
def Reception.afterRead (reception : Reception) : Reception :=
  { reception with reads := reception.reads + 1 }

/-- What has arrived of a reply that is not complete. -/
structure Inbox where
  /-- The bytes that were looked at. -/
  seen : List UInt8
  /-- The chunks that have arrived since then, the last one first. -/
  unseen : List (List UInt8)
  /-- The number of bytes that have arrived. -/
  size : Nat
  /-- So many more bytes have to arrive before there is anything new to see. -/
  missing : Nat

namespace Inbox

/-- Nothing has arrived. -/
def empty : Inbox := ⟨[], [], 0, 0⟩

/-- The bytes that have arrived. -/
def bytes (inbox : Inbox) : List UInt8 := inbox.seen ++ inbox.unseen.reverse.flatten

/-- One more chunk has arrived. -/
def add (inbox : Inbox) (chunk : List UInt8) : Inbox :=
  { inbox with
    unseen := chunk :: inbox.unseen
    size := inbox.size + chunk.length
    missing := inbox.missing - chunk.length }

/-- The counts are right: the bytes that were looked at are continued by all that have arrived since
then, and by those that are missing. -/
structure Valid (inbox : Inbox) : Prop where
  size_eq : inbox.size = inbox.bytes.length
  needs : 0 < inbox.missing →
    decode inbox.seen = .needsMore (inbox.unseen.reverse.flatten.length + inbox.missing)

theorem valid_empty : empty.Valid := ⟨rfl, fun h => absurd h (Nat.lt_irrefl 0)⟩

@[simp] theorem bytes_add (inbox : Inbox) (chunk : List UInt8) :
    (inbox.add chunk).bytes = inbox.bytes ++ chunk := by
  simp [bytes, add]

theorem Valid.add {inbox : Inbox} (h : inbox.Valid) (chunk : List UInt8) :
    (inbox.add chunk).Valid where
  size_eq := by rw [bytes_add, List.length_append, ← h.size_eq]; rfl
  needs hmissing := by
    simp only [Inbox.add] at hmissing ⊢
    rw [h.needs (by omega)]
    simp only [List.reverse_cons, List.flatten_append, List.flatten_cons, List.flatten_nil,
      List.append_nil, List.length_append, Verdict.needsMore.injEq]
    omega

/-- While bytes are missing, all that have arrived have to be continued. -/
theorem Valid.decode_bytes {inbox : Inbox} (h : inbox.Valid) (hmissing : 0 < inbox.missing) :
    ∃ n, decode inbox.bytes = .needsMore n :=
  decode_append_of_needsMore (h.needs hmissing) (Nat.lt_add_of_pos_right hmissing)

end Inbox

/-- Collects a reply of at most `limit` bytes, given what has arrived; after the last delivery the
connection is closed. -/
def receiveMore (limit : Nat) (inbox : Inbox) : List Delivery → Reception
  | [] =>
    match decode inbox.bytes with
    | .accepted text => ⟨.ok text, 1⟩
    | .needsMore _ => ⟨.error (.incomplete inbox.size), 1⟩
    | .rejected cause => ⟨.error (.envelope cause), 1⟩
  | .interrupted :: rest => (receiveMore limit inbox rest).afterRead
  | .failed kind :: _ => ⟨.error (.io kind), 1⟩
  | .bytes chunk :: rest =>
    let inbox := inbox.add chunk
    if limit < inbox.size then ⟨.error (.tooLarge limit), 1⟩
    else if 0 < inbox.missing then (receiveMore limit inbox rest).afterRead
    else
      let bytes := inbox.bytes
      match decode bytes with
      | .accepted text => ⟨.ok text, 1⟩
      | .rejected cause => ⟨.error (.envelope cause), 1⟩
      | .needsMore missing =>
        (receiveMore limit ⟨bytes, [], inbox.size, missing⟩ rest).afterRead

/-- Receives a reply of at most `limit` bytes. -/
def receive (limit : Nat) (deliveries : List Delivery) : Reception :=
  receiveMore limit .empty (deliveries.flatMap Delivery.reads)

theorem receive_interrupted (limit : Nat) (deliveries : List Delivery) :
    (receive limit (.interrupted :: deliveries)).result = (receive limit deliveries).result := rfl

/-! ## Looking after every read -/

/-- Collects a reply as `receiveMore` does, but looks at the bytes after every read; `received` is
what has arrived. -/
def receiveEach (limit : Nat) (received : List UInt8) : List Delivery → Reception
  | [] =>
    match decode received with
    | .accepted text => ⟨.ok text, 1⟩
    | .needsMore _ => ⟨.error (.incomplete received.length), 1⟩
    | .rejected cause => ⟨.error (.envelope cause), 1⟩
  | .interrupted :: rest => (receiveEach limit received rest).afterRead
  | .failed kind :: _ => ⟨.error (.io kind), 1⟩
  | .bytes chunk :: rest =>
    let received := received ++ chunk
    if limit < received.length then ⟨.error (.tooLarge limit), 1⟩
    else
      match decode received with
      | .accepted text => ⟨.ok text, 1⟩
      | .rejected cause => ⟨.error (.envelope cause), 1⟩
      | .needsMore _ => (receiveEach limit received rest).afterRead

theorem receiveMore_eq {limit : Nat} {inbox : Inbox} (h : inbox.Valid)
    (deliveries : List Delivery) :
    receiveMore limit inbox deliveries = receiveEach limit inbox.bytes deliveries := by
  induction deliveries generalizing inbox with
  | nil =>
    unfold receiveMore receiveEach
    rw [h.size_eq]
  | cons delivery rest ih =>
    cases delivery with
    | interrupted => simp only [receiveMore, receiveEach, ih h]
    | failed kind => rfl
    | bytes chunk =>
      have hadd := h.add chunk
      simp only [receiveMore, receiveEach, hadd.size_eq, Inbox.bytes_add]
      split
      · rfl
      · split
        · rename_i hmissing
          obtain ⟨n, hn⟩ := hadd.decode_bytes hmissing
          rw [Inbox.bytes_add] at hn
          simp only [hn, ih hadd, Inbox.bytes_add]
        · split
          · rfl
          · rfl
          · rename_i missing hdecode
            have hnext : Inbox.Valid ⟨inbox.bytes ++ chunk, [], (inbox.bytes ++ chunk).length,
                missing⟩ :=
              ⟨by simp [Inbox.bytes], fun _ => by simpa using hdecode⟩
            rw [ih hnext]
            simp [Inbox.bytes]

/-- It does not matter that bytes are looked at only where there may be something new to see. -/
theorem receive_eq (limit : Nat) (deliveries : List Delivery) :
    receive limit deliveries = receiveEach limit [] (deliveries.flatMap Delivery.reads) :=
  receiveMore_eq Inbox.valid_empty _

end Envelope

end PerfRelay
