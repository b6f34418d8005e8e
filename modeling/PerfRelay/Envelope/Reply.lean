import PerfRelay.Json.Record
import PerfRelay.MessagePack.Steady

/-!
# Reply envelopes

The agent answers with an envelope that carries one text.  The envelope is a MessagePack map or
array, or a JSON object or array, with a single known field; a reply without that field carries the
empty text.

Bytes arrive piece by piece, so the verdict on the bytes so far is threefold: they have to be
continued, they carry a text, or they are no envelope.  In MessagePack the first value is the reply
and whatever follows it does not count; a JSON reply is the whole of the bytes.

Main results:

- Theorem `decode_of_packed_ok`: what the MessagePack reader accepts is the verdict.
- Theorem `decode_of_packed_endOfInput`: what ends too early for it has to be continued.
- Theorem `decode_append_of_needsMore`: fewer bytes than are missing do not change that.
-/

namespace PerfRelay.Envelope

/-- The name of the known field. -/
def fieldName : String := "TaggedData"

/-! ## MessagePack envelopes -/

/-- Whether the key after a head selects the known field, by its name or by its number, which is
zero. -/
@[inline]
def readKeyAfter : MessagePack.Head → List UInt8 → Reading MessagePack.Stop Bool
  | .text length, s | .binary length, s =>
    (MessagePack.takeBytes length s).map fun (name, rest) => (name == Utf8.encode fieldName, rest)
  | .unsigned n, s => .ok (n == 0, s)
  | _, _ => .error .mismatch

/-- Reads a key of a map and tells whether it selects the known field. -/
@[inline]
def readKey (s : List UInt8) : Reading MessagePack.Stop Bool :=
  match MessagePack.readHead s with
  | .error stop => .error stop
  | .ok (head, rest) => readKeyAfter head rest

theorem readKeyAfter_length {head : MessagePack.Head} {s rest : List UInt8} {known : Bool}
    (h : readKeyAfter head s = .ok (known, rest)) : rest.length ≤ s.length := by
  cases head with
  | text length | binary length =>
    simp only [readKeyAfter] at h
    cases htake : MessagePack.takeBytes length s with
    | error => rw [htake] at h; cases h
    | ok =>
      rw [htake] at h
      cases h
      have := MessagePack.takeBytes_length htake
      omega
  | unsigned => cases h; exact Nat.le_refl _
  | _ => cases h

theorem readKey_length {s rest : List UInt8} {known : Bool} (h : readKey s = .ok (known, rest)) :
    rest.length < s.length := by
  unfold readKey at h
  split at h
  · cases h
  · rename_i hhead
    have := MessagePack.readHead_length hhead
    have := readKeyAfter_length h
    omega

/-- The value after a key, which may be known; `left` entries follow it, and `found` is the text of
the known field if it has come before. -/
@[inline]
def readEntryAfter (left : Nat) (found : Option String) : Bool → List UInt8 →
    Reading MessagePack.Stop (Turn (Nat × Option String) String)
  | false, s => (MessagePack.skipValue 1 s).map fun (_, rest) => (.again (left, found), rest)
  | true, s =>
    match found with
    | some _ => .error .mismatch
    | none => (MessagePack.readText s).map fun (text, rest) => (.again (left, some text), rest)

/-- Reads the next key and value of a map; the state tells how many are left, and the text of the
known field once it has come. -/
@[inline]
def entryStep : Nat × Option String → List UInt8 →
    Reading MessagePack.Stop (Turn (Nat × Option String) String)
  | (0, found), s => .ok (.finish (found.getD ""), s)
  | (left + 1, found), s =>
    match readKey s with
    | .error stop => .error stop
    | .ok (known, rest) => readEntryAfter left found known rest

theorem readEntryAfter_length {left : Nat} {found : Option String} {known : Bool}
    {s rest : List UInt8} {turn : Turn (Nat × Option String) String}
    (h : readEntryAfter left found known s = .ok (turn, rest)) : rest.length < s.length := by
  cases known with
  | false =>
    simp only [readEntryAfter] at h
    cases hskip : MessagePack.skipValue 1 s with
    | error => rw [hskip] at h; cases h
    | ok =>
      rw [hskip] at h
      cases h
      exact MessagePack.skipValue_length hskip
  | true =>
    cases found with
    | some text => cases h
    | none =>
      simp only [readEntryAfter] at h
      cases htext : MessagePack.readText s with
      | error => rw [htext] at h; cases h
      | ok =>
        rw [htext] at h
        cases h
        exact MessagePack.readText_length htext

theorem entryStep_length {left : Nat} {found : Option String} {s rest : List UInt8}
    {turn : Turn (Nat × Option String) String}
    (h : entryStep (left + 1, found) s = .ok (turn, rest)) : rest.length < s.length := by
  simp only [entryStep] at h
  split at h
  · cases h
  · rename_i hkey
    have := readKey_length hkey
    have := readEntryAfter_length h
    omega

/-- The keys and values of a map. -/
@[inline]
def entryLoop : Loop MessagePack.Stop (Nat × Option String) String where
  step := entryStep
  moves := by
    intro state next s rest h
    obtain ⟨_ | left, found⟩ := state
    · cases h
    · exact entryStep_length h

/-- Reads the text of a MessagePack envelope, its head gone. -/
def readBody : MessagePack.Head → List UInt8 → Reading MessagePack.Stop String
  | .map count, s => entryLoop.run (count, none) s
  | .array 0, s => .ok ("", s)
  | .array (more + 1), s =>
    match MessagePack.readText s with
    | .error stop => .error stop
    | .ok (text, rest) => if more = 0 then .ok (text, rest) else .error .wrongLength
  | .binary length, s =>
    match MessagePack.dropBytes length s with
    | .error stop => .error stop
    | .ok (_, rest) => if length = 0 then .ok ("", rest) else .error .mismatch
  | .text length, s =>
    match MessagePack.readTextBody .notText length s with
    | .error stop => .error stop
    | .ok _ => .error .mismatch
  | _, _ => .error .mismatch

/-- Reads the text of a MessagePack envelope. -/
def readPacked (s : List UInt8) : Reading MessagePack.Stop String :=
  match MessagePack.readHead s with
  | .error stop => .error stop
  | .ok (head, rest) => readBody head rest

theorem steady_readKeyAfter (head : MessagePack.Head) : MessagePack.Steady (readKeyAfter head) := by
  change MessagePack.Steady fun s => readKeyAfter head s
  cases head with
  | text length | binary length =>
    exact (MessagePack.steady_takeBytes length).map (· == Utf8.encode fieldName) fun _ => rfl
  | unsigned n => exact .pure (n == 0)
  | _ => exact .stop (by simp)

theorem steady_readKey : MessagePack.Steady readKey :=
  MessagePack.steady_readHead.bind readKeyAfter
    (fun s => by unfold readKey; cases MessagePack.readHead s <;> rfl) steady_readKeyAfter

theorem steady_readEntryAfter (left : Nat) (found : Option String) (known : Bool) :
    MessagePack.Steady (readEntryAfter left found known) := by
  change MessagePack.Steady fun s => readEntryAfter left found known s
  cases known with
  | false => exact (MessagePack.steady_skipValue 1).map (fun _ => .again (left, found)) fun _ => rfl
  | true =>
    cases found with
    | some text => exact .stop (by simp)
    | none =>
      exact MessagePack.steady_readText.map (fun text => .again (left, some text)) fun _ => rfl

theorem steady_entryStep (state : Nat × Option String) :
    MessagePack.Steady (entryStep state) := by
  obtain ⟨_ | left, found⟩ := state
  · exact .pure _
  · exact steady_readKey.bind (readEntryAfter left found)
      (fun s => by simp only [entryStep]; cases readKey s <;> rfl)
      (steady_readEntryAfter left found)

theorem steady_readBody (head : MessagePack.Head) : MessagePack.Steady (readBody head) := by
  change MessagePack.Steady fun s => readBody head s
  cases head with
  | map count => exact MessagePack.Steady.run entryLoop steady_entryStep (count, none)
  | array count =>
    cases count with
    | zero => exact .pure ""
    | succ more =>
      refine MessagePack.steady_readText.bind
        (fun text rest => if more = 0 then .ok (text, rest) else .error .wrongLength)
        (fun s => ?_) fun text => ?_
      · simp only [readBody]
        cases MessagePack.readText s <;> rfl
      · by_cases hmore : more = 0
        · simpa only [hmore, if_true] using .pure text
        · simpa only [hmore, if_false] using .stop (by simp)
  | binary length =>
    refine (MessagePack.steady_dropBytes length).bind
      (fun _ rest => if length = 0 then .ok ("", rest) else .error .mismatch)
      (fun s => ?_) fun _ => ?_
    · simp only [readBody]
      cases MessagePack.dropBytes length s <;> rfl
    · by_cases hlength : length = 0
      · simpa only [hlength, if_true] using .pure ""
      · simpa only [hlength, if_false] using .stop (by simp)
  | text length =>
    have hbody : MessagePack.Steady (MessagePack.readTextBody .notText length) :=
      MessagePack.steady_readTextBody (by simp) length
    refine hbody.bind (fun _ _ => .error .mismatch) (fun s => ?_) fun _ => .stop (by simp)
    simp only [readBody]
    cases MessagePack.readTextBody .notText length s <;> rfl
  | _ => exact .stop (by simp)

/-- The reader of MessagePack envelopes is steady. -/
theorem steady_readPacked : MessagePack.Steady readPacked :=
  MessagePack.steady_readHead.bind readBody
    (fun s => by unfold readPacked; cases MessagePack.readHead s <;> rfl) steady_readBody

/-! ## JSON envelopes -/

/-- The known field of a JSON envelope. -/
def field : Json.Field String :=
  ⟨fieldName, .ofReader Json.readText (fun text _ => text) Json.readText_length⟩

/-- Reads the text of a JSON envelope. -/
def readPlain (s : List UInt8) : Except Json.Stop String :=
  ((Json.Fold.record [field]).document "" s).mapError (·.1)

/-! ## Verdicts -/

/-- The verdict on the bytes that have arrived. -/
inductive Verdict where
  /-- They have to be continued, by so many bytes at least. -/
  | needsMore (missing : Nat)
  /-- They carry a text. -/
  | accepted (text : String)
  /-- They are no envelope, and for this reason no MessagePack envelope. -/
  | rejected (cause : MessagePack.Stop)
deriving DecidableEq, Repr

/-- The verdict on bytes that are no MessagePack envelope for the given reason. -/
def decodePlain (cause : MessagePack.Stop) (s : List UInt8) : Verdict :=
  match readPlain s with
  | .ok text => .accepted text
  | .error .endOfInput => .needsMore 1
  | .error _ => .rejected cause

/-- The verdict on the bytes that have arrived. -/
def decode (s : List UInt8) : Verdict :=
  match readPacked s with
  | .ok (text, _) => .accepted text
  | .error (.endOfInput missing) => .needsMore missing
  | .error cause => decodePlain cause s

theorem decode_of_packed_ok {s rest : List UInt8} {text : String}
    (h : readPacked s = .ok (text, rest)) : decode s = .accepted text := by
  rw [decode, h]

theorem decode_of_packed_endOfInput {s : List UInt8} {missing : Nat}
    (h : readPacked s = .error (.endOfInput missing)) : decode s = .needsMore missing := by
  rw [decode, h]

/-- Fewer bytes than are missing do not change that more are needed. -/
theorem decode_append_of_needsMore {s more : List UInt8} {n : Nat}
    (h : decode s = .needsMore n) (hlt : more.length < n) :
    ∃ m, decode (s ++ more) = .needsMore m := by
  cases hpacked : readPacked s with
  | ok result => simp [decode, hpacked] at h
  | error stop =>
    by_cases hend : ∃ m, stop = .endOfInput m
    · obtain ⟨m, rfl⟩ := hend
      rw [decode_of_packed_endOfInput hpacked, Verdict.needsMore.injEq] at h
      subst h
      obtain ⟨k, hk⟩ := steady_readPacked.missing hpacked hlt
      exact ⟨k, decode_of_packed_endOfInput hk⟩
    · have hplain : decode s = decodePlain stop s := by
        rw [decode, hpacked]
        cases stop <;> simp_all
      have hone : n = 1 := by
        rw [hplain, decodePlain] at h
        split at h <;> simp_all
      have hmore : more = [] := List.length_eq_zero_iff.1 (by omega)
      exact ⟨n, by rw [hmore, List.append_nil, h]⟩

/-! ## Writing -/

/-- The MessagePack envelope around a row of bytes. -/
def wrap (payload : List UInt8) : List UInt8 :=
  0x81 :: MessagePack.renderText fieldName ++ MessagePack.framed payload

end PerfRelay.Envelope
