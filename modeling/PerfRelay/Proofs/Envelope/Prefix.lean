import PerfRelay.Envelope.Reply
import PerfRelay.Proofs.Json.Records

/-!
# Verdicts on the beginnings of a reply

A reply arrives piece by piece, and a verdict is wanted on every beginning of it.  The first byte
tells the two kinds of envelopes apart: below `0x80` MessagePack sees a number, which is no
envelope, and from `0x80` on the bytes are no JSON.

A beginning of a MessagePack reply has to be continued until the envelope is complete.  So does a
beginning of a JSON reply, unless it stops in a number that needs a digit.

Main results:

- Theorem `decode_append_of_high`: from `0x80` on a verdict stands once it is given.
- Theorem `prefix_verdict_iff`: which beginnings of a reply are in keeping with it.
-/

namespace PerfRelay.Envelope

variable {b : UInt8} {s t : List UInt8}

/-! ## The two kinds of envelopes -/

/-- Below `0x80` MessagePack sees a number. -/
theorem readPacked_of_low (h : b < 0x80) : readPacked (b :: s) = .error .mismatch := by
  have hform : MessagePack.form? b = some (.plain (.unsigned b.toNat)) :=
    if_pos (UInt8.lt_iff_toNat_lt.1 h)
  have hhead : MessagePack.readHead (b :: s) = .ok (.unsigned b.toNat, s) := by
    simp only [MessagePack.readHead, hform]
  rw [readPacked, hhead]
  rfl

theorem decode_of_low (h : b < 0x80) : decode (b :: s) = decodePlain .mismatch (b :: s) := by
  rw [decode, readPacked_of_low h]

theorem ne_of_high (h : 0x80 ≤ b) {c : UInt8} (hc : c < 0x80) : b ≠ c := by
  rintro rfl
  exact absurd hc (UInt8.not_lt.2 h)

/-- No value of JSON begins with a byte from `0x80` on. -/
theorem refuse_of_high (h : 0x80 ≤ b) : Json.refuse b s = .malformed := by
  have hdigit : ¬ Json.isDigit b = true := by
    rw [Json.isDigit, Bool.and_eq_true, decide_eq_true_eq, decide_eq_true_eq]
    intro hb
    exact absurd (UInt8.le_trans h hb.2) (by decide)
  have hscalar : Json.readScalar b s = .error .malformed := by
    rw [Json.readScalar, if_neg (ne_of_high h (by decide)), if_neg (ne_of_high h (by decide)),
      if_neg (ne_of_high h (by decide)), if_neg (ne_of_high h (by decide)),
      if_neg (ne_of_high h (by decide)), if_neg hdigit]
  have hopen : ¬ (b = Json.byte '[' ∨ b = Json.byte '\x7b') := by
    rintro (hb | hb)
    · exact ne_of_high h (by decide) hb
    · exact ne_of_high h (by decide) hb
  rw [Json.refuse, if_neg hopen, hscalar]

theorem readPlain_of_high (h : 0x80 ≤ b) : readPlain (b :: s) = .error .malformed := by
  have hspace : Json.isSpace b = false := by
    simp only [Json.isSpace, Bool.or_eq_false_iff, beq_eq_false_iff_ne]
    exact ⟨⟨⟨ne_of_high h (by decide), ne_of_high h (by decide)⟩, ne_of_high h (by decide)⟩,
      ne_of_high h (by decide)⟩
  have hnext : Json.next (b :: s) = .ok (b, s) := by
    rw [Json.next, Json.skipSpace, List.dropWhile_cons_of_neg (by simp [hspace])]
  have hbrace : b ≠ Json.byte '\x7b' := ne_of_high h (by decide)
  have hbracket : b ≠ Json.byte '[' := ne_of_high h (by decide)
  have hrecord : (Json.Fold.record [field]).run "" (b :: s) = .error (.malformed, "") := by
    simp only [Json.Fold.record, Json.readRecord, Json.nextOf_of_next hnext, if_neg hbrace,
      if_neg hbracket, refuse_of_high h]
  rw [readPlain, Json.Fold.document, hrecord]
  rfl

/-- The verdict that a reading of a MessagePack envelope gives by itself. -/
def packedVerdict : Reading MessagePack.Stop String → Verdict
  | .ok (text, _) => .accepted text
  | .error (.endOfInput missing) => .needsMore missing
  | .error cause => .rejected cause

/-- From `0x80` on the MessagePack reader alone decides. -/
theorem decode_of_high (h : 0x80 ≤ b) : decode (b :: s) = packedVerdict (readPacked (b :: s)) := by
  have hplain : ∀ cause, decodePlain cause (b :: s) = .rejected cause := fun cause => by
    rw [decodePlain, readPlain_of_high h]
  rw [decode]
  cases readPacked (b :: s) with
  | ok result => rfl
  | error stop =>
    cases stop with
    | endOfInput missing => rfl
    | _ => exact hplain _

/-- From `0x80` on a verdict that does not ask for more stands, whatever follows. -/
theorem decode_append_of_high (hb : 0x80 ≤ b) (h : ∀ n, decode (b :: s) ≠ .needsMore n) :
    decode (b :: s ++ t) = decode (b :: s) := by
  rw [decode_of_high hb] at h
  rw [List.cons_append, decode_of_high hb, decode_of_high hb]
  cases hread : readPacked (b :: s) with
  | ok result =>
    have hwhole : readPacked (b :: (s ++ t)) = .ok (result.1, result.2 ++ t) :=
      steady_readPacked.ok hread
    rw [hwhole]
    rfl
  | error stop =>
    have hstop : ∀ n, stop ≠ .endOfInput n := by
      rintro n rfl
      exact h n (by rw [hread]; rfl)
    have hwhole : readPacked (b :: (s ++ t)) = .error stop := steady_readPacked.fault hread hstop
    rw [hwhole]

/-! ## Beginnings of a reply -/

/-- The bytes are those of a JSON text that stops in a number where it needs a digit. -/
def CutInNumber (s : List UInt8) : Prop :=
  (∀ first ∈ s.head?, first < 0x80) ∧ Json.Mode.plain.after s = .dangling

/-- The field of a JSON envelope is foreseen: its value is a text. -/
theorem foreseen_field : ∀ member ∈ [field], member.value.Foreseen := by
  intro member hmember
  rw [List.mem_singleton] at hmember
  subst hmember
  exact Json.foreseen_ofReader Json.readText_length fun hmode =>
    (Json.outlook_readText hmode).weaken .inl False.elim

/-- A beginning of a JSON envelope that is read. -/
theorem readPlain_beginning {text : String} (h : readPlain (s ++ t) = .ok text) :
    (Json.Mode.plain.after s ≠ .dangling ∧
      (readPlain s = .ok text ∨ readPlain s = .error .endOfInput)) ∨
    (Json.Mode.plain.after s = .dangling ∧ readPlain s = .error .malformed) := by
  have hok : (Json.Fold.record [field]).document "" (s ++ t) = .ok text := by
    rw [readPlain] at h
    cases hread : (Json.Fold.record [field]).document "" (s ++ t) with
    | error e => simp [hread, Except.mapError] at h
    | ok other => simpa [hread, Except.mapError] using h
  rcases (Json.foreseen_record foreseen_field).document_beginning hok with
    ⟨hmode, hread | ⟨e, hread, hcause⟩⟩ | ⟨hmode, e, hread, hcause⟩
  · exact .inl ⟨hmode, .inl (by rw [readPlain, hread]; rfl)⟩
  · refine .inl ⟨hmode, .inr ?_⟩
    rw [readPlain, hread, ← hcause]
    rfl
  · refine .inr ⟨hmode, ?_⟩
    rw [readPlain, hread, ← hcause]
    rfl

/-- A beginning of a reply has to be continued or carries the same text, just if it does not stop in
a number of a JSON text that needs a digit. -/
theorem prefix_verdict_iff {text : String} (h : decode (s ++ t) = .accepted text) :
    (decode s = .accepted text ∨ ∃ n, decode s = .needsMore n) ↔ ¬ CutInNumber s := by
  rcases s with _ | ⟨b, s⟩
  · refine iff_of_true (.inr ⟨1, rfl⟩) fun hcut => ?_
    exact absurd hcut.2 (by simp)
  · by_cases hb : b < 0x80
    · have hcut : CutInNumber (b :: s) ↔ Json.Mode.plain.after (b :: s) = .dangling := by
        simp [CutInNumber, hb]
      have hplain : readPlain (b :: s ++ t) = .ok text := by
        rw [List.cons_append, decode_of_low hb, decodePlain] at h
        split at h
        · rename_i other hread
          obtain rfl : other = text := by simpa using h
          exact hread
        · cases h
        · cases h
      rw [hcut, decode_of_low hb]
      rcases readPlain_beginning hplain with ⟨hmode, hread | hread⟩ | ⟨hmode, hread⟩
      · exact iff_of_true (.inl (by rw [decodePlain, hread])) hmode
      · exact iff_of_true (.inr ⟨1, by rw [decodePlain, hread]⟩) hmode
      · refine iff_of_false ?_ (not_not_intro hmode)
        rw [decodePlain, hread]
        simp
    · have hhigh : 0x80 ≤ b := UInt8.not_lt.1 hb
      have hcut : ¬ CutInNumber (b :: s) := fun hcut => hb (hcut.1 b rfl)
      refine iff_of_true ?_ hcut
      by_cases hmore : ∃ n, decode (b :: s) = .needsMore n
      · exact .inr hmore
      · rw [decode_append_of_high hhigh (not_exists.1 hmore)] at h
        exact .inl h

/-- A minus in a string is no number, so the reply is continued there. -/
theorem prefix_verdict_in_string :
    decode (Utf8.encode "\x7b\"x\":\"-" ++ Utf8.encode "\",\"TaggedData\":\"\"\x7d") =
        .accepted "" ∧
      ((decode (Utf8.encode "\x7b\"x\":\"-") = .accepted "" ∨
        ∃ n, decode (Utf8.encode "\x7b\"x\":\"-") = .needsMore n) ↔
        ¬ CutInNumber (Utf8.encode "\x7b\"x\":\"-")) :=
  have h : decode (Utf8.encode "\x7b\"x\":\"-" ++ Utf8.encode "\",\"TaggedData\":\"\"\x7d") =
      .accepted "" := by decide +kernel
  ⟨h, prefix_verdict_iff h⟩

/-- A reply that carries a text is refused after the sign of a number that it passes over. -/
theorem prefix_rejected_after_sign :
    decode (Utf8.encode "\x7b\"x\":-" ++ Utf8.encode "1,\"TaggedData\":\"\"\x7d") = .accepted "" ∧
      CutInNumber (Utf8.encode "\x7b\"x\":-") ∧
      decode (Utf8.encode "\x7b\"x\":-") = .rejected .mismatch :=
  have hbrace : (Utf8.encode "\x7b\"x\":-").head? = some 0x7b := rfl
  ⟨by decide +kernel, ⟨by rw [hbrace]; rintro first ⟨⟩; decide, by decide⟩, by decide +kernel⟩

end PerfRelay.Envelope
