import PerfRelay.Proofs.Envelope.Truncation

/-!
# The two formats of an envelope

Bytes are tried as MessagePack first and as JSON after that.  The order does not matter, since the
first byte tells the formats apart: where the MessagePack reader accepts some bytes or asks for more
of them, they are no beginning of a JSON envelope, and the bytes of a JSON envelope are refused by
it from the first one on.

Main results:

- Theorem `MayBePacked.readPlain_ne_ok`: bytes that may be MessagePack are not continued to JSON.
- Theorem `decode_eq_accepted_iff`: an envelope is one of either format.
- Theorem `formats_disjoint`: no bytes are of both formats, and trying JSON first changes nothing.
-/

namespace PerfRelay.Envelope

variable {b : UInt8} {s t : List UInt8}

/-! ## The first byte -/

/-- The MessagePack reader accepts the bytes or asks for more of them. -/
def MayBePacked (s : List UInt8) : Prop :=
  (∃ text rest, readPacked s = .ok (text, rest)) ∨
    ∃ missing, readPacked s = .error (.endOfInput missing)

/-- What may be MessagePack begins with a byte from `0x80` on. -/
theorem MayBePacked.high (h : MayBePacked (b :: s)) : 0x80 ≤ b := by
  by_contra hb
  have hlow : readPacked (b :: s) = .error .mismatch := readPacked_of_low (UInt8.not_le.1 hb)
  rcases h with ⟨text, rest, hok⟩ | ⟨missing, hend⟩
  · rw [hlow] at hok
    cases hok
  · rw [hlow] at hend
    cases hend

/-- What is JSON begins with a byte below `0x80`. -/
theorem low_of_readPlain {text : String} (h : readPlain (b :: s) = .ok text) : b < 0x80 := by
  by_contra hb
  rw [readPlain_of_high (UInt8.not_lt.1 hb)] at h
  cases h

/-- Bytes that may be MessagePack are not continued to JSON. -/
theorem MayBePacked.readPlain_ne_ok (hs : s ≠ []) (h : MayBePacked s) (t : List UInt8)
    (text : String) : readPlain (s ++ t) ≠ .ok text := by
  obtain ⟨b, rest, rfl⟩ := List.exists_cons_of_ne_nil hs
  intro hplain
  exact absurd (low_of_readPlain hplain) (UInt8.not_lt.2 h.high)

/-- The bytes of a JSON envelope are no MessagePack from the first one on. -/
theorem readPacked_of_readPlain {text : String} (h : readPlain s = .ok text) {p : List UInt8}
    (hp : p <+: s) (hne : p ≠ []) : readPacked p = .error .mismatch := by
  obtain ⟨t, rfl⟩ := hp
  obtain ⟨b, rest, rfl⟩ := List.exists_cons_of_ne_nil hne
  exact readPacked_of_low (low_of_readPlain h)

/-! ## Verdicts -/

/-- The verdict if JSON is tried first, and MessagePack after that. -/
def decodePlainFirst (s : List UInt8) : Verdict :=
  match readPlain s with
  | .ok text => .accepted text
  | .error .endOfInput => .needsMore 1
  | .error _ => packedVerdict (readPacked s)

/-- Which format is tried first does not matter. -/
theorem decodePlainFirst_eq (s : List UInt8) : decodePlainFirst s = decode s := by
  rcases s with _ | ⟨b, s⟩
  · rfl
  · by_cases hb : b < 0x80
    · rw [decode_of_low hb, decodePlainFirst, decodePlain, readPacked_of_low hb]
      rfl
    · have hhigh : 0x80 ≤ b := UInt8.not_lt.1 hb
      rw [decode_of_high hhigh, decodePlainFirst, readPlain_of_high hhigh]

/-- An envelope is one of MessagePack or one of JSON. -/
theorem decode_eq_accepted_iff {text : String} :
    decode s = .accepted text ↔
      (∃ rest, readPacked s = .ok (text, rest)) ∨ readPlain s = .ok text := by
  constructor
  · intro h
    rcases s with _ | ⟨b, s⟩
    · cases h
    · by_cases hb : b < 0x80
      · exact .inr (readPlain_of_accepted hb h)
      · exact .inl (readPacked_of_accepted (UInt8.not_lt.1 hb) h)
  · rintro (⟨rest, hpacked⟩ | hplain)
    · exact decode_of_packed_ok hpacked
    · rw [← decodePlainFirst_eq, decodePlainFirst, hplain]

/-- Bytes that may be MessagePack are not continued to JSON, and those of a JSON envelope are no
MessagePack from the first one on, nor are they too few for it.  So no bytes are accepted in both
formats, and the verdict is the same if JSON is tried first. -/
theorem formats_disjoint (hs : s ≠ []) :
    (MayBePacked s → ∀ t text, readPlain (s ++ t) ≠ .ok text) ∧
      (∀ text, readPlain s = .ok text → ∀ p, p <+: s → p ≠ [] →
        ∃ stop, readPacked p = .error stop ∧ ∀ missing, stop ≠ .endOfInput missing) ∧
      (∀ text, decode s = .accepted text ↔
        (∃ rest, readPacked s = .ok (text, rest)) ∧ (∀ other, readPlain s ≠ .ok other) ∨
          readPlain s = .ok text ∧ ∀ other rest, readPacked s ≠ .ok (other, rest)) ∧
      decodePlainFirst s = decode s := by
  have hforward : MayBePacked s → ∀ t text, readPlain (s ++ t) ≠ .ok text :=
    fun hpacked => hpacked.readPlain_ne_ok hs
  have hbackward : ∀ text, readPlain s = .ok text → ∀ p, p <+: s → p ≠ [] →
      readPacked p = .error .mismatch :=
    fun text hplain p hp hne => readPacked_of_readPlain hplain hp hne
  refine ⟨hforward, ?_, ?_, decodePlainFirst_eq s⟩
  · intro text hplain p hp hne
    exact ⟨.mismatch, hbackward text hplain p hp hne, by simp⟩
  · intro text
    rw [decode_eq_accepted_iff]
    constructor
    · rintro (⟨rest, hpacked⟩ | hplain)
      · refine .inl ⟨⟨rest, hpacked⟩, fun other => ?_⟩
        have hnone := hforward (.inl ⟨text, rest, hpacked⟩) [] other
        rwa [List.append_nil] at hnone
      · refine .inr ⟨hplain, fun other rest hpacked => ?_⟩
        rw [hbackward text hplain s (List.prefix_refl s) hs] at hpacked
        cases hpacked
    · rintro (⟨hpacked, -⟩ | ⟨hplain, -⟩)
      · exact .inl hpacked
      · exact .inr hplain

/-- The head of a long text, the length of which looks like the beginning of a JSON object. -/
theorem formats_disjoint_longText :
    MayBePacked (0xdb :: Utf8.encode "\x7b\"Ta") ∧
      ∀ t text, readPlain (0xdb :: Utf8.encode "\x7b\"Ta" ++ t) ≠ .ok text :=
  have hends : readPacked (0xdb :: Utf8.encode "\x7b\"Ta") = .error (.endOfInput 2065847393) := by
    decide +kernel
  ⟨.inr ⟨_, hends⟩, (formats_disjoint (List.cons_ne_nil _ _)).1 (.inr ⟨_, hends⟩)⟩

end PerfRelay.Envelope
