import Mathlib.Tactic.ByContra
import Mathlib.Tactic.SplitIfs
import PerfRelay.Proofs.Json.Strings

/-!
# The order of texts and that of their bytes

Texts are ordered character by character.  The bytes of a greater character are greater where they
first differ, whatever comes after them, so the order of texts is at the same time the order of
their UTF-8 bytes.

Main results:

- Theorem `encodeChar_append_lt`: the bytes of a greater character are greater.
- Theorem `encode_lt_encode_iff`: texts and their bytes are in the same order.
-/

namespace PerfRelay.Utf8

/-- Rows of bytes that begin with numbers in order, and go on in order if these are equal. -/
theorem cons_lt_cons {x y : Nat} {s t : List UInt8} (hy : y < UInt8.size) (hle : x ≤ y)
    (h : x = y → s < t) : UInt8.ofNat x :: s < UInt8.ofNat y :: t := by
  rw [List.cons_lt_cons_iff]
  rcases Nat.lt_or_eq_of_le hle with hlt | rfl
  · exact .inl ((UInt8.ofNat_lt_iff_lt (Nat.lt_trans hlt hy) hy).2 hlt)
  · exact .inr ⟨rfl, h rfl⟩

/-- The bytes of a greater character are greater, whatever comes after them.  A character with more
bytes has a greater first byte; with equally many the bytes are the digits of the code point to base
64, the highest one first. -/
theorem encodeChar_append_lt {c d : Char} (h : c < d) (s t : List UInt8) :
    String.utf8EncodeChar c ++ s < String.utf8EncodeChar d ++ t := by
  have hlt : c.val.toNat < d.val.toNat := UInt32.lt_iff_toNat_lt.1 h
  have hscalar : d.val.toNat < 0x110000 := by
    have hvalid := d.valid
    simp only [UInt32.isValidChar, Nat.isValidChar] at hvalid
    omega
  have hsize : UInt8.size = 0x100 := rfl
  generalize hm : c.val.toNat = m at hlt
  generalize hn : d.val.toNat = n at hlt hscalar
  rw [String.utf8EncodeChar, String.utf8EncodeChar, hm, hn]
  by_cases hone : n ≤ 127
  · rw [if_pos (Nat.le_of_lt (Nat.lt_of_lt_of_le hlt hone)), if_pos hone]
    exact cons_lt_cons (by omega) (by omega) (by omega)
  rw [if_neg hone]
  by_cases hone' : m ≤ 127
  · rw [if_pos hone']
    split_ifs
    all_goals exact cons_lt_cons (by omega) (by omega) (by omega)
  rw [if_neg hone']
  by_cases htwo : n ≤ 2047
  · rw [if_pos (Nat.le_of_lt (Nat.lt_of_lt_of_le hlt htwo)), if_pos htwo]
    refine cons_lt_cons (by omega) (by omega) fun hfirst => ?_
    exact cons_lt_cons (by omega) (by omega) (by omega)
  rw [if_neg htwo]
  by_cases htwo' : m ≤ 2047
  · rw [if_pos htwo']
    split_ifs
    all_goals exact cons_lt_cons (by omega) (by omega) (by omega)
  rw [if_neg htwo']
  by_cases hthree : n ≤ 65535
  · rw [if_pos (Nat.le_of_lt (Nat.lt_of_lt_of_le hlt hthree)), if_pos hthree]
    refine cons_lt_cons (by omega) (by omega) fun hfirst => ?_
    refine cons_lt_cons (by omega) (by omega) fun hsecond => ?_
    exact cons_lt_cons (by omega) (by omega) (by omega)
  rw [if_neg hthree]
  by_cases hthree' : m ≤ 65535
  · rw [if_pos hthree']
    exact cons_lt_cons (by omega) (by omega) (by omega)
  rw [if_neg hthree']
  refine cons_lt_cons (by omega) (by omega) fun hfirst => ?_
  refine cons_lt_cons (by omega) (by omega) fun hsecond => ?_
  refine cons_lt_cons (by omega) (by omega) fun hthird => ?_
  exact cons_lt_cons (by omega) (by omega) (by omega)

/-- The bytes of a greater text are greater.  The induction is on what makes the text greater. -/
theorem flatMap_encodeChar_lt {s t : List Char} (h : List.Lex (· < ·) s t) :
    s.flatMap String.utf8EncodeChar < t.flatMap String.utf8EncodeChar := by
  induction h with
  | @nil c t =>
    rw [List.flatMap_nil, List.flatMap_cons]
    rcases hc : String.utf8EncodeChar c with _ | ⟨b, rest⟩
    · exact absurd hc String.utf8EncodeChar_ne_nil
    · exact List.nil_lt_cons b _
  | rel hlt =>
    rw [List.flatMap_cons, List.flatMap_cons]
    exact encodeChar_append_lt hlt _ _
  | cons _ ih =>
    rw [List.flatMap_cons, List.flatMap_cons]
    exact List.append_left_lt ih

theorem encode_lt_encode {a b : String} (h : a < b) : encode a < encode b := by
  have hbytes : ∀ text : String, encode text = text.toList.flatMap String.utf8EncodeChar := by
    intro text
    rw [← encode_ofList, String.ofList_toList]
  rw [hbytes, hbytes]
  exact flatMap_encodeChar_lt (String.lt_iff.1 h)

/-- Texts are in the order of their bytes. -/
theorem encode_lt_encode_iff {a b : String} : encode a < encode b ↔ a < b := by
  refine ⟨fun h => ?_, encode_lt_encode⟩
  by_contra hle
  by_cases heq : a = b
  · exact List.lt_irrefl _ (heq ▸ h)
  · exact List.lt_asymm h (encode_lt_encode (lt_of_not_lt_of_ne hle heq))

theorem encode_le_encode_iff {a b : String} : encode a ≤ encode b ↔ a ≤ b := by
  rw [← List.not_lt, ← String.not_lt, encode_lt_encode_iff]

end PerfRelay.Utf8
