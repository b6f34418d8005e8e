import Mathlib.Algebra.Order.Ring.Nat
import PerfRelay.MessagePack.Steady

/-!
# Writing and reading MessagePack strings

A string is written with the shortest head that has room for its length.  Whichever head that is,
what is written is read back, and what follows it is left.

Main results:

- Theorem `readHead_textHead`: the head of a string tells its length.
- Theorem `readText_renderText`: a text that is written is read back.
- Theorem `Steady.needsMore_of_exact`: a beginning of what is read to its last byte is incomplete.
-/

namespace PerfRelay.MessagePack

/-! ## Numbers in heads -/

theorem bigEndian_concat (bytes : List UInt8) (b : UInt8) :
    bigEndian (bytes ++ [b]) = 256 * bigEndian bytes + b.toNat :=
  List.foldl_append

theorem length_bigEndianDigits (width n : Nat) : (bigEndianDigits width n).length = width := by
  induction width generalizing n with
  | zero => rfl
  | succ width ih => rw [bigEndianDigits, List.length_append, ih, List.length_singleton]

/-- A number is the one with its digits, if there are enough of them. -/
theorem bigEndian_bigEndianDigits {width n : Nat} (h : n < 256 ^ width) :
    bigEndian (bigEndianDigits width n) = n := by
  induction width generalizing n with
  | zero =>
    have hzero : n = 0 := by simpa using h
    rw [hzero]
    rfl
  | succ width ih =>
    have hhigh : n / 256 < 256 ^ width := by
      apply Nat.div_lt_of_lt_mul
      rwa [Nat.mul_comm, ← Nat.pow_succ]
    have hlow : n.toUInt8.toNat = n % 256 := rfl
    rw [bigEndianDigits, bigEndian_concat, ih hhigh, hlow]
    exact Nat.div_add_mod n 256

/-! ## Rows of bytes -/

theorem dropBytes_append (bytes rest : List UInt8) :
    dropBytes bytes.length (bytes ++ rest) = .ok ((), rest) := by
  induction bytes with
  | nil => rfl
  | cons b bytes ih => exact ih

/-- So many bytes are taken as there are before the rest. -/
theorem takeBytes_append {n : Nat} {bytes : List UInt8} (h : bytes.length = n)
    (rest : List UInt8) : takeBytes n (bytes ++ rest) = .ok (bytes, rest) := by
  subst h
  rw [takeBytes, dropBytes_append, List.take_left]
  rfl

/-! ## Heads -/

/-- A head whose marker is followed by the digits of a number. -/
theorem readHead_sized {marker : UInt8} {width n : Nat} {head : Nat → Head}
    (hform : form? marker = some (.sized width head)) (h : n < 256 ^ width)
    (rest : List UInt8) :
    readHead (marker :: bigEndianDigits width n ++ rest) = .ok (head n, rest) := by
  have htake : takeBytes width (bigEndianDigits width n ++ rest) =
      .ok (bigEndianDigits width n, rest) :=
    takeBytes_append (length_bigEndianDigits width n) rest
  simp only [List.cons_append, readHead, hform, htake, Except.map, bigEndian_bigEndianDigits h]

/-- The markers of short strings. -/
theorem form?_shortText {length : Nat} (h : length ≤ 31) :
    form? (0xa0 + length).toUInt8 = some (.plain (.text length)) := by
  have hmarker : (0xa0 + length).toUInt8.toNat = 0xa0 + length := by
    have hmod : (0xa0 + length).toUInt8.toNat = (0xa0 + length) % 256 := rfl
    rw [hmod]
    omega
  have hunsigned : ¬ 0xa0 + length < 0x80 := by omega
  have hmap : ¬ 0xa0 + length < 0x90 := by omega
  have harray : ¬ 0xa0 + length < 0xa0 := by omega
  have htext : 0xa0 + length < 0xc0 := by omega
  simp only [form?, hmarker, if_neg hunsigned, if_neg hmap, if_neg harray, if_pos htext,
    Nat.add_sub_cancel_left]

/-- The head of a string tells its length. -/
theorem readHead_textHead {length : Nat} (h : length < 2 ^ 32) (rest : List UInt8) :
    readHead (textHead length ++ rest) = .ok (.text length, rest) := by
  unfold textHead
  split
  · rename_i hshort
    rw [List.singleton_append, readHead, form?_shortText hshort]
  · split
    · exact readHead_sized rfl (by omega) rest
    · split
      · exact readHead_sized rfl (by omega) rest
      · exact readHead_sized rfl h rest

/-! ## Texts -/

/-- A text that is written is read back, and what follows it is left. -/
theorem readText_renderText {text : String} (h : (Utf8.encode text).length < 2 ^ 32)
    (rest : List UInt8) : readText (renderText text ++ rest) = .ok (text, rest) := by
  have hhead : readHead (renderText text ++ rest) =
      .ok (.text (Utf8.encode text).length, Utf8.encode text ++ rest) := by
    rw [renderText, framed, List.append_assoc]
    exact readHead_textHead h _
  have htake : takeBytes (Utf8.encode text).length (Utf8.encode text ++ rest) =
      .ok (Utf8.encode text, rest) :=
    takeBytes_append rfl rest
  simp only [readText, hhead, readTextAfter, readTextBody, htake, Utf8.decode?_encode]

/-! ## Beginnings -/

/-- A steady reader that reads some bytes to the last one asks for more wherever they are cut. -/
theorem Steady.needsMore_of_exact {α : Type} {read : List UInt8 → Reading Stop α} {a : α}
    {s t : List UInt8} (h : Steady read) (hexact : read (s ++ t) = .ok (a, [])) (ht : t ≠ []) :
    ∃ missing, read s = .error (.endOfInput missing) := by
  cases hread : read s with
  | ok result =>
    have hwhole : read (s ++ t) = .ok (result.1, result.2 ++ t) := h.ok hread
    rw [hexact, Except.ok.injEq, Prod.mk.injEq] at hwhole
    exact absurd (List.append_eq_nil_iff.1 hwhole.2.symm).2 ht
  | error stop =>
    by_cases hend : ∃ missing, stop = .endOfInput missing
    · obtain ⟨missing, rfl⟩ := hend
      exact ⟨missing, rfl⟩
    · have hwhole : read (s ++ t) = .error stop :=
        h.fault hread fun missing hmissing => hend ⟨missing, hmissing⟩
      rw [hexact] at hwhole
      cases hwhole

/-- Who looks at the bytes as they arrive finds what is in them with the last one. -/
theorem Steady.exists_ok_take_iff {α : Type} {read : List UInt8 → Reading Stop α} {a : α}
    {whole : List UInt8} (h : Steady read) (hexact : read whole = .ok (a, [])) (n : Nat) :
    (∃ b rest, read (whole.take n) = .ok (b, rest)) ↔ whole.length ≤ n := by
  constructor
  · rintro ⟨b, rest, hread⟩
    by_contra hshort
    have hdrop : whole.drop n ≠ [] := by
      rw [ne_eq, List.drop_eq_nil_iff]
      exact hshort
    rw [← List.take_append_drop n whole] at hexact
    obtain ⟨missing, hcut⟩ := h.needsMore_of_exact hexact hdrop
    rw [hread] at hcut
    cases hcut
  · intro hlength
    rw [List.take_of_length_le hlength]
    exact ⟨a, [], hexact⟩

end PerfRelay.MessagePack
