/-!
# UTF-8

Texts are stored and sent as bytes.  This module fixes the two directions: the bytes of a text, and
the text that a row of bytes stands for, if it stands for one.

Main results:

- Theorem `decode?_encode`: the bytes of a text stand for that text.
- Theorem `encode_eq_of_decode?`: bytes that stand for a text are the bytes of that text.
-/

namespace PerfRelay.Utf8

/-- The UTF-8 bytes of a text. -/
def encode (text : String) : List UInt8 :=
  text.toByteArray.data.toList

/-- The text that the bytes stand for; `none` when they are not well-formed UTF-8. -/
def decode? (bytes : List UInt8) : Option String :=
  String.fromUTF8? ⟨bytes.toArray⟩

/-- The UTF-8 bytes of the character with the given code point. -/
def encodeCodePoint (n : Nat) : List UInt8 :=
  String.utf8EncodeChar (Char.ofNat n)

theorem decode?_encode (text : String) : decode? (encode text) = some text := by
  have h : (⟨(encode text).toArray⟩ : ByteArray) = text.toByteArray := by simp [encode]
  rw [decode?, h, String.fromUTF8?, dif_pos text.isValidUTF8]
  rfl

theorem encode_eq_of_decode? {bytes : List UInt8} {text : String}
    (h : decode? bytes = some text) : encode text = bytes := by
  simp only [decode?, String.fromUTF8?] at h
  split at h
  · cases h
    simp [encode, String.fromUTF8]
  · simp at h

end PerfRelay.Utf8
