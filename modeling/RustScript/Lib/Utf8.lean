import Mathlib

/-!
# Text as bytes

The UTF-8 bytes of a string, and the string that a byte list spells if it is
valid UTF-8.  The two are inverse to each other (`ofUtf8_utf8`, `utf8_ofUtf8`).
-/

namespace ByteCodec

/-- The UTF-8 bytes of a string. -/
def utf8 (text : String) : List UInt8 := text.toUTF8.data.toList

/-- The string the bytes spell, if they are valid UTF-8. -/
def ofUtf8 (bytes : List UInt8) : Option String := String.fromUTF8? ⟨bytes.toArray⟩

theorem ofUtf8_utf8 (text : String) : ofUtf8 (utf8 text) = some text := by
  have bytes : (⟨(utf8 text).toArray⟩ : ByteArray) = text.toUTF8 := by simp [utf8]
  unfold ofUtf8 String.fromUTF8?
  rw [bytes, String.toUTF8_eq_toByteArray, dif_pos text.isValidUTF8]
  rfl

theorem utf8_ofUtf8 {bytes : List UInt8} {text : String} (h : ofUtf8 bytes = some text) :
    utf8 text = bytes := by
  unfold ofUtf8 String.fromUTF8? at h
  split at h
  · cases h
    rfl
  · cases h

end ByteCodec
