/-!
# UTF-8

The bytes of a string, and the string of some bytes that are well formed. Main statements: the two
undo each other (`ofUtf8?_utf8`, `utf8_of_ofUtf8?`).
-/

namespace LedgerValue.Text

/-- The bytes of a string in UTF-8. -/
def utf8 (text : String) : List UInt8 := text.toUTF8.data.toList

/-- The string with some bytes, if they are well formed. -/
def ofUtf8? (bytes : List UInt8) : Option String := String.fromUTF8? ⟨bytes.toArray⟩

@[simp]
theorem ofUtf8?_utf8 (text : String) : ofUtf8? (utf8 text) = some text := by
  simp only [ofUtf8?, utf8, String.toUTF8_eq_toByteArray, Array.toArray_toList, String.fromUTF8?,
    dif_pos text.isValidUTF8]
  rfl

theorem utf8_of_ofUtf8? {bytes : List UInt8} {text : String} (htext : ofUtf8? bytes = some text) :
    utf8 text = bytes := by
  simp only [ofUtf8?, String.fromUTF8?] at htext
  split at htext
  · obtain rfl := Option.some.inj htext
    rfl
  · simp at htext

end LedgerValue.Text
