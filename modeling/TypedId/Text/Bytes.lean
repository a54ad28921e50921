import TypedId.Text.Search

/-!
# Bytes of texts

The UTF-8 form of a text, as files hold it. Not every sequence of bytes is one.
-/

namespace TypedId.Text

def encode (s : Text) : ByteArray := (String.ofList s).toUTF8

/-- The text whose UTF-8 form the bytes are. -/
def decode? (bytes : ByteArray) : Option Text := (String.fromUTF8? bytes).map String.toList

theorem decode?_encode (s : Text) : decode? (encode s) = some s := by
  have hs : (String.ofList s).toUTF8.IsValidUTF8 := (String.ofList s).isValidUTF8
  have : String.fromUTF8 _ hs = String.ofList s := rfl
  rw [decode?, encode, String.fromUTF8?, dif_pos hs, this, Option.map_some, String.toList_ofList]

/-- Bytes that are the UTF-8 form of a text are that of no other. -/
theorem encode_of_decode? {bytes : ByteArray} {s : Text} (h : decode? bytes = some s) :
    encode s = bytes := by
  obtain ⟨t, ht, rfl⟩ := Option.map_eq_some_iff.1 h
  rw [String.fromUTF8?] at ht
  split at ht
  · rw [encode, String.ofList_toList, ← Option.some.inj ht]
    rfl
  · cases ht

end TypedId.Text
