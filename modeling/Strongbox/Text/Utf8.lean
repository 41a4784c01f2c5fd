import Strongbox.Bytes

/-!
UTF-8: every text has one encoding, and only well-formed byte strings decode. Main statement:
decoding accepts exactly the encodings.
-/

namespace Strongbox.Utf8

def encode (text : String) : Bytes :=
  text.toByteArray.data.toList

/-- Refuses overlong forms, surrogates, values beyond the last code point and cut sequences. -/
def decode (bs : Bytes) : Option String :=
  String.fromUTF8? ⟨bs.toArray⟩

theorem decode_eq_some_iff {bs : Bytes} {text : String} :
    decode bs = some text ↔ bs = encode text := by
  unfold decode encode String.fromUTF8?
  split
  · rename_i h
    constructor
    · intro he
      cases he
      rfl
    · rintro rfl
      exact congrArg some (String.toByteArray_inj.mp rfl)
  · rename_i h
    constructor
    · simp
    · rintro rfl
      exact absurd text.isValidUTF8 h

theorem decode_encode (text : String) : decode (encode text) = some text :=
  decode_eq_some_iff.mpr rfl

end Strongbox.Utf8
