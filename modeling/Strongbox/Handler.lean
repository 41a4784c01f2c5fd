import Strongbox.Cipher
import Strongbox.Outcome

/-!
Handlers add a marker to encrypted text. Decryption returns whatever does not carry the marker
unchanged, so that a mixture of encrypted and plain values can be decrypted as a whole.
-/

namespace Strongbox

structure Handler where
  cipher : Cipher
  marker : String
deriving DecidableEq

namespace Handler

def standardMarker : String := "\x7bAES256\x7d"

/-- Announces that a handler has been made. -/
def announce : Task Unit :=
  Task.log .debug "CryptoHandler()"

def make (cipher : Cipher) (marker : String) : Task Handler := do
  announce
  return { cipher, marker }

/-- What follows the marker in a marked value. -/
def marked? (h : Handler) : Value → Option Value
  | .text s =>
    if h.marker.toList.isPrefixOf s.toList then
      some (.text (String.ofList (s.toList.drop h.marker.length)))
    else none
  | .brokenText t => (t.after? h.marker).map .brokenText
  | _ => none

def isMarked (h : Handler) (v : Value) : Bool :=
  (h.marked? v).isSome

def encryptText (h : Handler) (v : Value) : Task String :=
  return h.marker ++ (← h.cipher.encryptText v)

def decryptText (h : Handler) (v : Value) : Task Value :=
  match h.marked? v with
  | some encoded => return .text (← h.cipher.decryptText encoded)
  | none => return v

def convert (h : Handler) : Conversion → Value → Task Value
  | .encryptText, v => return .text (← h.encryptText v)
  | .decryptText, v => h.decryptText v
  | .encryptBytes, v => return .ofBytes (← h.cipher.encrypt v)
  | .decryptBytes, v => return .ofBytes (← h.cipher.decrypt v)

/-- The conversion without raising the library's own failures. -/
def attempt (h : Handler) (c : Conversion) (v : Value) : Task Outcome :=
  Outcome.of (h.convert c v)

end Handler

end Strongbox
