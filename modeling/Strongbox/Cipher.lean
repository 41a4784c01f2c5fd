import Strongbox.Envelope
import Strongbox.Octets
import Strongbox.Task
import Strongbox.Text.Utf8

/-!
A cipher holds one secret key and turns byte strings and texts into envelopes and back. Every
reason why an envelope cannot be decrypted gives the same failure, except its being too short.
-/

namespace Strongbox

/-- Texts and byte strings can be encrypted and decrypted. -/
inductive Conversion
  | encryptText
  | decryptText
  | encryptBytes
  | decryptBytes
deriving DecidableEq

/-- The cipher's primitive works as specified, or raises the same fault whenever it is used. -/
structure Cipher where
  key : Key
  fault : Option Fault := none
deriving DecidableEq

namespace Cipher

/-- The longest plaintext that the primitive accepts. -/
def maxPlaintext : Nat := twoTo 31 - 1

def tooLong : Fault := ⟨.overflow, "OverflowError"⟩

def badTag : Fault := ⟨.badTag, "InvalidTag"⟩

def ofKeyBytes (bs : Bytes) : Except Failure Cipher :=
  match Key.ofBytes? bs with
  | some key => .ok { key }
  | none => .error (.keyLength bs.length)

def isAscii (c : Char) : Bool :=
  c.toNat < 128

/-- A text is read as Base64, and any other value as raw octets. -/
def ofSecret : Value → Except Abort Cipher
  | .text s =>
    match Base64.decode s.toList with
    | none => .error (.failure (.undecodableKey (s.toList.all isAscii)))
    | some bs => (ofKeyBytes bs).mapError .failure
  | .brokenText _ => .error (.failure (.undecodableKey false))
  | v =>
    match Octets.ofValue v with
    | .error m => .error (.misuse m)
    | .ok octets =>
      if octets.length = Key.size then (ofKeyBytes octets.toBytes).mapError .failure
      else .error (.failure (.keyLength octets.length))

/-- Without a secret the cipher gets a fresh key. -/
def make : Value → Task Cipher
  | .null => do
    let bs ← Task.generate Key.size
    liftExcept ((ofKeyBytes bs).mapError .failure)
  | secret => liftExcept (ofSecret secret)
where
  liftExcept (r : Except Abort Cipher) : Task Cipher := ExceptT.mk (pure r)

/-- The envelope for a given initialisation vector. -/
def seal? (c : Cipher) (iv plaintext : Bytes) : Except Fault Bytes :=
  match c.fault with
  | some f => .error f
  | none =>
    if maxPlaintext < plaintext.length then .error tooLong
    else .ok (Envelope.close c.key iv plaintext)

def unseal? (c : Cipher) (envelope : Bytes) : Except Fault Bytes :=
  match c.fault with
  | some f => .error f
  | none =>
    match Envelope.open? c.key envelope with
    | some plaintext => .ok plaintext
    | none => .error badTag

end Cipher

namespace Fault

/-- Faults that count as a failed encryption; all others pass through. -/
def failsEncryption (f : Fault) : Bool :=
  f.nature = .wrongType || f.nature.isWrongValue || f.nature = .overflow

/-- Faults that count as a failed decryption; all others pass through. -/
def failsDecryption (f : Fault) : Bool :=
  f.nature = .badTag || f.nature.isWrongValue

end Fault

namespace Cipher

/-- Encrypts raw data under a fresh initialisation vector. The vector is drawn for every plaintext
of the right type, also when the primitive then fails. -/
def encrypt (c : Cipher) : Value → Task Bytes
  | .bytes _ plaintext => do
    let iv ← Task.draw Envelope.ivSize
    match c.seal? iv plaintext with
    | .ok envelope => return envelope
    | .error f =>
      if f.failsEncryption then
        Task.log .error s!"Encryption failed: {f.name}"
        Task.fail (.encryption f)
      else throw f.abort
  | v => Task.reject (.notBytesLike v.typeName)

/-- Decrypts an envelope that is long enough to hold a vector and a tag. -/
def decryptBytes (c : Cipher) (envelope : Bytes) : Task Bytes :=
  match c.unseal? envelope with
  | .ok plaintext => return plaintext
  | .error f =>
    if f.failsDecryption then do
      Task.log .debug s!"Decryption failed ({envelope.length} byte envelope)"
      Task.fail .decryption
    else throw f.abort

/-- The length is checked before the value is turned into octets. -/
def decrypt (c : Cipher) (v : Value) : Task Bytes :=
  match v.length? with
  | none => Task.reject .unsized
  | some n =>
    if n < Failure.envelopeOverhead then Task.fail (.tooShort n)
    else match Octets.ofValue v with
      | .error m => Task.reject m
      | .ok octets => c.decryptBytes octets.toBytes

/-- The octets of a text are found before a vector is drawn. -/
def encryptText (c : Cipher) : Value → Task String
  | .text s => return Base64.encode (← c.encrypt (.ofBytes (Utf8.encode s)))
  | .brokenText _ => Task.reject .unencodable
  | _ => Task.reject .notText

/-- The envelope that a text or octets encode, if they do. -/
def encodedEnvelope : Value → Except Misuse (Option Bytes)
  | .text s => .ok (Base64.decode s.toList)
  | .brokenText _ => .ok none
  | .bytes _ bs => .ok (Base64.decode (bs.map Char.ofUInt8))
  | _ => .error .notEncodedText

def decryptText (c : Cipher) (v : Value) : Task String :=
  match encodedEnvelope v with
  | .error m => Task.reject m
  | .ok none => Task.fail .decryption
  | .ok (some envelope) => do
    let plaintext ← c.decrypt (.ofBytes envelope)
    match Utf8.decode plaintext with
    | some s => return s
    | none => Task.fail .decryption

def convert (c : Cipher) : Conversion → Value → Task Value
  | .encryptText, v => return .text (← c.encryptText v)
  | .decryptText, v => return .text (← c.decryptText v)
  | .encryptBytes, v => return .ofBytes (← c.encrypt v)
  | .decryptBytes, v => return .ofBytes (← c.decrypt v)

end Cipher

end Strongbox
