import Strongbox.SystemError
import Strongbox.Value.Quoted

/-!
The library's own failures. Each has a cause, from which its class, its kind and its message
follow; the message never holds key material, plaintext or ciphertext.
-/

namespace Strongbox

/-- What went wrong, for callers that branch on failures without catching them. -/
inductive FailureKind
  | configuration
  | keyStore
  | payloadTooShort
  | decryptionFailed
  | encryptionFailed
deriving DecidableEq

namespace FailureKind

def all : List FailureKind :=
  [configuration, keyStore, payloadTooShort, decryptionFailed, encryptionFailed]

def name : FailureKind → String
  | configuration => "configuration"
  | keyStore => "key_store"
  | payloadTooShort => "payload_too_short"
  | decryptionFailed => "decryption_failed"
  | encryptionFailed => "encryption_failed"

/-- The message of a failure that was given none. -/
def sentence : FailureKind → String
  | configuration => "Configuration"
  | keyStore => "Key store"
  | payloadTooShort => "Payload too short"
  | decryptionFailed => "Decryption failed"
  | encryptionFailed => "Encryption failed"

end FailureKind

/-- The classes of failure; each is also every class further up in its lineage. -/
inductive FailureClass
  | crypto
  | configuration
  | invalidKeyLength
  | keyStore
  | payloadTooShort
  | decryptionFailed
  | encryptionFailed
deriving DecidableEq

namespace FailureClass

def all : List FailureClass :=
  [crypto, configuration, invalidKeyLength, keyStore, payloadTooShort, decryptionFailed,
    encryptionFailed]

def name : FailureClass → String
  | crypto => "CryptoError"
  | configuration => "ConfigurationError"
  | invalidKeyLength => "InvalidKeyLength"
  | keyStore => "KeyStoreError"
  | payloadTooShort => "PayloadTooShort"
  | decryptionFailed => "DecryptionFailed"
  | encryptionFailed => "EncryptionFailed"

def ofName? (name : String) : Option FailureClass :=
  all.find? fun c => c.name = name

def kind : FailureClass → FailureKind
  | crypto | configuration | invalidKeyLength => .configuration
  | keyStore => .keyStore
  | payloadTooShort => .payloadTooShort
  | decryptionFailed => .decryptionFailed
  | encryptionFailed => .encryptionFailed

/-- The classes above a class, nearest first. -/
def ancestors : FailureClass → List String
  | crypto => ["Exception"]
  | invalidKeyLength => [configuration.name, crypto.name, "Exception"]
  | payloadTooShort => [crypto.name, "ValueError", "Exception"]
  | _ => [crypto.name, "Exception"]

def lineage (c : FailureClass) : List String :=
  c.name :: c.ancestors

end FailureClass

/-- How a fault from outside the library is treated by those who catch faults. -/
inductive FaultNature
  | wrongType
  | wrongValue
  | overflow
  | badTag
  /-- One of the classes above, raised with a message by something that is not the library. -/
  | own (cls : FailureClass) (message : String)
  | foreign
deriving DecidableEq

/-- What is too short is a wrong value as well. -/
def FaultNature.isWrongValue : FaultNature → Bool
  | wrongValue | own .payloadTooShort _ => true
  | _ => false

/-- A fault raised by the cipher primitive or by an injected failure, under its own name. -/
structure Fault where
  nature : FaultNature
  name : String
deriving DecidableEq

inductive Failure
  /-- A text key that is not Base64; `ascii` tells whether it was at least plain ASCII. -/
  | undecodableKey (ascii : Bool)
  | keyLength (length : Nat)
  | keyStore (path : String) (error : SystemError)
  | tooShort (length : Nat)
  | decryption
  | encryption (fault : Fault)
  /-- Raised by a caller with a message of its choice and further details. -/
  | raised (cls : FailureClass) (message : Value) (details : List Value)

namespace Failure

def cls : Failure → FailureClass
  | undecodableKey _ | keyLength _ => .invalidKeyLength
  | keyStore _ _ => .keyStore
  | tooShort _ => .payloadTooShort
  | decryption => .decryptionFailed
  | encryption _ => .encryptionFailed
  | raised c _ _ => c

def kind (f : Failure) : FailureKind :=
  f.cls.kind

/-- The octets of an envelope that are not payload. -/
def envelopeOverhead : Nat := 28

def arguments : Failure → List Value
  | undecodableKey _ =>
    [.text "Secret must be 32 bytes (AES-256 key), got an undecodable Base64 string"]
  | keyLength n => [.text s!"Secret must be 32 bytes (AES-256 key), got {n}"]
  | keyStore path error => [.text s!"Secret file {path} is not usable: {error.text}"]
  | tooShort n =>
    [.text s!"Encrypted payload too short: {n} bytes (minimum {envelopeOverhead})"]
  | decryption => [.text FailureKind.decryptionFailed.sentence]
  | encryption _ => [.text FailureKind.encryptionFailed.sentence]
  | raised _ message details => message :: details

def message (f : Failure) : String :=
  match f.arguments with
  | [] => ""
  | v :: _ => v.display

/-- The failure on one line: its message, or all its arguments when it has several. -/
def text (f : Failure) : String :=
  match f.arguments with
  | [v] => v.display
  | vs => Value.quotedTuple vs

/-- A blank or missing message gives way to the sentence of the kind. -/
def raise (c : FailureClass) : List Value → Failure
  | [] => raised c (.text c.kind.sentence) []
  | v :: vs => raised c (if v.isBlank then .text c.kind.sentence else v) vs

end Failure

end Strongbox
