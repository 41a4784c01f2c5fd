import Strongbox.Aes.Cipher
import Strongbox.Gcm.Mode

/-!
Byte envelopes: a twelve-octet initialisation vector, the ciphertext, and a sixteen-octet tag.
-/

namespace Strongbox.Envelope

def ivSize : Nat := 12

/-- The block permutation of AES-256 under a key. -/
def permute (k : Key) : Gcm.Block → Gcm.Block :=
  let keys := Aes.schedule k
  fun x => .ofBytes (Aes.encrypt keys (.ofBytes x.toBytes)).toBytes

def close (k : Key) (iv plaintext : Bytes) : Bytes :=
  iv ++ Gcm.encrypt (permute k) iv plaintext

def open? (k : Key) (envelope : Bytes) : Option Bytes :=
  Gcm.decrypt? (permute k) (envelope.take ivSize) (envelope.drop ivSize)

end Strongbox.Envelope
