import Strongbox.Text.Base64

/-!
Secret keys: exactly thirty-two octets.
-/

namespace Strongbox

structure Key where
  bytes : Bytes
  length_eq : bytes.length = 32
deriving DecidableEq

namespace Key

def size : Nat := 32

def ofBytes? (bs : Bytes) : Option Key :=
  if h : bs.length = 32 then some ⟨bs, h⟩ else none

/-- The key as it is exported and imported in text. -/
def encoded (k : Key) : String :=
  Base64.encode k.bytes

end Key

end Strongbox
