import Strongbox.Gcm.Field

/-!
Galois counter mode over a permutation of blocks, with a 96-bit initialisation vector, no
additional data and a 128-bit tag.
-/

namespace Strongbox.Gcm

/-- The block that is encrypted for counter value `n`; values are taken modulo 2³². -/
def counterBlock (iv : Bytes) (n : Nat) : Block :=
  .ofBytes (iv ++ Bytes.bigEndian 4 n)

/-- The data under the key stream; the first piece uses counter value 2. Applied twice it gives
the data back. -/
def stream (permute : Block → Block) (iv data : Bytes) : Bytes :=
  (Bytes.pieces 15 data).zipIdx.flatMap fun (piece, i) =>
    Bytes.xor piece (permute (counterBlock iv (i + 2))).toBytes

/-- What is hashed: the ciphertext in blocks, the last filled up with zeros, then its length in
bits. -/
def hashed (ciphertext : Bytes) : List Block :=
  (Bytes.pieces 15 ciphertext).map Block.ofBytes ++ [BitVec.ofNat 128 (8 * ciphertext.length)]

def tag (permute : Block → Block) (iv ciphertext : Bytes) : Block :=
  hash (permute 0) (hashed ciphertext) ^^^ permute (counterBlock iv 1)

/-- The ciphertext followed by its tag. -/
def encrypt (permute : Block → Block) (iv plaintext : Bytes) : Bytes :=
  let ciphertext := stream permute iv plaintext
  ciphertext ++ (tag permute iv ciphertext).toBytes

/-- The plaintext, if the last sixteen octets are the tag of those before them. -/
def decrypt? (permute : Block → Block) (iv sealedData : Bytes) : Option Bytes :=
  let ciphertext := sealedData.take (sealedData.length - 16)
  if (tag permute iv ciphertext).toBytes = sealedData.drop (sealedData.length - 16) then
    some (stream permute iv ciphertext)
  else none

end Strongbox.Gcm
