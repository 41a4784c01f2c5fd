/-!
Byte strings: lists of octets, with the big-endian form of a number and the cutting of a string
into pieces of one size.
-/

namespace Strongbox

abbrev Bytes := List UInt8

namespace Bytes

/-- The last `size` octets of `n`, most significant first. -/
def bigEndian : Nat → Nat → Bytes
  | 0, _ => []
  | size + 1, n => bigEndian size (n / 256) ++ [UInt8.ofNat n]

theorem length_bigEndian (size n : Nat) : (bigEndian size n).length = size := by
  induction size generalizing n with
  | zero => rfl
  | succ size ih => simp [bigEndian, ih]

/-- Consecutive pieces of `size + 1` octets; only the last may be shorter, and none is empty. -/
def pieces (size : Nat) : Bytes → List Bytes
  | [] => []
  | b :: bs => (b :: bs.take size) :: pieces size (bs.drop size)
termination_by bs => bs.length

/-- The octetwise exclusive or, as long as the shorter operand. -/
def xor (a b : Bytes) : Bytes :=
  a.zipWith (· ^^^ ·) b

theorem length_xor (a b : Bytes) : (xor a b).length = min a.length b.length := by
  simp [xor]

end Bytes

end Strongbox
