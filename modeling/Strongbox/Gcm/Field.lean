import Strongbox.Bytes

/-!
The field of 2¹²⁸ elements behind GCM's hash. The leftmost bit of a block is the coefficient of
the constant term.
-/

namespace Strongbox.Gcm

abbrev Block := BitVec 128

namespace Block

/-- Up to sixteen octets as a block, filled up with zeros on the right. -/
def ofBytes (bs : Bytes) : Block :=
  let padded := bs ++ List.replicate (16 - bs.length) 0
  padded.foldl (fun acc b => acc <<< 8 ||| b.toBitVec.setWidth 128) 0

def toBytes (x : Block) : Bytes :=
  (List.range 16).map fun i => UInt8.ofBitVec (x.extractLsb' (8 * (15 - i)) 8)

theorem length_toBytes (x : Block) : x.toBytes.length = 16 := by
  simp [toBytes]

/-- `1 + X + X² + X⁷`, which `X¹²⁸` equals in the field. -/
def reduction : Block := 0xe1000000000000000000000000000000#128

/-- Multiplication by the indeterminate. -/
def timesX (x : Block) : Block :=
  if x.getLsbD 0 then (x >>> 1) ^^^ reduction else x >>> 1

/-- The coefficients, that of the constant term first. -/
def coefficients (x : Block) : List Bool :=
  (List.range 128).map x.getMsbD

/-- The product, by Horner's rule on the first factor. -/
def times (x y : Block) : Block :=
  x.coefficients.foldr (fun b acc => (if b then y else 0) ^^^ timesX acc) 0

end Block

/-- The hash of a sequence of blocks under the subkey `h`: its value as a polynomial at `h`. -/
def hash (h : Block) (blocks : List Block) : Block :=
  blocks.foldl (fun acc x => (acc ^^^ x).times h) 0

end Strongbox.Gcm
