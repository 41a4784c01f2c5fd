import Strongbox.Bytes

/-!
A random source as an endless stream of octets that is read once from front to back. Main
statement: consecutive draws are consecutive segments of the stream.
-/

namespace Strongbox

/-- The stream and the sizes of the draws made so far, the latest first. -/
structure Entropy where
  stream : Nat → UInt8
  draws : List Nat

namespace Entropy

/-- The octets given, then zeros for ever. -/
def ofBytes (bs : Bytes) : Entropy :=
  ⟨fun i => bs.getD i 0, []⟩

def position (e : Entropy) : Nat :=
  e.draws.foldr (· + ·) 0

def segment (e : Entropy) (start size : Nat) : Bytes :=
  (List.range size).map fun i => e.stream (start + i)

def draw (e : Entropy) (size : Nat) : Bytes × Entropy :=
  (e.segment e.position size, { e with draws := size :: e.draws })

theorem position_draw (e : Entropy) (size : Nat) :
    (e.draw size).2.position = e.position + size := by
  simp [draw, position, Nat.add_comm]

theorem length_draw (e : Entropy) (size : Nat) : (e.draw size).1.length = size := by
  simp [draw, segment]

end Entropy

end Strongbox
