import Strongbox.Abort

/-!
Raw data made from a value that is not text: byte strings as they are, a count as that many
zeros, and a list of small numbers as those octets. Of a dictionary, the keys are such a list.
-/

namespace Strongbox

/-- A run of zeros is kept as its length until its octets are needed. -/
inductive Octets
  | given (bs : Bytes)
  | zeros (count : Nat)

namespace Octets

def length : Octets → Nat
  | given bs => bs.length
  | zeros n => n

def toBytes : Octets → Bytes
  | given bs => bs
  | zeros n => List.replicate n 0

/-- The largest count that can be asked for at all, and the largest of which a run can be made. -/
def indexLimit : Int := twoTo 63

def sizeLimit : Int := indexLimit - 34

/-- Octets that a machine is not expected to have room for. -/
def memoryLimit : Int := twoTo 40

def ofCount (n : Int) : Except Misuse Octets :=
  if n < -indexLimit ∨ indexLimit ≤ n then .error .sizeTooLarge
  else if n < 0 then .error .negativeSize
  else if sizeLimit < n then .error .sizeTooLarge
  else if memoryLimit ≤ n then .error .outOfMemory
  else .ok (.zeros n.toNat)

/-- The first item that is no octet decides how the list is refused. -/
def ofItems : List Value → Except Misuse Bytes
  | [] => .ok []
  | v :: vs =>
    match v.toInt? with
    | none => .error .notOctets
    | some n =>
      if 0 ≤ n ∧ n < 256 then (ofItems vs).map (UInt8.ofNat n.toNat :: ·)
      else .error .octetOutOfRange

def ofValue : Value → Except Misuse Octets
  | .bytes _ bs => .ok (.given bs)
  | .list items => (ofItems items).map .given
  | .dict entries => (ofItems (entries.map fun e => e.1.value)).map .given
  | v =>
    match v.toInt? with
    | some n => ofCount n
    | none => .error .notOctets

end Octets

end Strongbox
