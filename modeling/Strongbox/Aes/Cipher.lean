import Strongbox.Key
import Strongbox.Aes.State

/-!
AES with a 256-bit key: fifteen round keys grown from the secret key, and fourteen rounds.
-/

namespace Strongbox.Aes

/-- Two round keys at a time: eight columns of the expanded key. -/
structure KeyPair where
  first : State
  second : State

namespace KeyPair

/-- The next eight columns. Each is its place's predecessor combined with the column just before
it, which is substituted at the middle and substituted, rotated and marked at the start. -/
def next (mark : UInt8) (k : KeyPair) : KeyPair :=
  let a0 := k.first.c0 ^^^ k.second.c3.rotate.sub ^^^ ⟨mark, 0, 0, 0⟩
  let a1 := k.first.c1 ^^^ a0
  let a2 := k.first.c2 ^^^ a1
  let a3 := k.first.c3 ^^^ a2
  let b0 := k.second.c0 ^^^ a3.sub
  let b1 := k.second.c1 ^^^ b0
  let b2 := k.second.c2 ^^^ b1
  let b3 := k.second.c3 ^^^ b2
  ⟨⟨a0, a1, a2, a3⟩, ⟨b0, b1, b2, b3⟩⟩

/-- The round keys, one pair for each mark and a single one at the end. -/
def expand : List UInt8 → KeyPair → List State
  | [], k => [k.first]
  | mark :: marks, k => k.first :: k.second :: expand marks (k.next mark)

end KeyPair

def marks : List UInt8 := [1, 2, 4, 8, 16, 32, 64]

/-- Sixteen octets fill the state column by column. -/
def State.ofBytes (bs : Bytes) : State :=
  let at_ (i : Nat) : UInt8 := bs.getD i 0
  let column (i : Nat) : Column := ⟨at_ i, at_ (i + 1), at_ (i + 2), at_ (i + 3)⟩
  ⟨column 0, column 4, column 8, column 12⟩

def Column.toBytes (c : Column) : Bytes :=
  [c.b0, c.b1, c.b2, c.b3]

def State.toBytes (s : State) : Bytes :=
  s.c0.toBytes ++ s.c1.toBytes ++ s.c2.toBytes ++ s.c3.toBytes

def schedule (k : Key) : List State :=
  KeyPair.expand marks ⟨.ofBytes (k.bytes.take 16), .ofBytes (k.bytes.drop 16)⟩

def middleRound (k s : State) : State :=
  s.sub.shiftRows.mix ^^^ k

/-- The last round does not mix columns. -/
def lastRound (k s : State) : State :=
  s.sub.shiftRows ^^^ k

def rounds : List State → State → State
  | [], s => s
  | [k], s => lastRound k s
  | k :: ks, s => rounds ks (middleRound k s)

def encrypt : List State → State → State
  | [], s => s
  | k :: ks, s => rounds ks (s ^^^ k)

end Strongbox.Aes
