import Strongbox.Number.Power
import Strongbox.Password.Choice

/-!
The Mersenne twister MT19937: seeded with a number of any size, it yields 32-bit words.
-/

namespace Strongbox

structure Twister where
  words : Vector UInt32 624
  index : Nat

namespace Twister

/-- The word at a place, counted round. -/
def word (words : Vector UInt32 624) (i : Nat) : UInt32 :=
  words.get (Fin.ofNat 624 i)

def setWord (words : Vector UInt32 624) (i : Nat) (w : UInt32) : Vector UInt32 624 :=
  let i := Fin.ofNat 624 i
  words.set i.val w

/-- The bits of a word, and those of its upper end folded into them. -/
def fold (w : UInt32) : UInt32 :=
  w ^^^ (w >>> 30)

/-- The state grown from a single word. -/
def ofWord (seed : UInt32) : Vector UInt32 624 :=
  (List.range 623).foldl
    (fun words i => setWord words (i + 1) (1812433253 * fold (word words i) + UInt32.ofNat (i + 1)))
    (setWord (Vector.replicate 624 0) 0 seed)

/-- The values that a word can have. -/
def base : Nat := 0x100000000

/-- The 32-bit words of a number, least significant first; zero has one. -/
def digits (n : Nat) : List UInt32 :=
  if n < base then [UInt32.ofNat n] else UInt32.ofNat n :: digits (n / base)
termination_by n
decreasing_by
  have : 0 < base := by decide
  exact Nat.div_lt_self (by omega) (by decide)

/-- The place after one, from 1 to 623; going round, the last word is copied to the front. -/
def following (words : Vector UInt32 624) (i : Nat) : Vector UInt32 624 × Nat :=
  if i < 623 then (words, i + 1) else (setWord words 0 (word words 623), 1)

/-- Stirs the words of a key into the state, going round both as often as the longer needs. -/
def stirKey (key : List UInt32) (words : Vector UInt32 624) : Vector UInt32 624 × Nat :=
  (List.range (max 624 key.length)).foldl
    (fun (words, i) step =>
      let j := step % key.length
      let w := (word words i ^^^ (fold (word words (i - 1)) * 1664525)) + key.getD j 0 + UInt32.ofNat j
      following (setWord words i w) i)
    (words, 1)

/-- Stirs the state once more, each word less its place. -/
def stirPlaces (words : Vector UInt32 624) (start : Nat) : Vector UInt32 624 × Nat :=
  (List.range 623).foldl
    (fun (words, i) _ =>
      let w := (word words i ^^^ (fold (word words (i - 1)) * 1566083941)) - UInt32.ofNat i
      following (setWord words i w) i)
    (words, start)

/-- Seeded with the absolute value of a number. -/
def ofSeed (seed : Int) : Twister :=
  let (words, i) := stirKey (digits seed.natAbs) (ofWord 19650218)
  let (words, _) := stirPlaces words i
  { words := setWord words 0 0x80000000, index := 624 }

/-- The recurrence: the top bit of one word and the low bits of the next, twisted, over the word
397 places on. -/
def twist (words : Vector UInt32 624) (i : Nat) : Vector UInt32 624 :=
  let y := (word words i &&& 0x80000000) ||| (word words (i + 1) &&& 0x7fffffff)
  let mask : UInt32 := if y &&& 1 = 0 then 0 else 0x9908b0df
  setWord words i (word words (i + 397) ^^^ (y >>> 1) ^^^ mask)

def regenerate (words : Vector UInt32 624) : Vector UInt32 624 :=
  (List.range 624).foldl twist words

def temper (y : UInt32) : UInt32 :=
  let y := y ^^^ (y >>> 11)
  let y := y ^^^ ((y <<< 7) &&& 0x9d2c5680)
  let y := y ^^^ ((y <<< 15) &&& 0xefc60000)
  y ^^^ (y >>> 18)

def next (t : Twister) : UInt32 × Twister :=
  if t.index < 624 then (temper (word t.words t.index), { t with index := t.index + 1 })
  else
    let words := regenerate t.words
    (temper (word words 0), { words, index := 1 })

/-- The leading bits of the next word. -/
def bits (count : Nat) (t : Twister) : Nat × Twister :=
  let (w, t) := t.next
  (w.toNat / twoTo (32 - count), t)

/-- The number of binary digits. -/
def bitLength (n : Nat) : Nat :=
  if n = 0 then 0 else Nat.log2 n + 1

/-- Draws until a number below the bound comes up. A draw misses with a chance of at most a half;
after a long run of misses the draw is reduced. -/
def below (bound : Nat) (h : 0 < bound) : Nat → Twister → Fin bound × Twister
  | 0, t =>
    let (r, t) := t.bits (bitLength bound)
    (⟨r % bound, Nat.mod_lt r h⟩, t)
  | tries + 1, t =>
    let (r, t) := t.bits (bitLength bound)
    if hr : r < bound then (⟨r, hr⟩, t) else below bound h tries t

/-- The misses after which a draw is reduced. -/
def patience : Nat := 100000

instance : ChoiceSource Twister where
  choose bound h t := t.below bound h patience

end Twister

end Strongbox
