import Strongbox.Aes.SBox

/-!
The four-by-four byte state of AES, held by columns, and the four layers of a round.
-/

namespace Strongbox.Aes

structure Column where
  b0 : UInt8
  b1 : UInt8
  b2 : UInt8
  b3 : UInt8
deriving DecidableEq

namespace Column

instance : XorOp Column where
  xor s t := ⟨s.b0 ^^^ t.b0, s.b1 ^^^ t.b1, s.b2 ^^^ t.b2, s.b3 ^^^ t.b3⟩

def sub (c : Column) : Column :=
  ⟨subByte c.b0, subByte c.b1, subByte c.b2, subByte c.b3⟩

/-- The bytes move up by one place, the first to the end. -/
def rotate (c : Column) : Column :=
  ⟨c.b1, c.b2, c.b3, c.b0⟩

/-- A byte as a polynomial over two elements, multiplied by the indeterminate. -/
def double (b : UInt8) : UInt8 :=
  if b < 128 then b <<< 1 else (b <<< 1) ^^^ 0x1b

/-- One output byte of the column mixing: twice the first, three times the second, and the rest. -/
def blend (a b c d : UInt8) : UInt8 :=
  double a ^^^ (double b ^^^ b) ^^^ c ^^^ d

def mix (c : Column) : Column :=
  ⟨blend c.b0 c.b1 c.b2 c.b3, blend c.b1 c.b2 c.b3 c.b0,
    blend c.b2 c.b3 c.b0 c.b1, blend c.b3 c.b0 c.b1 c.b2⟩

end Column

structure State where
  c0 : Column
  c1 : Column
  c2 : Column
  c3 : Column
deriving DecidableEq

namespace State

instance : XorOp State where
  xor s t := ⟨s.c0 ^^^ t.c0, s.c1 ^^^ t.c1, s.c2 ^^^ t.c2, s.c3 ^^^ t.c3⟩

def sub (s : State) : State :=
  ⟨s.c0.sub, s.c1.sub, s.c2.sub, s.c3.sub⟩

/-- Row `r` moves left by `r` columns. -/
def shiftRows (s : State) : State :=
  ⟨⟨s.c0.b0, s.c1.b1, s.c2.b2, s.c3.b3⟩, ⟨s.c1.b0, s.c2.b1, s.c3.b2, s.c0.b3⟩,
    ⟨s.c2.b0, s.c3.b1, s.c0.b2, s.c1.b3⟩, ⟨s.c3.b0, s.c0.b1, s.c1.b2, s.c2.b3⟩⟩

def mix (s : State) : State :=
  ⟨s.c0.mix, s.c1.mix, s.c2.mix, s.c3.mix⟩

end State

end Strongbox.Aes
