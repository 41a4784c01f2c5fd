import Strongbox.Number.Power

/-!
Numbers of the IEEE binary64 format by their bits. `ofRatio` rounds a quotient to the nearest
number, ties to even; `shortest` finds the fewest decimal digits that round back to a number.
All of it is exact arithmetic on natural numbers.
-/

namespace Strongbox

structure Binary64 where
  bits : UInt64
deriving DecidableEq

namespace Binary64

/-- What the bits stand for; a finite number is `mantissa · 2 ^ exponent`, with a sign. -/
inductive Shape
  | nan
  | infinite (negative : Bool)
  | finite (negative : Bool) (mantissa : Nat) (exponent : Int)
deriving DecidableEq

/-- The exponent of the smallest numbers. -/
def minExponent : Int := -1074

def shape (x : Binary64) : Shape :=
  let n := x.bits.toNat
  let negative : Bool := twoTo 63 ≤ n
  let biased : Nat := n / twoTo 52 % twoTo 11
  let fraction : Nat := n % twoTo 52
  if biased = 2047 then
    if fraction = 0 then .infinite negative else .nan
  else if biased = 0 then .finite negative fraction minExponent
  else .finite negative (twoTo 52 + fraction) ((biased : Int) + (minExponent - 1))

def isFinite (x : Binary64) : Bool :=
  match x.shape with
  | .finite .. => true
  | _ => false

def isZero (x : Binary64) : Bool :=
  match x.shape with
  | .finite _ m _ => m = 0
  | _ => false

/-- The number as an integer, if it is one. -/
def toInt? (x : Binary64) : Option Int :=
  match x.shape with
  | .finite negative m e =>
    let signed : Int := if negative then -m else m
    if 0 ≤ e then some (signed * twoTo e.toNat)
    else if m % twoTo (-e).toNat = 0 then some (signed / twoTo (-e).toNat)
    else none
  | _ => none

/-- Equality of the numbers: the two zeros agree, and NaN differs from everything. -/
def sameNumber (x y : Binary64) : Bool :=
  match x.shape, y.shape with
  | .nan, _ => false
  | _, .nan => false
  | .finite _ 0 _, .finite _ 0 _ => true
  | s, t => s = t

/-- The quotient rounded to the nearest integer, a half to the even neighbour. -/
def roundDiv (num den : Nat) : Nat :=
  let q := num / den
  let twice := 2 * (num % den)
  if twice < den then q
  else if den < twice then q + 1
  else if q % 2 = 0 then q else q + 1

/-- `num / den` in units of `2 ^ e`, as a fraction again. -/
def scale (num den : Nat) (e : Int) : Nat × Nat :=
  if 0 ≤ e then (num, den * twoTo e.toNat) else (num * twoTo (-e).toNat, den)

/-- The largest `e` with `2 ^ e ≤ num / den`, for a positive fraction. -/
def log2 (num den : Nat) : Int :=
  let e : Int := Nat.log2 num - Nat.log2 den
  let (n, d) := scale num den e
  if d ≤ n then e else e - 1

/-- The nearest number, which may be infinite; mantissa and exponent run together in the bits, so
that rounding up past a power of two carries into the exponent. -/
def ofRatio (negative : Bool) (num den : Nat) : Binary64 :=
  let magnitude :=
    if num = 0 then 0
    else
      let e := max minExponent (log2 num den - 52)
      let (n, d) := scale num den e
      min ((e - minExponent).toNat * twoTo 52 + roundDiv n d) (2047 * twoTo 52)
  ⟨UInt64.ofNat (magnitude + if negative then twoTo 63 else 0)⟩

/-- The nearest number to `digits · 10 ^ exponent`. Far outside the range of the format the powers
of ten are not formed. -/
def ofDecimal (negative : Bool) (digits : Nat) (exponent : Int) : Binary64 :=
  let size : Int := (Nat.toDigits 10 digits).length + exponent
  if digits = 0 ∨ size < -400 then ofRatio negative 0 1
  else if 400 < size then ofRatio negative (twoTo 1024) 1
  else if 0 ≤ exponent then ofRatio negative (digits * tenTo exponent.toNat) 1
  else ofRatio negative digits (tenTo (-exponent).toNat)

/-- The largest `k` with `10 ^ k ≤ num / den`, for a positive fraction in the range of the
format. -/
def log10 (num den : Nat) : Int :=
  if den ≤ num then (Nat.toDigits 10 (num / den)).length - 1
  else match (List.range 400).find? fun t => den ≤ num * tenTo t with
    | some t => -t
    | none => -400

/-- A positive number with the interval of reals that round to it, over one denominator. -/
structure Neighbourhood where
  low : Nat
  mid : Nat
  high : Nat
  den : Nat
  closed : Bool

/-- Half way to the number below and to the number above; below a power of two the gap is half
as wide. The ends belong to the interval when the mantissa is even. -/
def neighbourhood (m : Nat) (e : Int) : Neighbourhood :=
  let narrow := m = twoTo 52 ∧ minExponent < e
  let up := (4 * m + 2) * twoTo (e - 2).toNat
  let down := (if narrow then 4 * m - 1 else 4 * m - 2) * twoTo (e - 2).toNat
  ⟨down, 4 * m * twoTo (e - 2).toNat, up, twoTo (2 - e).toNat, m % 2 = 0⟩

/-- `d · 10 ^ k` rounds to the number. -/
def Neighbourhood.holds (r : Neighbourhood) (d : Nat) (k : Int) : Bool :=
  let n := d * tenTo k.toNat * r.den
  let unit := tenTo (-k).toNat
  if r.closed then r.low * unit ≤ n && n ≤ r.high * unit
  else r.low * unit < n && n < r.high * unit

/-- Of the two multiples of `10 ^ k` around the number, the nearest that rounds to it; of two
equally near the even one. -/
def Neighbourhood.onGrid (r : Neighbourhood) (k : Int) : Option Nat :=
  let num := r.mid * tenTo (-k).toNat
  let den := r.den * tenTo k.toNat
  let d := num / den
  let near := roundDiv num den
  let far := if near = d then d + 1 else d
  if near ≠ 0 ∧ r.holds near k then some near
  else if far ≠ 0 ∧ r.holds far k then some far
  else none

/-- The digits and the power of ten of the last one: the coarsest decimal grid that has a multiple
rounding to the number. -/
def shortest (m : Nat) (e : Int) : Nat × Int :=
  let r := neighbourhood m e
  let top := log10 r.mid r.den
  let grids := (List.range 17).map fun (i : Nat) => top - i
  let hit := grids.findSome? fun k => (r.onGrid k).map fun d => (d, k)
  hit.getD (r.mid / r.den, 0)

/-- How a finite number is laid out: positional while its leading digit stands between the two
given powers of ten, and with an exponent of at least two digits otherwise. -/
structure Layout where
  lowest : Int
  highest : Int

/-- Positional from `0.0001` to below `10 ^ 16`. -/
def layout : Layout := ⟨-4, 15⟩

def exponentText (k : Int) : String :=
  let digits := toString k.natAbs
  (if k < 0 then "e-" else "e+") ++ (if k.natAbs < 10 then "0" else "") ++ digits

/-- A point goes after the first `n` digits. -/
def pointed (digits : List Char) (n : Nat) : String :=
  String.ofList (digits.take n) ++ "." ++ String.ofList (digits.drop n)

def Layout.write (l : Layout) (digits : List Char) (leading : Int) : String :=
  if l.lowest ≤ leading ∧ leading ≤ l.highest then
    if leading < 0 then
      "0." ++ String.ofList (List.replicate (-leading - 1).toNat '0' ++ digits)
    else
      let whole := leading.toNat + 1
      if digits.length ≤ whole then
        String.ofList (digits ++ List.replicate (whole - digits.length) '0') ++ ".0"
      else pointed digits whole
  else
    (if digits.length = 1 then String.ofList digits else pointed digits 1) ++ exponentText leading

/-- The digits without the zeros at their end. -/
def trimZeros (digits : List Char) : List Char :=
  (digits.reverse.dropWhile (· == '0')).reverse

def text (x : Binary64) : String :=
  match x.shape with
  | .nan => "nan"
  | .infinite negative => if negative then "-inf" else "inf"
  | .finite negative m e =>
    let sign := if negative then "-" else ""
    if m = 0 then sign ++ "0.0"
    else
      let (d, k) := shortest m e
      let digits := Nat.toDigits 10 d
      sign ++ layout.write (trimZeros digits) (k + digits.length - 1)

end Binary64

end Strongbox
