import Mathlib.Algebra.CharP.Two
import Mathlib.Algebra.Polynomial.SpecificDegree
import Mathlib.FieldTheory.Finite.Basic
import Mathlib.RingTheory.AdjoinRoot
import Mathlib.Tactic.ComputeDegree
import Strongbox.Gcm.Field

/-! # Blocks multiply as in a field

A block is a polynomial of degree below 128 over the field of two elements, and `times` multiplies
modulo `X¹²⁸ + X⁷ + X² + X + 1`. Both facts are stated at once by the value of a block at a root of
this modulus in any ring. The modulus is irreducible, so a product of blocks is zero only if one of
them is. -/

namespace Strongbox.Gcm.Block

open Finset Polynomial

/-! ## The value of a block at a root of the modulus -/

section Value

variable {K L : Type*} [CommRing K] [CommRing L]

/-- The value at `r` of the polynomial with these coefficients, that of the constant term first. -/
def horner (r : K) (bits : List Bool) : K :=
  bits.foldr (fun b acc => (if b then 1 else 0) + r * acc) 0

def value (r : K) (x : Block) : K :=
  horner r x.coefficients

theorem horner_map_range (r : K) (n : ℕ) (f : ℕ → Bool) :
    horner r ((List.range n).map f) = ∑ i ∈ range n, if f i then r ^ i else 0 := by
  induction n generalizing f with
  | zero => rfl
  | succ n ih =>
      have htail : horner r ((List.range n).map fun i => f (i + 1)) =
          ∑ i ∈ range n, if f (i + 1) then r ^ i else 0 := ih fun i => f (i + 1)
      rw [List.range_succ_eq_map, List.map_cons, List.map_map, horner, List.foldr_cons,
        sum_range_succ', add_comm, pow_zero]
      congr 1
      change r * horner r ((List.range n).map fun i => f (i + 1)) = _
      rw [htail, mul_sum]
      refine sum_congr rfl fun i _ => ?_
      rw [mul_ite, mul_zero, pow_succ']

theorem value_eq_sum (r : K) (x : Block) :
    value r x = ∑ i ∈ range 128, if x.getMsbD i then r ^ i else 0 :=
  horner_map_range r 128 x.getMsbD

theorem map_value (f : K →+* L) (r : K) (x : Block) : f (value r x) = value (f r) x := by
  simp only [value_eq_sum, map_sum]
  refine sum_congr rfl fun i _ => ?_
  split <;> simp

@[simp] theorem value_zero (r : K) : value r 0#128 = 0 := by
  simp [value_eq_sum]

/-- The bits move up by one place, and the one that falls out is `r ^ 128`. -/
theorem value_shiftRight (r : K) (x : Block) :
    value r (x >>> 1) + (if x.getLsbD 0 then r ^ 128 else 0) = r * value r x := by
  have hmoved : value r (x >>> 1) =
      ∑ i ∈ range 127, r * if x.getMsbD i then r ^ i else 0 := by
    have hfirst : (x >>> 1).getMsbD 0 = false := by simp
    rw [value_eq_sum, sum_range_succ', hfirst, if_neg Bool.false_ne_true, add_zero]
    refine sum_congr rfl fun i hi => ?_
    have hi' : i + 1 < 128 := Nat.succ_lt_succ (mem_range.mp hi)
    have hbit : (x >>> 1).getMsbD (i + 1) = x.getMsbD i := by simp [hi']
    rw [hbit, mul_ite, mul_zero, pow_succ']
  have hlast : (if x.getLsbD 0 then r ^ 128 else 0) = r * if x.getMsbD 127 then r ^ 127 else 0 := by
    have hbit : x.getMsbD 127 = x.getLsbD 0 := by simp [BitVec.getMsbD_eq_getLsbD]
    rw [hbit]
    split <;> ring
  rw [hmoved, hlast, value_eq_sum r x, sum_range_succ _ 127, mul_add, mul_sum]

theorem horner_replicate_false (r : K) (n : ℕ) : horner r (List.replicate n false) = 0 := by
  induction n with
  | zero => rfl
  | succ n ih =>
      rw [List.replicate_succ, horner, List.foldr_cons]
      change _ + r * horner r (List.replicate n false) = 0
      simp [ih]

theorem value_reduction (r : K) : value r reduction = r ^ 7 + (r ^ 2 + r + 1) := by
  have hbits : reduction.coefficients =
      [true, true, true, false, false, false, false, true] ++ List.replicate 120 false := by
    decide
  have hzero := horner_replicate_false r 120
  rw [horner] at hzero
  rw [value, hbits, horner, List.foldr_append, hzero]
  simp
  ring

variable [CharP K 2]

theorem value_xor (r : K) (x y : Block) : value r (x ^^^ y) = value r x + value r y := by
  simp only [value_eq_sum, ← sum_add_distrib, BitVec.getMsbD_xor]
  refine sum_congr rfl fun i _ => ?_
  cases x.getMsbD i <;> cases y.getMsbD i <;> simp [CharTwo.add_self_eq_zero]

theorem value_timesX {r : K} (hr : r ^ 128 = r ^ 7 + (r ^ 2 + r + 1)) (x : Block) :
    value r (timesX x) = r * value r x := by
  rw [← value_shiftRight, timesX]
  split
  · rw [value_xor, value_reduction, hr]
  · rw [add_zero]

/-- Horner's rule with blocks for coefficients is Horner's rule with their values. -/
theorem value_times {r : K} (hr : r ^ 128 = r ^ 7 + (r ^ 2 + r + 1)) (x y : Block) :
    value r (x.times y) = value r x * value r y := by
  have hfold : ∀ bits : List Bool,
      value r (bits.foldr (fun b acc => (if b then y else 0) ^^^ timesX acc) 0) =
        horner r bits * value r y := by
    intro bits
    induction bits with
    | nil => simp [horner]
    | cons b bits ih =>
        have hcons : horner r (b :: bits) = (if b then 1 else 0) + r * horner r bits := rfl
        rw [List.foldr_cons, value_xor, value_timesX hr, ih, hcons, add_mul, mul_assoc]
        cases b <;> simp
  exact hfold x.coefficients

end Value

/-! ## The modulus is irreducible -/

noncomputable def modulus : (ZMod 2)[X] :=
  X ^ 128 + (X ^ 7 + (X ^ 2 + X + 1))

theorem monic_modulus : modulus.Monic := by
  unfold modulus
  apply monic_X_pow_add
  compute_degree!

theorem natDegree_modulus : modulus.natDegree = 128 := by
  unfold modulus
  compute_degree!

theorem pow_of_aeval_modulus {K : Type*} [CommRing K] [Algebra (ZMod 2) K] [CharP K 2] {r : K}
    (h : aeval r modulus = 0) : r ^ 128 = r ^ 7 + (r ^ 2 + r + 1) := by
  unfold modulus at h
  rw [map_add, map_pow, aeval_X, CharTwo.add_eq_zero] at h
  rw [h]
  simp

attribute [irreducible] modulus

/-- The constant polynomial one. -/
def unit : Block := 0x80000000000000000000000000000000#128

/-- The polynomial `X`. -/
def indeterminate : Block := 0x40000000000000000000000000000000#128

/-- `X` squared so many times, and the product of its sums with `X` on the way. -/
def conjugates : ℕ → Block × Block
  | 0 => (indeterminate, unit)
  | d + 1 =>
    let (y, separator) := conjugates d
    let y' := y.times y
    (y', separator.times (y' ^^^ indeterminate))

/-- The product of the first sixty-four sums has an inverse, so none of them has a common divisor
with the modulus. -/
theorem conjugates_times_inverse :
    (conjugates 64).2.times 0x714e9588060e647080c73b0396efa357#128 = unit := by
  decide +kernel

section Root

variable {K : Type*} [CommRing K] {r : K}

theorem value_unit (r : K) : value r unit = 1 := by
  have hbits : unit.coefficients = true :: List.replicate 127 false := by decide
  have hzero := horner_replicate_false r 127
  rw [horner] at hzero
  rw [value, hbits, horner, List.foldr_cons, hzero]
  simp

theorem value_indeterminate (r : K) : value r indeterminate = r := by
  have hbits : indeterminate.coefficients = [false, true] ++ List.replicate 126 false := by decide
  have hzero := horner_replicate_false r 126
  rw [horner] at hzero
  rw [value, hbits, horner, List.foldr_append, hzero]
  simp

variable [CharP K 2]

theorem value_conjugates (hr : r ^ 128 = r ^ 7 + (r ^ 2 + r + 1)) (d : ℕ) :
    value r (conjugates d).1 = r ^ 2 ^ d := by
  induction d with
  | zero => simp [conjugates, value_indeterminate]
  | succ d ih =>
      rw [conjugates, value_times hr, ih, ← sq, ← pow_mul, ← pow_succ]

/-- A root that comes back after some squarings makes the product of the sums vanish. -/
theorem value_separator_eq_zero (hr : r ^ 128 = r ^ 7 + (r ^ 2 + r + 1)) {d e : ℕ} (hpos : 0 < e)
    (hle : e ≤ d) (hback : r ^ 2 ^ e = r) : value r (conjugates d).2 = 0 := by
  induction d with
  | zero => omega
  | succ d ih =>
      have hy : value r (conjugates (d + 1)).1 = r ^ 2 ^ (d + 1) := value_conjugates hr (d + 1)
      change value r ((conjugates d).2.times ((conjugates (d + 1)).1 ^^^ indeterminate)) = 0
      rw [value_times hr, value_xor, hy, value_indeterminate]
      rcases Nat.lt_or_eq_of_le hle with hlt | rfl
      · rw [ih (Nat.le_of_lt_succ hlt), zero_mul]
      · rw [hback, CharTwo.add_self_eq_zero, mul_zero]

end Root

/-- No field of at most 2⁶⁴ elements has a root of the modulus. -/
theorem aeval_modulus_ne_zero {K : Type*} [Field K] [Fintype K] [Algebra (ZMod 2) K] {d : ℕ}
    (hcard : Fintype.card K = 2 ^ d) (hpos : 0 < d) (hle : d ≤ 64) (r : K) :
    aeval r modulus ≠ 0 := by
  intro hroot
  have : CharP K 2 := charP_of_injective_algebraMap (algebraMap (ZMod 2) K).injective 2
  have hr := pow_of_aeval_modulus hroot
  have hback : r ^ 2 ^ d = r := by
    rw [← hcard, FiniteField.pow_card]
  have hone := congrArg (value r) conjugates_times_inverse
  rw [value_times hr, value_separator_eq_zero hr hpos hle hback, zero_mul, value_unit] at hone
  exact zero_ne_one hone

theorem irreducible_modulus : Irreducible modulus := by
  have hne : modulus ≠ 1 := by
    intro h
    have hdeg := natDegree_modulus
    rw [h, natDegree_one] at hdeg
    cases hdeg
  rw [monic_modulus.irreducible_iff_lt_natDegree_lt hne, natDegree_modulus]
  intro q hq hdeg hdvd
  obtain ⟨hpos, hle⟩ := mem_Ioc.mp hdeg
  -- A divisor of low degree has an irreducible factor, which makes a small field with a root.
  obtain ⟨f, hf, hfq⟩ := WfDvdMonoid.exists_irreducible_factor
    (fun hunit => hpos.ne' (natDegree_eq_zero_of_isUnit hunit)) hq.ne_zero
  have : Fact (Irreducible f) := ⟨hf⟩
  have hfinite : Module.Finite (ZMod 2) (AdjoinRoot f) := (AdjoinRoot.powerBasis hf.ne_zero).finite
  have : Finite (AdjoinRoot f) := Module.finite_of_finite (ZMod 2)
  have : Fintype (AdjoinRoot f) := Fintype.ofFinite _
  have hcard : Fintype.card (AdjoinRoot f) = 2 ^ f.natDegree := by
    rw [Module.card_eq_pow_finrank (K := ZMod 2), ZMod.card,
      (AdjoinRoot.powerBasis hf.ne_zero).finrank, AdjoinRoot.powerBasis_dim]
  have hle' : f.natDegree ≤ 64 := (natDegree_le_of_dvd hfq hq.ne_zero).trans hle
  refine aeval_modulus_ne_zero hcard hf.natDegree_pos hle' (AdjoinRoot.root f) ?_
  rw [AdjoinRoot.aeval_eq, AdjoinRoot.mk_eq_zero]
  exact hfq.trans hdvd

/-! ## Products of blocks -/

/-- The coefficients of a block can be read off its value at `X`. -/
theorem coeff_value (x : Block) (i : ℕ) :
    (value (X : (ZMod 2)[X]) x).coeff i = if x.getMsbD i then 1 else 0 := by
  rw [value_eq_sum, finsetSum_coeff]
  by_cases hi : i < 128
  · rw [sum_eq_single_of_mem i (mem_range.mpr hi)]
    · split <;> simp
    · intro j _ hj
      split <;> simp [coeff_X_pow, hj.symm]
  · rw [sum_eq_zero]
    · simp [BitVec.getMsbD_of_ge _ _ (Nat.not_lt.mp hi)]
    · intro j hj
      have hji : i ≠ j := by
        have := mem_range.mp hj
        omega
      split <;> simp [coeff_X_pow, hji]

theorem degree_value_lt (x : Block) : (value (X : (ZMod 2)[X]) x).degree < modulus.degree := by
  rw [degree_eq_natDegree monic_modulus.ne_zero, natDegree_modulus, degree_lt_iff_coeff_zero]
  intro i hi
  rw [coeff_value, BitVec.getMsbD_of_ge _ _ hi]
  rfl

theorem value_root_injective : Function.Injective (value (AdjoinRoot.root modulus)) := by
  have : Fact (Irreducible modulus) := ⟨irreducible_modulus⟩
  have : CharP (AdjoinRoot modulus) 2 :=
    charP_of_injective_algebraMap (algebraMap (ZMod 2) (AdjoinRoot modulus)).injective 2
  intro x y h
  have hzero : value (AdjoinRoot.root modulus) (x ^^^ y) = 0 := by
    rw [value_xor, h, CharTwo.add_self_eq_zero]
  rw [← AdjoinRoot.mk_X, ← map_value, AdjoinRoot.mk_eq_zero] at hzero
  have hpoly := eq_zero_of_dvd_of_degree_lt hzero (degree_value_lt (x ^^^ y))
  apply BitVec.xor_eq_zero_iff.mp
  apply BitVec.eq_of_getMsbD_eq
  intro i _
  have hcoeff := coeff_value (x ^^^ y) i
  rw [hpoly, coeff_zero] at hcoeff
  simpa using hcoeff

/-- A factor other than zero can be cancelled. -/
theorem times_injective {h : Block} (hne : h ≠ 0) : Function.Injective fun x => times x h := by
  have : Fact (Irreducible modulus) := ⟨irreducible_modulus⟩
  have : CharP (AdjoinRoot modulus) 2 :=
    charP_of_injective_algebraMap (algebraMap (ZMod 2) (AdjoinRoot modulus)).injective 2
  have hr := pow_of_aeval_modulus ((AdjoinRoot.aeval_eq modulus).trans AdjoinRoot.mk_self)
  have hvalue : value (AdjoinRoot.root modulus) h ≠ 0 := by
    rw [← value_zero (AdjoinRoot.root modulus)]
    exact value_root_injective.ne hne
  intro x y hxy
  apply value_root_injective
  apply mul_right_cancel₀ hvalue
  rw [← value_times hr, ← value_times hr]
  exact congrArg _ hxy

end Strongbox.Gcm.Block
