import Mathlib.Data.List.Basic
import Mathlib.Data.List.TakeWhile
import Strongbox.Proofs.Files.Parents
import Strongbox.Proofs.Numerals
import Strongbox.Settings

/-! # Settings read back from their text

A path, a length and a level are read back from the text they are printed as. For a length this
takes that it has no more digits than are read, and a length that has been read has no more. -/

namespace Strongbox

namespace Text

variable {ds : List Nat}

theorem foldl_digits_lt (h : ∀ d ∈ ds, d < 10) (a : Nat) :
    ds.foldl (fun n d => 10 * n + d) a < (a + 1) * 10 ^ ds.length := by
  induction ds generalizing a with
  | nil => simp
  | cons d ds ih =>
      have hd : d < 10 := h d List.mem_cons_self
      have htail := ih (fun e he => h e (List.mem_cons_of_mem _ he)) (10 * a + d)
      have hstep : (10 * a + d + 1) * 10 ^ ds.length ≤ 10 * (a + 1) * 10 ^ ds.length :=
        Nat.mul_le_mul_right _ (by omega)
      rw [List.foldl_cons, List.length_cons, Nat.pow_succ]
      calc
        _ < (10 * a + d + 1) * 10 ^ ds.length := htail
        _ ≤ 10 * (a + 1) * 10 ^ ds.length := hstep
        _ = (a + 1) * (10 ^ ds.length * 10) := by
          rw [Nat.mul_comm 10, Nat.mul_assoc, Nat.mul_comm 10]

theorem numberOf_lt (h : ∀ d ∈ ds, d < 10) : numberOf ds < 10 ^ ds.length := by
  have hfold := foldl_digits_lt h 0
  rwa [Nat.zero_add, Nat.one_mul] at hfold

theorem lt_of_groupedDigits? {value? : Char → Option Nat}
    (hvalue : ∀ c d, value? c = some d → d < 10) {cs : List Char}
    (h : groupedDigits? value? cs = some ds) : ∀ d ∈ ds, d < 10 := by
  fun_induction groupedDigits? value? cs generalizing ds with
  | case1 => cases h
  | case2 c =>
      obtain ⟨d, hd, rfl⟩ := Option.map_eq_some_iff.mp h
      simpa using hvalue c d hd
  | case3 c rest ih =>
      obtain ⟨d, hd, h⟩ := Option.bind_eq_some_iff.mp h
      obtain ⟨ds', hds', h⟩ := Option.bind_eq_some_iff.mp h
      obtain rfl := Option.some.inj h
      exact List.forall_mem_cons.mpr ⟨hvalue c d hd, ih hds'⟩
  | case4 c rest _ _ ih =>
      obtain ⟨d, hd, h⟩ := Option.bind_eq_some_iff.mp h
      obtain ⟨ds', hds', h⟩ := Option.bind_eq_some_iff.mp h
      obtain rfl := Option.some.inj h
      exact List.forall_mem_cons.mpr ⟨hvalue c d hd, ih hds'⟩

theorem natAbs_signed (negative : Bool) (n : Nat) : (signed negative n).natAbs = n := by
  cases negative <;> simp [signed]

/-- No zero opens a numeral but the one of zero itself. -/
theorem head?_toDigits_ne {n : Nat} (hn : n ≠ 0) : (Nat.toDigits 10 n).head? ≠ some '0' := by
  induction n using Nat.strongRecOn with
  | ind n ih =>
      by_cases hlt : n < 10
      · have hdigit : ∀ n < 10, n ≠ 0 → n.digitChar ≠ '0' := by decide
        rw [Nat.toDigits_of_lt_base hlt, List.head?_cons]
        exact fun h => hdigit n hlt hn (Option.some.inj h)
      · rw [Nat.toDigits_of_base_le (by decide) (by omega),
          List.head?_append_of_ne_nil _ Nat.toDigits_ne_nil]
        exact ih (n / 10) (by omega) (by omega)

end Text

namespace Settings

open Text

/-! ## Lengths -/

variable {cs : List Char} {n : Nat}

theorem lt_of_asciiDigit? {c : Char} {d : Nat} (h : asciiDigit? c = some d) : d < 10 := by
  rw [asciiDigit?] at h
  split at h
  · rename_i hc
    obtain ⟨-, hhigh⟩ := isDigit_bounds hc
    obtain rfl := Option.some.inj h
    have hzero : '0'.toNat = 0x30 := rfl
    omega
  · cases h

theorem asciiDigit?_of_isDigit (c : Char) (h : c.isDigit = true) :
    asciiDigit? c = some (c.toNat - '0'.toNat) :=
  if_pos h

theorem lt_of_readDigits (h : readDigits cs = some n) : n < 10 ^ maxDigits := by
  obtain ⟨ds, hds, h⟩ := Option.bind_eq_some_iff.mp h
  split at h
  · cases h
  · rename_i hfew
    obtain rfl := Option.some.inj h
    have hlength : ds.length ≤ maxDigits := by omega
    calc
      numberOf ds < 10 ^ ds.length :=
        numberOf_lt (lt_of_groupedDigits? (fun _ _ => lt_of_asciiDigit?) hds)
      _ ≤ 10 ^ maxDigits := Nat.pow_le_pow_right (by decide) hlength

theorem tidyNumeral?_eq_some {m : Int} (h : tidyNumeral? cs = some m) :
    ∃ negative digits n, readDigits digits = some n ∧ m = signed negative n := by
  rw [tidyNumeral?] at h
  generalize splitSign (trim cs) = sign at h
  obtain ⟨negative, unsigned⟩ := sign
  dsimp only at h
  obtain ⟨whole, -, h⟩ := Option.bind_eq_some_iff.mp h
  generalize splitMinus (dropZeroFraction whole) = minus at h
  obtain ⟨again, digits⟩ := minus
  dsimp only at h
  split at h
  · cases h
  · obtain ⟨n, hn, h⟩ := Option.bind_eq_some_iff.mp h
    exact ⟨_, digits, n, hn, (Option.some.inj h).symm⟩

/-- A number that is read has no more digits than are read. -/
theorem natAbs_lt_of_readNumeral {m : Int} (h : readNumeral cs = .ok m) :
    m.natAbs < 10 ^ maxDigits := by
  rw [readNumeral] at h
  split at h
  · cases h
  · split at h
    · rename_i m' htidy
      obtain rfl := Except.ok.inj h
      obtain ⟨negative, digits, n, hn, rfl⟩ := tidyNumeral?_eq_some htidy
      rw [natAbs_signed]
      exact lt_of_readDigits hn
    · cases h

theorem length_plainDigits_le (cs : List Char) : (plainDigits cs).length ≤ cs.length := by
  have hunsigned : (if cs.head? = some '-' then cs.tail else cs).length ≤ cs.length := by
    split
    · simp
    · exact Nat.le_refl _
  dsimp only [plainDigits]
  generalize (if cs.head? = some '-' then cs.tail else cs) = unsigned at hunsigned ⊢
  split
  · exact Nat.zero_le _
  · exact Nat.le_trans (List.takeWhile_prefix _).length_le hunsigned

section

variable (hdigits : ∀ c ∈ cs, c.isDigit = true)

include hdigits

theorem splitMinus_of_digits : splitMinus cs = (false, cs) := by
  fun_cases splitMinus cs with
  | case1 rest => simp [Char.isDigit] at hdigits
  | case2 rest => simp [Char.isDigit] at hdigits
  | case3 => rfl

theorem dropZeroFraction_of_digits : dropZeroFraction cs = cs := by
  have hpoint : ∀ c ∈ cs, (c != '.') = true := by
    rintro c hc
    rw [bne_iff_ne]
    rintro rfl
    exact absurd (hdigits _ hc) (by decide)
  have hwhole : cs.takeWhile (· != '.') = cs := List.takeWhile_eq_self_iff.mpr hpoint
  simp [dropZeroFraction, hwhole]

theorem dropZeros_of_digits (hhead : cs.head? ≠ some '0') (hne : cs ≠ []) :
    dropZeros cs = some cs := by
  fun_cases dropZeros cs with
  | case1 rest => simp at hhead
  | case2 c rest _ hc => rfl
  | case3 c rest _ hc => exact absurd (hdigits c List.mem_cons_self) hc
  | case4 => exact absurd rfl hne

theorem readDigits_of_digits (hhead : cs.head? ≠ some '0') (hne : cs ≠ [])
    (hfew : cs.length ≤ maxDigits) : readDigits cs = some (Nat.ofDigitChars 10 cs 0) := by
  have hzero : (cs.map fun c => c.toNat - '0'.toNat).head? ≠ some 0 := by
    cases cs with
    | nil => exact absurd rfl hne
    | cons c cs =>
        obtain ⟨hlow, -⟩ := isDigit_bounds (hdigits c List.mem_cons_self)
        have hc : c.toNat ≠ '0'.toNat := fun h => hhead (congrArg some (Char.toNat_inj.mp h))
        have h30 : '0'.toNat = 0x30 := rfl
        simp only [List.map_cons, List.head?_cons, ne_eq, Option.some.injEq]
        omega
  have hfew' : ¬ maxDigits < (cs.map fun c => c.toNat - '0'.toNat).length := by
    rw [List.length_map]
    omega
  rw [readDigits, groupedDigits?_of_digits asciiDigit?_of_isDigit hne hdigits]
  simp only [Option.bind_eq_bind, Option.bind_some, hzero, hfew', false_and, or_self, if_false,
    numberOf_eq]
  rfl

end

theorem tidyNumeral?_of_digits (hdigits : ∀ c ∈ cs, c.isDigit = true)
    (hhead : cs.head? ≠ some '0') (hne : cs ≠ []) (hfew : cs.length ≤ maxDigits) :
    tidyNumeral? cs = some (Nat.ofDigitChars 10 cs 0 : Nat) := by
  simp only [tidyNumeral?, trim_of_digits hdigits, splitSign_of_digits hdigits,
    dropZeros_of_digits hdigits hhead hne, dropZeroFraction_of_digits hdigits,
    splitMinus_of_digits hdigits, readDigits_of_digits hdigits hhead hne hfew, Option.bind_eq_bind,
    Option.bind_some]
  rfl

/-- A number is read back from its decimal digits. -/
theorem readNumeral_toString (h : n < 10 ^ maxDigits) :
    readNumeral (toString n).toList = .ok (n : Int) := by
  have hfew : (toString n).toList.length ≤ maxDigits := by
    rw [String.length_toList]
    exact (Nat.length_repr_le_iff (by decide)).mpr h
  have hplain : ¬ maxDigits < (plainDigits (toString n).toList).length :=
    Nat.not_lt.mpr (Nat.le_trans (length_plainDigits_le _) hfew)
  have htidy : tidyNumeral? (toString n).toList = some (n : Int) := by
    by_cases hn : n = 0
    · subst hn
      decide
    · have hlist : (toString n).toList = Nat.toDigits 10 n := Nat.toList_repr
      rw [tidyNumeral?_of_digits (fun c hc => isDigit_of_mem_toString hc)
        (hlist ▸ head?_toDigits_ne hn) (hlist ▸ Nat.toDigits_ne_nil) hfew, hlist,
        Nat.ofDigitChars_toDigits (by decide) (by decide)]
      rfl
  rw [readNumeral, if_neg hplain, htidy]

end Settings

end Strongbox
