import Mathlib.Algebra.Group.Nat.Defs
import Strongbox.Text.Integer

/-! # Numerals

A number is read back from its decimal digits, as long as they are not too many to be read at
all. -/

namespace Strongbox.Text

variable {c : Char} {cs : List Char}

theorem isDigit_bounds (h : c.isDigit = true) : 0x30 ≤ c.toNat ∧ c.toNat < 0x3a := by
  simp only [Char.isDigit, Bool.and_eq_true, decide_eq_true_eq] at h
  exact ⟨h.1, Nat.lt_succ_of_le h.2⟩

theorem digit?_of_isDigit (h : c.isDigit = true) : digit? c = some (c.toNat - '0'.toNat) := by
  obtain ⟨hlow, hhigh⟩ := isDigit_bounds h
  have hfind : zeros.find? (fun first => first ≤ c.toNat && c.toNat < first + 10) = some 0x30 :=
    List.find?_cons_of_pos (by simp [hlow, hhigh])
  rw [digit?, hfind]
  rfl

theorem isBlank_of_isDigit (h : c.isDigit = true) : isBlank c = false := by
  obtain ⟨hlow, hhigh⟩ := isDigit_bounds h
  simp only [isBlank, blankRanges, List.any_cons, List.any_nil]
  simp
  omega

theorem dropWhile_isBlank (h : ∀ c ∈ cs, c.isDigit = true) : cs.dropWhile isBlank = cs := by
  cases cs with
  | nil => rfl
  | cons c cs =>
      have hc := isBlank_of_isDigit (h c List.mem_cons_self)
      exact List.dropWhile_cons_of_neg (by simp [hc])

theorem trim_of_digits (h : ∀ c ∈ cs, c.isDigit = true) : trim cs = cs := by
  have hreverse : ∀ c ∈ cs.reverse, c.isDigit = true := fun c hc => h c (List.mem_reverse.mp hc)
  rw [trim, dropWhile_isBlank h, dropWhile_isBlank hreverse, List.reverse_reverse]

theorem splitSign_of_digits (h : ∀ c ∈ cs, c.isDigit = true) : splitSign cs = (false, cs) := by
  fun_cases splitSign cs with
  | case1 rest => simp [Char.isDigit] at h
  | case2 rest => simp [Char.isDigit] at h
  | case3 => rfl

/-- Whatever other digits a reader knows, those of ASCII it reads by their places. -/
theorem groupedDigits?_of_digits {value? : Char → Option Nat}
    (hvalue : ∀ c, c.isDigit = true → value? c = some (c.toNat - '0'.toNat)) (hne : cs ≠ [])
    (h : ∀ c ∈ cs, c.isDigit = true) :
    groupedDigits? value? cs = some (cs.map fun c => c.toNat - '0'.toNat) := by
  fun_induction groupedDigits? value? cs with
  | case1 => exact absurd rfl hne
  | case2 c => simp [hvalue c (h c List.mem_cons_self)]
  | case3 c rest ih => simp [Char.isDigit] at h
  | case4 c rest hrest _ ih =>
      have hc := hvalue c (h c List.mem_cons_self)
      have htail := ih (by simpa using hrest) fun c hc => h c (List.mem_cons_of_mem _ hc)
      simp [hc, htail]

theorem numberOf_eq (cs : List Char) :
    numberOf (cs.map fun c => c.toNat - '0'.toNat) = Nat.ofDigitChars 10 cs 0 := by
  rw [numberOf, List.foldl_map]
  rfl

/-- Digits alone are read if they are not too many. -/
theorem integer?_of_digits {s : String} (hne : s ≠ "") (h : ∀ c ∈ s.toList, c.isDigit = true) :
    integer? s =
      if maxDigits < s.length then none else some ↑(Nat.ofDigitChars 10 s.toList 0) := by
  have hlen : (s.toList.map fun c => c.toNat - '0'.toNat).length = s.length := by
    rw [List.length_map, String.length_toList]
  rw [integer?, trim_of_digits h, splitSign_of_digits h]
  have hne' := mt String.toList_eq_nil_iff.mp hne
  simp only [groupedDigits?_of_digits (fun _ hc => digit?_of_isDigit hc) hne' h,
    Option.bind_eq_bind, Option.bind_some, hlen, numberOf_eq]
  rfl

theorem isDigit_of_mem_toString {n : Nat} (h : c ∈ (toString n).toList) : c.isDigit = true := by
  change c ∈ n.repr.toList at h
  rw [Nat.toList_repr] at h
  exact Nat.isDigit_of_mem_toDigits (by decide) (by decide) h

theorem head?_toString_ne (n : Nat) : (toString n).toList.head? ≠ some '-' := by
  intro h
  exact absurd (isDigit_of_mem_toString (List.mem_of_head? h)) (by decide)

theorem integer?_toString {n : Nat} (h : n < 10 ^ maxDigits) :
    integer? (toString n) = some (n : Int) := by
  have hfew : ¬ maxDigits < n.repr.length := by
    rw [Nat.not_lt, Nat.length_repr_le_iff (by decide)]
    exact h
  change integer? n.repr = _
  rw [integer?_of_digits Nat.repr_ne_empty fun c hc => isDigit_of_mem_toString hc, if_neg hfew,
    Nat.toList_repr, Nat.ofDigitChars_toDigits (by decide) (by decide)]

end Strongbox.Text
