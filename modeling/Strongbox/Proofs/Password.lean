import Mathlib.Data.String.Basic
import Strongbox.Password

/-! # Random passwords

A password has as many characters as were asked for, whatever the source chooses, and all of them
come from the alphabet. -/

namespace Strongbox.Password

variable {σ : Type} [ChoiceSource σ] {alphabet : List Char}

theorem length_choices (h : 0 < alphabet.length) (n : Nat) (s : σ) :
    (choices alphabet h n s).1.length = n := by
  induction n generalizing s with
  | zero => rfl
  | succ n ih => exact congrArg Nat.succ (ih _)

theorem mem_of_mem_choices {h : 0 < alphabet.length} {n : Nat} {s : σ} {c : Char}
    (hc : c ∈ (choices alphabet h n s).1) : c ∈ alphabet := by
  induction n generalizing s with
  | zero => cases hc
  | succ n ih =>
      rcases List.mem_cons.mp hc with rfl | hc
      · exact List.get_mem _ _
      · exact ih hc

theorem generate_of_length_pos (h : 0 < alphabet.length) (n : Nat) (s : σ) :
    (generate alphabet n s).1 = .ok (String.ofList (choices alphabet h n s).1) := by
  rw [generate, if_neg (by simp), dif_pos h]
  rfl

/-- A source of choices cannot make a request fail. -/
theorem generate_eq_ok (h : 0 < alphabet.length) (n : Nat) (s : σ) :
    ∃ p, (generate alphabet n s).1 = .ok p ∧ p.length = n ∧ ∀ c ∈ p.toList, c ∈ alphabet := by
  refine ⟨_, generate_of_length_pos h n s, ?_, ?_⟩
  · rw [String.length_ofList, length_choices]
  · intro c hc
    rw [String.toList_ofList] at hc
    exact mem_of_mem_choices hc

theorem generate_standard (n : Nat) (s : σ) :
    ∃ p, (generate standardAlphabet.toList n s).1 = .ok p ∧ p.length = n ∧
      ∀ c ∈ p.toList, c ∈ standardAlphabet.toList :=
  generate_eq_ok (by decide) n s

/-! ## Size -/

theorem utf8Len_of_ascii {cs : List Char} (h : ∀ c ∈ cs, c.utf8Size = 1) :
    String.utf8Len cs = cs.length := by
  induction cs with
  | nil => rfl
  | cons c cs ih =>
      have hcs := ih fun c hc => h c (List.mem_cons_of_mem _ hc)
      rw [String.utf8Len_cons, hcs, h c List.mem_cons_self, List.length_cons]

theorem utf8Size_of_mem_standardAlphabet {c : Char} (h : c ∈ standardAlphabet.toList) :
    c.utf8Size = 1 := by
  have hall : standardAlphabet.toList.all (fun c => c.utf8Size == 1) = true := by decide +kernel
  exact beq_iff_eq.mp (List.all_eq_true.mp hall c h)

/-- Each character of a standard password is one octet. -/
theorem utf8ByteSize_of_standard {p : String}
    (h : ∀ c ∈ p.toList, c ∈ standardAlphabet.toList) : p.utf8ByteSize = p.length := by
  rw [← String.ofList_toList (s := p), String.utf8ByteSize_ofList, String.length_ofList]
  exact utf8Len_of_ascii fun c hc => utf8Size_of_mem_standardAlphabet (h c hc)

end Strongbox.Password
