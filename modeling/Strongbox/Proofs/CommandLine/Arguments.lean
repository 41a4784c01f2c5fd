import Strongbox.CommandLine.Arguments

/-! # Arguments of a command

An argument without a dash in front is an operand, and a command followed by one operand is read as
what its operand makes of it. -/

namespace Strongbox.CommandLine

variable {s name : String} {t : Topic}

theorem Word.ofString_of_head?_ne (h : s.toList.head? ≠ some '-') :
    Word.ofString s = .operand s := by
  rw [Word.ofString]
  exact if_pos (by simp [h])

theorem ne_dashes_of_head?_ne (h : s.toList.head? ≠ some '-') : s ≠ "--" := by
  rintro rfl
  exact h rfl

theorem Word.ofArguments_operand (h : s.toList.head? ≠ some '-') :
    Word.ofArguments [s] = [.operand s] := by
  rw [ofArguments, if_neg (ne_dashes_of_head?_ne h), ofString_of_head?_ne h, ofArguments]

/-- What becomes of a command with one operand. -/
def Topic.request (t : Topic) (s : String) : Request :=
  match t.fill s with
  | .ok c => .run c
  | .error e => .refused t e

theorem readOperands_operand {slot : Slot} (h : slot.isOpen = true) :
    readOperands t slot [] [.operand s] = t.request s := by
  rw [readOperands, if_pos h, Topic.request]
  cases t.fill s with
  | error e => rfl
  | ok c => simp [dropDashes, readOperands, conclude]

theorem read_operand {o : Operand} (hname : Topic.ofCommand? name = some t)
    (hdash : name.toList.head? ≠ some '-') (ho : t.operand? = some o)
    (hs : s.toList.head? ≠ some '-') : read [name, s] = t.request s := by
  have hopen : (Slot.ofTopic t).isOpen = true := by
    rw [Slot.ofTopic, ho]
    dsimp only
    split <;> rfl
  rw [read, readFrom, if_neg (ne_dashes_of_head?_ne hdash), Word.ofString_of_head?_ne hdash]
  dsimp only
  rw [readCommand, hname]
  dsimp only
  rw [Word.ofArguments_operand hs, readOperands_operand hopen]

theorem read_encrypt (hs : s.toList.head? ≠ some '-') :
    read ["encrypt", s] = .run (.encrypt s) :=
  read_operand (t := .encrypt) rfl (by decide) rfl hs

theorem read_decrypt (hs : s.toList.head? ≠ some '-') :
    read ["decrypt", s] = .run (.decrypt s) :=
  read_operand (t := .decrypt) rfl (by decide) rfl hs

theorem read_password (hs : s.toList.head? ≠ some '-') :
    read ["pwgen", s] =
      match Text.integer? s with
      | some n => .run (.password (some n))
      | none => .refused .password (.notALength s) := by
  rw [read_operand (t := .password) rfl (by decide) rfl hs, Topic.request, Topic.fill]
  cases Text.integer? s <;> rfl

end Strongbox.CommandLine
