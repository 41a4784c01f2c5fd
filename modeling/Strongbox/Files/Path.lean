/-!
File paths in normal form: no empty names, no names that stand for the directory itself, and
nothing resolved. Exactly two leading slashes are kept apart from one.
-/

namespace Strongbox

inductive PathRoot
  | relative
  | slash
  | doubleSlash
deriving DecidableEq

namespace PathRoot

def text : PathRoot → String
  | relative => ""
  | slash => "/"
  | doubleSlash => "//"

def ofChars : List Char → PathRoot
  | '/' :: '/' :: '/' :: _ => slash
  | '/' :: '/' :: _ => doubleSlash
  | '/' :: _ => slash
  | _ => relative

end PathRoot

structure Path where
  root : PathRoot
  names : List String
  normal : ∀ n ∈ names, n ≠ "" ∧ n ≠ "." ∧ '/' ∉ n.toList
deriving DecidableEq

namespace Path

/-- The stretches between slashes, empty ones included. -/
def stretches : List Char → List (List Char)
  | [] => [[]]
  | c :: rest =>
    if c = '/' then [] :: stretches rest
    else match stretches rest with
      | [] => [[c]]
      | s :: more => (c :: s) :: more

theorem not_mem_of_mem_stretches {cs s : List Char} (h : s ∈ stretches cs) : '/' ∉ s := by
  induction cs generalizing s with
  | nil => simp_all [stretches]
  | cons c rest ih =>
      by_cases hc : c = '/'
      · simp only [stretches, hc, if_true, List.mem_cons] at h
        rcases h with rfl | h
        · simp
        · exact ih h
      · have hc' : ¬ '/' = c := fun e => hc e.symm
        simp only [stretches, hc, if_false] at h
        split at h
        · simp_all
        · rename_i s₀ more heq
          rw [List.mem_cons] at h
          rcases h with rfl | h
          · simp [hc', ih (heq ▸ List.mem_cons_self)]
          · exact ih (heq ▸ List.mem_cons_of_mem _ h)

/-- The names on a path as it is written. -/
def namesOf (cs : List Char) : List String :=
  ((stretches cs).map String.ofList).filter fun n => n ≠ "" ∧ n ≠ "."

def ofString (s : String) : Path where
  root := .ofChars s.toList
  names := namesOf s.toList
  normal := by
    intro n hn
    simp only [namesOf, List.mem_filter, List.mem_map, decide_eq_true_eq] at hn
    obtain ⟨⟨cs, hcs, rfl⟩, hne⟩ := hn
    exact ⟨hne.1, hne.2, by simpa using not_mem_of_mem_stretches hcs⟩

instance : ToString Path where
  toString p :=
    let text := p.root.text ++ "/".intercalate p.names
    if text.isEmpty then "." else text

/-- The path without its last name; a path without names is its own parent. -/
def parent (p : Path) : Path where
  root := p.root
  names := p.names.dropLast
  normal := fun n h => p.normal n (p.names.dropLast_subset h)

theorem length_parent_lt (p : Path) (h : p.names ≠ []) :
    p.parent.names.length < p.names.length := by
  have := List.length_pos_iff.mpr h
  simp only [parent, List.length_dropLast]
  omega

/-- No file can be named with this character. -/
def hasNul (p : Path) : Bool :=
  p.names.any fun n => n.toList.contains '\x00'

end Path

end Strongbox
