/-!
Texts that hold surrogates, each half of the pair that UTF-16 has for a high character. A half is no
character, so no UTF-8 encodes such a text.
-/

namespace Strongbox

/-- A character, or one of the surrogates, counted from the first. -/
inductive CodePoint
  | char (c : Char)
  | surrogate (n : Fin 2048)
deriving DecidableEq

namespace CodePoint

def isSurrogate : CodePoint → Bool
  | char _ => false
  | surrogate _ => true

def ofText (s : String) : List CodePoint :=
  s.toList.map char

theorem any_ofText (s : String) : (ofText s).any isSurrogate = false := by
  simp [ofText, List.any_map, Function.comp_def, isSurrogate]

end CodePoint

/-- A text with a surrogate somewhere in it. -/
structure BrokenText where
  points : List CodePoint
  broken : points.any CodePoint.isSurrogate = true
deriving DecidableEq

namespace BrokenText

def length (t : BrokenText) : Nat :=
  t.points.length

/-- The characters that are left without the surrogates. -/
def characters (t : BrokenText) : List Char :=
  t.points.filterMap fun
    | .char c => some c
    | .surrogate _ => none

/-- The text with another in front of it. -/
def behind (front : String) (t : BrokenText) : BrokenText where
  points := CodePoint.ofText front ++ t.points
  broken := by rw [List.any_append, t.broken, Bool.or_true]

theorem broken_drop {front : String} {t : BrokenText} (h : CodePoint.ofText front <+: t.points) :
    (t.points.drop (CodePoint.ofText front).length).any CodePoint.isSurrogate = true := by
  obtain ⟨rest, hrest⟩ := h
  have hbroken := t.broken
  rw [← hrest, List.any_append, CodePoint.any_ofText, Bool.false_or] at hbroken
  rwa [← hrest, List.drop_left]

/-- What follows a front that the text has. -/
def after? (front : String) (t : BrokenText) : Option BrokenText :=
  if h : CodePoint.ofText front <+: t.points then
    some ⟨t.points.drop (CodePoint.ofText front).length, broken_drop h⟩
  else none

theorem after?_eq_some_iff {front : String} {t rest : BrokenText} :
    t.after? front = some rest ↔ t = rest.behind front := by
  obtain ⟨points, broken⟩ := t
  obtain ⟨others, hothers⟩ := rest
  simp only [after?, behind, mk.injEq]
  split
  · rename_i h
    have happend := List.prefix_iff_eq_append.mp h
    rw [Option.some.injEq, mk.injEq]
    constructor
    · rintro rfl
      exact happend.symm
    · rintro rfl
      exact List.drop_left
  · rename_i h
    constructor
    · intro hnone
      cases hnone
    · rintro rfl
      exact absurd (List.prefix_append _ _) h

end BrokenText

end Strongbox
