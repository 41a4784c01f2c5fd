/-!
Sources of choices: a state that yields an index below any positive bound, and the state after it.
-/

namespace Strongbox

class ChoiceSource (σ : Type) where
  choose : (bound : Nat) → 0 < bound → σ → Fin bound × σ

/-- Choices written down in advance and taken in turn, for ever from the first again. Each counts
modulo the bound. -/
structure ScriptedChoices where
  picks : List Int
  taken : Nat

namespace ScriptedChoices

def choose (bound : Nat) (h : 0 < bound) (s : ScriptedChoices) : Fin bound × ScriptedChoices :=
  let pick := s.picks.getD (s.taken % s.picks.length) 0
  have : pick % bound < bound := Int.emod_lt_of_pos pick (by omega)
  (⟨(pick % bound).toNat, by omega⟩, { s with taken := s.taken + 1 })

instance : ChoiceSource ScriptedChoices := ⟨choose⟩

end ScriptedChoices

end Strongbox
