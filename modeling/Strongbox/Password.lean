import Strongbox.Abort
import Strongbox.Password.Twister

/-!
Random passwords: as many independent choices from an alphabet as characters are asked for. The
standard alphabet leaves out letters that are easily confused.
-/

namespace Strongbox.Password

def standardAlphabet : String :=
  "0123456789" ++ "-.!#%/?+*" ++ "abcdefghijkmnpqrstuvwxyz" ++ "ABCDEFGHJKLMNPRSTUVWXYZ" ++
    "$&<>"

variable {σ : Type} [ChoiceSource σ]

/-- One choice after the other. -/
def choices (alphabet : List Char) (h : 0 < alphabet.length) : Nat → σ → List Char × σ
  | 0, s => ([], s)
  | n + 1, s =>
    let (i, s) := ChoiceSource.choose alphabet.length h s
    let (rest, s) := choices alphabet h n s
    (alphabet.get i :: rest, s)

/-- A refused request leaves the source as it was. -/
def generate (alphabet : List Char) (length : Int) (s : σ) : Except Misuse String × σ :=
  if length < 0 then (.error (.negativeLength length), s)
  else if h : 0 < alphabet.length then
    let (cs, s) := choices alphabet h length.toNat s
    (.ok (String.ofList cs), s)
  else if length = 0 then (.ok "", s)
  else (.error .emptyAlphabet, s)

/-- Requests to one generator, one after the other. -/
def generateAll (alphabet : List Char) : List Int → σ → List (Except Misuse String) × σ
  | [], s => ([], s)
  | n :: rest, s =>
    let (r, s) := generate alphabet n s
    let (rs, s) := generateAll alphabet rest s
    (r :: rs, s)

end Strongbox.Password
