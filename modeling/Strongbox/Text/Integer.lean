import Strongbox.Text.Blank
import Strongbox.Text.Digit

/-!
Integers as people write them: a sign, and digits that may be grouped by single underscores.
-/

namespace Strongbox.Text

/-- More digits than this are refused. -/
def maxDigits : Nat := 4300

/-- Digits with single underscores between them, most significant first. -/
def groupedDigits? (digit? : Char → Option Nat) : List Char → Option (List Nat)
  | [] => none
  | [c] => (digit? c).map fun d => [d]
  | c :: '_' :: rest => do
    let d ← digit? c
    let ds ← groupedDigits? digit? rest
    return d :: ds
  | c :: rest => do
    let d ← digit? c
    let ds ← groupedDigits? digit? rest
    return d :: ds

def numberOf (ds : List Nat) : Nat :=
  ds.foldl (fun n d => 10 * n + d) 0

/-- Whether a minus sign is written, and what follows the sign. -/
def splitSign : List Char → Bool × List Char
  | '-' :: rest => (true, rest)
  | '+' :: rest => (false, rest)
  | cs => (false, cs)

def signed (negative : Bool) (n : Nat) : Int :=
  if negative then -n else n

/-- An integer in decimal digits of any script, with blanks around it. -/
def integer? (s : String) : Option Int := do
  let (negative, unsigned) := splitSign (trim s.toList)
  let ds ← groupedDigits? digit? unsigned
  if maxDigits < ds.length then none else some (signed negative (numberOf ds))

end Strongbox.Text
