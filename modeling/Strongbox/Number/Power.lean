/-!
Powers of the two bases in which numbers are written.
-/

namespace Strongbox

def twoTo (n : Nat) : Nat := Nat.pow 2 n

def tenTo (n : Nat) : Nat := Nat.pow 10 n

end Strongbox
