import Strongbox.Handler

/-!
Attributes that are stored encrypted. A missing attribute is stored and restored as missing, and
stored values without the marker are restored unchanged.
-/

namespace Strongbox.Attribute

def store (h : Handler) : Value → Task Value
  | .null => return .null
  | v => return .text (← h.encryptText v)

def restore (h : Handler) : Value → Task Value
  | .null => return .null
  | v => h.decryptText v

end Strongbox.Attribute
