import Mathlib.Data.String.Basic

/-!
# The lock service

What both lock strategies share: the key of a lock is the address in lower case.
-/

namespace JsonRpcRelay.Lock

/-- `address.toLowerCase()`. -/
def normalizeAddress (address : String) : String :=
  String.ofList (address.toList.map Char.toLower)

end JsonRpcRelay.Lock
