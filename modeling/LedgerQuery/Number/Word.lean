/-!
Numbers of 64 bits.
-/

namespace LedgerQuery.Word

def max : Nat := Nat.pow 2 64 - 1

def wrap (n : Nat) : Nat := n % Nat.pow 2 64

end LedgerQuery.Word
