/-!
Pages of a result. A page carries items and, unless it is the last one, the cursor of the next.
-/

namespace LedgerQuery

structure Cursor where
  token : String
deriving DecidableEq, Repr, Inhabited

structure Page (τ : Type) where
  items : List τ
  next : Option Cursor
deriving DecidableEq, Repr

namespace Page

variable {τ : Type}

def last (items : List τ) : Page τ := ⟨items, none⟩

def withNext (items : List τ) (token : String) : Page τ := ⟨items, some ⟨token⟩⟩

end Page

end LedgerQuery
