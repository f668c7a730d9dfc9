import NamedQuery.Error

namespace NamedQuery

/-- What an edit leaves: the value as far as it was changed, and the error that stopped the edit, if
one did. -/
structure Edited (α : Type) where
  value : α
  error : Option Error

namespace Edited

variable {α : Type}

def done (value : α) : Edited α := ⟨value, none⟩

def stopped (value : α) (error : Error) : Edited α := ⟨value, some error⟩

def toExcept (e : Edited α) : Except Error α :=
  match e.error with
  | none => .ok e.value
  | some error => .error error

end Edited
end NamedQuery
