import NamedQuery.Error
import NamedQuery.Param

namespace NamedQuery

/-- How much detail the statements are logged with. -/
inductive LogLevel where
  | debug
  | trace
  deriving DecidableEq, Repr, Inhabited

/-- Something that happens on the way to a result and can be seen from outside. -/
inductive Entry where
  /-- A statement is logged before it runs. -/
  | statement (level : LogLevel) (query : String) (paramCount : Nat) (sql : String)
      (params : Option (Array Param))
  /-- A store is called. -/
  | storeCall (sql : String) (params : Array Param)
  | failed (query : String) (error : Error)
  /-- A filter has a value and no rule. -/
  | ignored (query filter : String)

/-- A result, or the error that stands in its place, with what happened on the way to it. -/
structure Logged (α : Type) where
  entries : List Entry
  outcome : Except Error α

namespace Logged

variable {α β : Type}

def ofExcept (outcome : Except Error α) : Logged α := ⟨[], outcome⟩

def note (entry : Entry) : Logged Unit := ⟨[entry], .ok ()⟩

def bind (m : Logged α) (next : α → Logged β) : Logged β :=
  match m.outcome with
  | .error error => ⟨m.entries, .error error⟩
  | .ok a => ⟨m.entries ++ (next a).entries, (next a).outcome⟩

instance : Monad Logged where
  pure a := ofExcept (.ok a)
  bind := bind

@[simp] theorem outcome_ofExcept (outcome : Except Error α) :
    (ofExcept outcome).outcome = outcome := rfl

@[simp] theorem entries_ofExcept (outcome : Except Error α) : (ofExcept outcome).entries = [] := rfl

theorem bind_of_ok {m : Logged α} {a : α} (h : m.outcome = .ok a) (next : α → Logged β) :
    m >>= next = ⟨m.entries ++ (next a).entries, (next a).outcome⟩ := by
  change bind m next = _
  rw [bind, h]

theorem bind_of_error {m : Logged α} {error : Error} (h : m.outcome = .error error)
    (next : α → Logged β) : m >>= next = ⟨m.entries, .error error⟩ := by
  change bind m next = _
  rw [bind, h]

@[simp] theorem outcome_bind (m : Logged α) (next : α → Logged β) :
    (m >>= next).outcome = m.outcome >>= fun a => (next a).outcome := by
  cases h : m.outcome with
  | error error =>
    rw [bind_of_error h]
    rfl
  | ok a =>
    rw [bind_of_ok h]
    rfl

theorem mem_entries_bind {m : Logged α} {next : α → Logged β} {e : Entry} :
    e ∈ (m >>= next).entries ↔ e ∈ m.entries ∨ ∃ a, m.outcome = .ok a ∧ e ∈ (next a).entries := by
  cases h : m.outcome with
  | error error => simp [bind_of_error h]
  | ok a => simp [bind_of_ok h]

end Logged
end NamedQuery
