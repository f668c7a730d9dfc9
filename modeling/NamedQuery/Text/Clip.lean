namespace NamedQuery.Text

/-- The first index, on the way down from one, at which a text can be cut in two. -/
def boundaryBelow (text : String) : Nat → Nat
  | 0 => 0
  | index + 1 =>
    if (⟨index + 1⟩ : String.Pos.Raw).isValid text then index + 1 else boundaryBelow text index

/-- Shortens a text of more than `max` bytes to those before the last such index, and marks the cut by
three dots. No text is longer than a `max` of zero. -/
def clip (text : String) (max : Nat) : String :=
  if max = 0 ∨ text.utf8ByteSize ≤ max then text
  else String.Pos.Raw.extract text 0 ⟨boundaryBelow text max⟩ ++ "..."

end NamedQuery.Text
