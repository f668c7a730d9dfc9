import NamedQuery.Error
import NamedQuery.Json.Basic

namespace NamedQuery

variable {α : Type}

/-- Reads a row as a value; there is no column to name when it cannot be read. -/
def decodeRow (read : Json → Option α) (row : Json) : Except Error α :=
  match read row with
  | some a => .ok a
  | none => .error (.decode "<row>" "the row has another shape")

/-- Reads every row, or fails as the first one that cannot be read. -/
def mapRows (read : Json → Option α) (rows : List Json) : Except Error (List α) :=
  rows.mapM (decodeRow read)

end NamedQuery
