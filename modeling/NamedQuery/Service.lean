import NamedQuery.Database
import NamedQuery.Chain
import NamedQuery.Row

namespace NamedQuery

namespace Database

variable {ρ α : Type}

/-- Runs a definition between the hooks of a chain. -/
def run (db : Database ρ) (d : Definition) (chain : Chain ρ) (c : Criteria) : Run ρ :=
  chain.run c (db.executeQuery d)

/-- Runs a definition and reads its rows. They are read before any hook sees them, the one that looks
ahead included. -/
def fetch (db : Database ρ) (d : Definition) (read : ρ → Except Error α) (chain : Chain α)
    (c : Criteria) : Run α :=
  chain.run c fun c => do
    let rows ← db.executeQuery d c
    Logged.ofExcept (rows.mapM read)

end Database
end NamedQuery
