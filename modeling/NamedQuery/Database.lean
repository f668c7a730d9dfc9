import NamedQuery.Definition
import NamedQuery.Settings
import NamedQuery.Text.Clip

namespace NamedQuery

open Sql (Select Statement)

/-- What answers statements: rows for a text and the values of its placeholders. -/
abbrev Store (ρ : Type) := String → Array Param → Except Error (List ρ)

/-- A store, with the way its statements are logged. -/
structure Database (ρ : Type) where
  store : Store ρ
  log : LogSettings

namespace Database

variable {ρ : Type}

/-- The entry for a statement that is about to run. -/
def logEntry (s : LogSettings) (query : String) (statement : Statement) : Entry :=
  .statement s.level query statement.params.size (Text.clip statement.sql s.longest)
    (if s.showParams then some statement.params else none)

/-- Logs a statement, calls the store once, and logs a failure of the store. -/
def executeStatement (db : Database ρ) (query : String) (statement : Statement) :
    Logged (List ρ) :=
  let before := if db.log.enabled then [logEntry db.log query statement] else []
  let call := Entry.storeCall statement.sql statement.params
  match db.store statement.sql statement.params with
  | .ok rows => ⟨before ++ [call], .ok rows⟩
  | .error error => ⟨before ++ [call, .failed query error], .error error⟩

def execute (db : Database ρ) (query : String) (s : Select) (c : Criteria) : Logged (List ρ) :=
  if !s.hasTable then .ofExcept (.error (.config (.noSourceAttached query)))
  else do
    let statement ← Logged.ofExcept (s.compile c)
    db.executeStatement query statement

/-- Runs a definition for some criteria. -/
def executeQuery (db : Database ρ) (d : Definition) (c : Criteria) : Logged (List ρ) := do
  let s ← d.prepare c
  db.execute d.name s c

end Database

/-- A definition attached to a database, as it is shown in logs. -/
def Definition.describeAttached (d : Definition) : String :=
  s!"DefinedQuery \x7b spec: {d.describe}, .. \x7d"

end NamedQuery
