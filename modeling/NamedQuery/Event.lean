import NamedQuery.Chain

namespace NamedQuery

/-- A record of the log: how grave it is, what it is about, and its fields as texts. -/
structure Event where
  level : String
  target : String
  fields : List (String × String)

def LogLevel.word : LogLevel → String
  | debug => "DEBUG"
  | trace => "TRACE"

/-- A call of a store is seen by the store alone. -/
def Entry.events : Entry → List Event
  | statement level query count sql params =>
    [⟨level.word, "pgspec.sql",
      [("query", query), ("param_count", toString count), ("sql", sql)] ++
        (params.elim [] fun ps => [("params", describeParams ps)])⟩]
  | storeCall _ _ => []
  | failed query error =>
    [⟨"ERROR", "pgspec.query",
      [("message", "query failed"), ("query", query), ("error", error.message)]⟩]
  | ignored query filter =>
    [⟨"DEBUG", "pgspec.query",
      [("message", "ignoring filter without a rule"), ("query", query), ("filter", filter)]⟩]

def hookEvent (hook layer : String) : Event :=
  ⟨"TRACE", "pgspec.runner", [("message", hook), ("middleware", layer)]⟩

/-- A hook is announced before it is called. -/
def Visit.events {α : Type} : Visit α → List Event
  | before _ layer _ => [hookEvent "preprocess" layer]
  | query _ entries => entries.flatMap Entry.events
  | after _ layer _ _ => [hookEvent "postprocess" layer]

end NamedQuery
