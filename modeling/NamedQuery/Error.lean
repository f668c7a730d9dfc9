import NamedQuery.Sql.Fault

namespace NamedQuery

/-- What is wrong with a definition, with the way it is used, or with the settings. -/
inductive ConfigFault where
  | noSource (query : String)
  | unnamedRule (query : String)
  | repeatedRule (query rule : String)
  | unknownRule (query rule : String)
  | unknownFilters (query : String) (filters : List String)
  | noSourceAttached (query : String)
  | pageTooSmall (rows : Int64)
  | badSettings (reason : String)
  | unreadableSettings (path reason : String)
  /-- A reason of a rule's or a hook's own. -/
  | custom (reason : String)
  deriving DecidableEq, Repr

def ConfigFault.message : ConfigFault → String
  | noSource query => s!"query '{query}' has no source"
  | unnamedRule query => s!"query '{query}' has a rule with an empty name"
  | repeatedRule query rule => s!"query '{query}' defines rule '{rule}' more than once"
  | unknownRule query rule => s!"query '{query}' has no rule named '{rule}'"
  | unknownFilters query filters =>
    s!"query '{query}' has no rule for filter(s): " ++ ", ".intercalate filters
  | noSourceAttached query => s!"query '{query}' has no source attached"
  | pageTooSmall rows => s!"pagination.default_rows must be >= 1, got {rows.toInt}"
  | badSettings reason => s!"invalid pipeline config: {reason}"
  | unreadableSettings path reason => s!"failed to read {path}: {reason}"
  | custom reason => reason

/-- Why a given value cannot be used as asked. -/
inductive ValidationFault where
  | unserializable (reason : String)
  /-- A reason of a rule's or a hook's own. -/
  | custom (reason : String)
  deriving DecidableEq, Repr

def ValidationFault.message : ValidationFault → String
  | unserializable reason => s!"extension is not serializable: {reason}"
  | custom reason => reason

/-- Everything that can stop a query. -/
inductive Error where
  | config (fault : ConfigFault)
  | compile (fault : Sql.CompileFault)
  /-- The database refused the statement, for the reason that its driver gives. -/
  | query (reason : String)
  /-- A store other than the database failed. -/
  | store (reason : String)
  | decode (column reason : String)
  | validation (fault : ValidationFault)
  deriving DecidableEq, Repr

namespace Error

def message : Error → String
  | config fault => s!"Configuration error: {fault.message}"
  | compile fault => s!"Compile error: {fault.message}"
  | query reason => s!"Query error: {reason}"
  | store reason => s!"Store error: {reason}"
  | decode column reason => s!"Decode error on column '{column}': {reason}"
  | validation fault => s!"Validation error: {fault.message}"

def isConfig : Error → Bool
  | config _ => true
  | _ => false

def isCompile : Error → Bool
  | compile _ => true
  | _ => false

/-- The error came from the store, whichever it is. -/
def isStore : Error → Bool
  | query _ | store _ => true
  | _ => false

/-- What a store other than the database gave as its reason. -/
def storeReason? : Error → Option String
  | store reason => some reason
  | _ => none

end Error
end NamedQuery
