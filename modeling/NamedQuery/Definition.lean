import NamedQuery.Criteria
import NamedQuery.Edited
import NamedQuery.Logged
import NamedQuery.Sql.Statement

namespace NamedQuery

open Sql (Select Statement)

/-- What a filter does to a statement, given the value of the filter. -/
abbrev Rule := FilterValue → Select → Edited Select

inductive UnknownFilters where
  | ignore
  | reject
  deriving DecidableEq, Repr, Inhabited

def UnknownFilters.describe : UnknownFilters → String
  | ignore => "Ignore"
  | reject => "Reject"

/-- A query under a name: where its rows come from, and a rule for each of its filters. -/
structure Definition where
  name : String
  source : Select → Select
  rules : Dict Rule
  unknown : UnknownFilters

namespace Definition

def ruleNames (d : Definition) : List String :=
  d.rules.keys

def hasRule (d : Definition) (name : String) : Bool :=
  d.rules.contains name

def describe (d : Definition) : String :=
  s!"QuerySpec \x7b name: {Text.quoted d.name}, rules: {Text.bracketed (d.ruleNames.map Text.quoted)}" ++
    s!", unknown_filters: {d.unknown.describe} \x7d"

/-- Filters without a rule, whether or not they have a value. -/
def unknownFilters (d : Definition) (c : Criteria) : List String :=
  c.filters.keys.filter (!d.hasRule ·)

def check (d : Definition) (c : Criteria) : Except Error Unit :=
  match d.unknown, d.unknownFilters c with
  | .ignore, _ | .reject, [] => .ok ()
  | .reject, filters => .error (.config (.unknownFilters d.name filters))

def applyRule (d : Definition) (rule : String) (value : FilterValue) (s : Select) : Edited Select :=
  match d.rules.get? rule with
  | some apply => apply value s
  | none => .stopped s (.config (.unknownRule d.name rule))

/-- Applies the rules of filters in turn, up to the first that fails. -/
def applyFilters (d : Definition) : List (String × FilterValue) → Select → Logged Select
  | [], s => pure s
  | (key, value) :: rest, s =>
    match d.rules.get? key with
    | none => do
      Logged.note (.ignored d.name key)
      d.applyFilters rest s
    | some apply => do
      let s ← Logged.ofExcept (apply value s).toExcept
      d.applyFilters rest s

/-- The statement for some criteria, before their order and window are added. -/
def prepare (d : Definition) (c : Criteria) : Logged Select := do
  Logged.ofExcept (d.check c)
  d.applyFilters c.active (d.source .empty)

def compile (d : Definition) (c : Criteria) : Logged Statement := do
  let s ← d.prepare c
  Logged.ofExcept (s.compile c)

end Definition

/-- A definition being put together, with its rules in the order in which they were given. -/
structure Declaration where
  name : String
  source : Option (Select → Select)
  rules : List (String × Rule)
  unknown : UnknownFilters

namespace Declaration

def named (name : String) : Declaration := ⟨name, none, [], .ignore⟩

/-- Replaces the source. -/
def withSource (d : Declaration) (source : Select → Select) : Declaration :=
  { d with source := some source }

def withRule (d : Declaration) (name : String) (rule : Rule) : Declaration :=
  { d with rules := d.rules ++ [(name, rule)] }

def withUnknown (d : Declaration) (unknown : UnknownFilters) : Declaration :=
  { d with unknown := unknown }

/-- Takes up rules one by one. A name may be neither empty nor taken. -/
def collect (query : String) : List (String × Rule) → Dict Rule → Except Error (Dict Rule)
  | [], done => .ok done
  | (name, rule) :: rest, done =>
    if name.isEmpty then .error (.config (.unnamedRule query))
    else if done.contains name then .error (.config (.repeatedRule query name))
    else collect query rest (done.insert name rule)

def build (d : Declaration) : Except Error Definition := do
  match d.source with
  | none => .error (.config (.noSource d.name))
  | some source =>
    let rules ← collect d.name d.rules .empty
    .ok ⟨d.name, source, rules, d.unknown⟩

end Declaration
end NamedQuery
