import NamedQuery.Layer
import NamedQuery.Logged

namespace NamedQuery

/-- A step that a run has entered: a hook, by the position of its layer, or the query, each with what
was handed to it. -/
inductive Visit (α : Type) where
  | before (position : Nat) (layer : String) (criteria : Criteria)
  | query (criteria : Criteria) (entries : List Entry)
  | after (position : Nat) (layer : String) (criteria : Criteria) (listing : Listing α)

/-- What a run leaves: the steps it entered, the criteria as they are then, and its outcome. -/
structure Run (α : Type) where
  visits : List (Visit α)
  criteria : Criteria
  outcome : Except Error (Listing α)

/-- Layers in the order in which their hooks are called, before the query as well as after it. -/
abbrev Chain (α : Type) := List (Layer α)

namespace Chain

variable {α : Type}

def describe (chain : Chain α) : String :=
  Text.bracketed (chain.map fun l => Text.quoted l.name)

/-- Calls the hooks before the query, up to the first that fails. The first one has the given
position. -/
def before : Chain α → Nat → Criteria → List (Visit α) × Edited Criteria
  | [], _, c => ([], .done c)
  | layer :: rest, position, c =>
    let visit := .before position layer.name c
    match layer.before c with
    | ⟨c, some error⟩ => ([visit], .stopped c error)
    | ⟨c, none⟩ =>
      let (visits, edited) := before rest (position + 1) c
      (visit :: visits, edited)

/-- Calls the hooks after the query, up to the first that fails. -/
def after : Chain α → Nat → Criteria → Listing α → List (Visit α) × Except Error (Listing α)
  | [], _, _, l => ([], .ok l)
  | layer :: rest, position, c, l =>
    let visit := .after position layer.name c l
    match layer.after c l with
    | ⟨_, some error⟩ => ([visit], .error error)
    | ⟨l, none⟩ =>
      let (visits, outcome) := after rest (position + 1) c l
      (visit :: visits, outcome)

/-- Lets the hooks rewrite the criteria, runs the query with them, and passes its rows on to the
hooks after it. Whoever fails first ends the run. -/
def run (chain : Chain α) (c : Criteria) (query : Criteria → Logged (List α)) : Run α :=
  match chain.before 0 c with
  | (visits, ⟨c, some error⟩) => ⟨visits, c, .error error⟩
  | (visits, ⟨c, none⟩) =>
    let found := query c
    let visits := visits ++ [.query c found.entries]
    match found.outcome with
    | .error error => ⟨visits, c, .error error⟩
    | .ok items =>
      let (last, outcome) := chain.after 0 c (.ofItems items)
      ⟨visits ++ last, c, outcome⟩

end Chain
end NamedQuery
