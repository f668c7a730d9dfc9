import NamedQuery.Toml.Basic

namespace NamedQuery.Toml

/-- How a table came about: under a header of its own, on the way to another header, or on the way to
a dotted key. -/
inductive Origin where
  | header
  | passing
  | dotted
  deriving DecidableEq

/-- A document in the making. Inline values are closed; tables can grow. -/
inductive Node where
  | closed (value : Toml)
  | table (origin : Origin) (entries : List (String × Node))
  | tables (items : List (List (String × Node)))
  deriving Inhabited

abbrev Entries := List (String × Node)

/-- A key with the dotted path before it. -/
structure Key where
  path : List String
  last : String

/-- Replaces the entry of a key, or adds one. -/
def put (key : String) (node : Node) : Entries → Entries
  | [] => [(key, node)]
  | (k, n) :: rest => if k = key then (key, node) :: rest else (k, n) :: put key node rest

/-- Changes the table at the end of a path, with new tables on the way where there are none. Of an
array of tables the last one is entered. A dotted key enters no table that has a header. -/
def change (dotted : Bool) (f : Origin → Entries → Option Entries) :
    List String → Origin → Entries → Option Entries
  | [], origin, entries => f origin entries
  | key :: path, _, entries => do
    let node ← match entries.lookup key with
      | none =>
        let origin := if dotted then .dotted else .passing
        (change dotted f path origin []).map (.table origin)
      | some (.closed _) => none
      | some (.table origin inner) =>
        if dotted && origin == .header then none
        else (change dotted f path origin inner).map (.table origin)
      | some (.tables items) => do
        let last ← items.getLast?
        let last ← change dotted f path .header last
        pure (.tables (items.dropLast ++ [last]))
    pure (put key node entries)

/-- Gives a key of a table its value. The key must be new, and dotted keys and others do not share the
tables that hold them. -/
def assign (key : Key) (value : Toml) (entries : Entries) : Option Entries :=
  let enter (origin : Origin) (inner : Entries) : Option Entries :=
    if (origin == .dotted) == key.path.isEmpty || (inner.lookup key.last).isSome then none
    else some (put key.last (.closed value) inner)
  change (!key.path.isEmpty) enter key.path .header entries

def assignAll : List (Key × Toml) → Entries → Option Entries
  | [], entries => some entries
  | (key, value) :: rest, entries => (assign key value entries).bind (assignAll rest)

/-- A header with the keys under it. The header of an element of an array adds a table to it; any
other may only take up a table that was passed on the way to another header. -/
structure Section where
  isElement : Bool
  header : Key
  keys : List (Key × Toml)

def Section.add (s : Section) (root : Entries) : Option Entries :=
  let enter (_ : Origin) (inner : Entries) : Option Entries := do
    let node ← match s.isElement, inner.lookup s.header.last with
      | true, none => (assignAll s.keys []).map fun es => .tables [es]
      | true, some (.tables items) => (assignAll s.keys []).map fun es => .tables (items ++ [es])
      | false, none => (assignAll s.keys []).map (.table .header)
      | false, some (.table .passing old) => (assignAll s.keys old).map (.table .header)
      | _, _ => none
    pure (put s.header.last node inner)
  change false enter s.header.path .header root

mutual
def Node.value : Node → Toml
  | .closed value => value
  | .table _ entries => .table (Node.values entries)
  | .tables items => .array (Node.rows items)

def Node.values : List (String × Node) → List (String × Toml)
  | [] => []
  | (key, node) :: rest => (key, node.value) :: Node.values rest

def Node.rows : List (List (String × Node)) → List Toml
  | [] => []
  | entries :: rest => .table (Node.values entries) :: Node.rows rest
end

/-- The table that keys make, each given once. -/
def ofKeys (keys : List (Key × Toml)) : Option Toml :=
  (assignAll keys []).map fun entries => .table (Node.values entries)

/-- The table that a document makes: keys first, then sections. -/
def ofSections (keys : List (Key × Toml)) (sections : List Section) : Option Toml := do
  let root ← assignAll keys []
  let root ← sections.foldlM (fun root s => s.add root) root
  pure (.table (Node.values root))

end NamedQuery.Toml
