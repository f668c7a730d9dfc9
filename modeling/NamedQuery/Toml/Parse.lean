import NamedQuery.Toml.Table
import NamedQuery.Toml.Text

namespace NamedQuery.Toml

/-- A key at the front of a text, with the blanks after it. -/
def scanKey (cs : List Char) : Option (Key × List Char) := do
  let (parts, rest) ← scanParts (cs.length + 1) cs
  let last ← parts.getLast?
  pure (⟨parts.dropLast, last⟩, rest)

/-- Past a comment, up to the end of its line. -/
def skipComment : List Char → Option (List Char)
  | '#' :: rest =>
    let rest := rest.dropWhile isInline
    if rest.isEmpty || (newline? rest).isSome then some rest else none
  | cs => some cs

/-- Past blanks, comments and line ends. -/
def skipLines : Nat → List Char → Option (List Char)
  | 0, _ => none
  | fuel + 1, cs => do
    let rest ← skipComment (skipSpace cs)
    match newline? rest with
    | some rest => skipLines fuel rest
    | none => some rest

def isPlain (c : Char) : Bool :=
  c.isAlphanum || c == '_' || c == '+' || c == '-' || c == '.' || c == ':'

/-- A value without quotes or brackets. A blank may part a date from its time. -/
def scanScalar (cs : List Char) : Option (Toml × List Char) :=
  let (word, rest) := cs.span isPlain
  match date? word, rest with
  | some [], ' ' :: c :: _ =>
    if c.isDigit then
      let (time, rest) := (rest.drop 1).span isPlain
      (scalar? (word ++ ' ' :: time)).map fun v => (v, rest)
    else (scalar? word).map fun v => (v, rest)
  | _, _ => (scalar? word).map fun v => (v, rest)

/-- Values nest to this depth. -/
def deepest : Nat := 80

mutual
/-- A value at the front of a text; `depth` counts the arrays and tables that are open. -/
def scanValue : Nat → Nat → List Char → Option (Toml × List Char)
  | 0, _, _ => none
  | fuel + 1, depth, cs =>
    match cs with
    | '[' :: rest =>
      if deepest ≤ depth then none
      else (scanItems fuel (depth + 1) rest).map fun (items, rest) => (.array items, rest)
    | '\x7b' :: rest =>
      if deepest ≤ depth then none
      else do
        let (keys, rest) ← scanFields fuel (depth + 1) rest
        let value ← ofKeys keys
        pure (value, rest)
    | '"' :: _ | '\'' :: _ => (scanText cs).map fun (t, rest) => (.text (String.ofList t), rest)
    | _ => scanScalar cs

/-- The rest of an array. A comma may follow the last item. -/
def scanItems : Nat → Nat → List Char → Option (List Toml × List Char)
  | 0, _, _ => none
  | fuel + 1, depth, cs => do
    let cs ← skipLines (cs.length + 1) cs
    match cs with
    | ']' :: rest => pure ([], rest)
    | _ =>
      let (item, rest) ← scanValue fuel depth cs
      let rest ← skipLines (rest.length + 1) rest
      match rest with
      | ']' :: rest => pure ([item], rest)
      | ',' :: rest =>
        let (items, rest) ← scanItems fuel depth rest
        pure (item :: items, rest)
      | _ => none

/-- The rest of a table in braces. A comma may follow the last entry. -/
def scanFields : Nat → Nat → List Char → Option (List (Key × Toml) × List Char)
  | 0, _, _ => none
  | fuel + 1, depth, cs => do
    let cs ← skipLines (cs.length + 1) cs
    match cs with
    | '\x7d' :: rest => pure ([], rest)
    | _ =>
      let (key, rest) ← scanKey cs
      let '=' :: rest := rest | none
      let (value, rest) ← scanValue fuel depth (skipSpace rest)
      let rest ← skipLines (rest.length + 1) rest
      match rest with
      | '\x7d' :: rest => pure ([(key, value)], rest)
      | ',' :: rest =>
        let (keys, rest) ← scanFields fuel depth rest
        pure ((key, value) :: keys, rest)
      | _ => none
end

/-- The end of a line, with a comment before it or not; also the end of the text. -/
def scanLineEnd (cs : List Char) : Option (List Char) := do
  let rest ← skipComment (skipSpace cs)
  if rest.isEmpty then some [] else newline? rest

/-- A header, with its brackets. -/
def scanHeader : List Char → Option (Bool × Key × List Char)
  | '[' :: '[' :: rest => do
    let (key, rest) ← scanKey (skipSpace rest)
    let ']' :: ']' :: rest := rest | none
    pure (true, key, rest)
  | '[' :: rest => do
    let (key, rest) ← scanKey (skipSpace rest)
    let ']' :: rest := rest | none
    pure (false, key, rest)
  | _ => none

/-- The keys up to the next header, and the sections from there on. -/
def scanSections : Nat → List Char → Option (List (Key × Toml) × List Section)
  | 0, _ => none
  | fuel + 1, cs => do
    let cs ← skipLines (cs.length + 1) cs
    match cs with
    | [] => pure ([], [])
    | '[' :: _ =>
      let (isElement, header, rest) ← scanHeader cs
      let rest ← scanLineEnd rest
      let (keys, sections) ← scanSections fuel rest
      pure ([], ⟨isElement, header, keys⟩ :: sections)
    | _ =>
      let (key, rest) ← scanKey cs
      let '=' :: rest := rest | none
      let (value, rest) ← scanValue (2 * rest.length + 2) 0 (skipSpace rest)
      let rest ← scanLineEnd rest
      let (keys, sections) ← scanSections fuel rest
      pure ((key, value) :: keys, sections)

/-- Reads a whole document as one table. A byte order mark may stand in front. -/
def parse (text : String) : Option Toml := do
  let cs := match text.toList with
    | '\ufeff' :: rest => rest
    | cs => cs
  let (keys, sections) ← scanSections (cs.length + 1) cs
  ofSections keys sections

end NamedQuery.Toml
