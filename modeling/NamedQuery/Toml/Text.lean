import NamedQuery.Json.Parse
import NamedQuery.Toml.Scalar

namespace NamedQuery.Toml

/-- Characters that may stand in a line: the tab, and all that are no control characters. -/
def isInline (c : Char) : Bool :=
  c == '\t' || (0x20 ≤ c.toNat && c != '\x7f')

def isSpace (c : Char) : Bool :=
  c == ' ' || c == '\t'

/-- The end of a line at the front of a text. -/
def newline? : List Char → Option (List Char)
  | '\n' :: rest => some rest
  | '\r' :: '\n' :: rest => some rest
  | _ => none

/-- A character given by its number, in so many digits. -/
def codePoint? (digits : Nat) (cs : List Char) : Option (Char × List Char) :=
  let (code, rest) := cs.splitAt digits
  if code.length = digits ∧ code.all isHexDigit then
    let n := code.foldl (fun (n : Nat) c => n * 16 + hexDigitValue c) 0
    if n.isValidChar then some (Char.ofNat n, rest) else none
  else none

/-- The character of an escape, after its backslash. -/
def escape? : List Char → Option (Char × List Char)
  | '"' :: rest => some ('"', rest)
  | '\\' :: rest => some ('\\', rest)
  | 'b' :: rest => some ('\x08', rest)
  | 'e' :: rest => some ('\x1b', rest)
  | 'f' :: rest => some ('\x0c', rest)
  | 'n' :: rest => some ('\n', rest)
  | 'r' :: rest => some ('\r', rest)
  | 't' :: rest => some ('\t', rest)
  | 'x' :: rest => codePoint? 2 rest
  | 'u' :: rest => codePoint? 4 rest
  | 'U' :: rest => codePoint? 8 rest
  | _ => none

/-- The rest of a text in double quotes on one line. -/
def scanBasic : Nat → List Char → Option (List Char × List Char)
  | 0, _ | _, [] => none
  | fuel + 1, c :: rest =>
    if c = '"' then some ([], rest)
    else if !isInline c then none
    else do
      let (c, rest) ← if c = '\\' then escape? rest else some (c, rest)
      let (cs, rest) ← scanBasic fuel rest
      pure (c :: cs, rest)

/-- The rest of a text in single quotes on one line; it has no escapes. -/
def scanLiteral : List Char → Option (List Char × List Char)
  | [] => none
  | c :: rest =>
    if c = '\'' then some ([], rest)
    else if !isInline c then none
    else (scanLiteral rest).map fun (cs, rest) => (c :: cs, rest)

/-- After a backslash at the end of a line: what follows the blanks and empty lines there. -/
def continuation? (cs : List Char) : Option (List Char) :=
  let rest := cs.dropWhile isSpace
  if (newline? rest).isSome then
    some (rest.dropWhile fun c => isSpace c || c == '\n' || c == '\r')
  else none

/-- The rest of a text in three quotes. A run of quotes closes it when there are three; two more may
belong to the text. -/
def scanLines (quote : Char) (escapes : Bool) : Nat → List Char → Option (List Char × List Char)
  | 0, _ | _, [] => none
  | fuel + 1, c :: rest =>
    if c = quote then
      let run := ((c :: rest).take 5).takeWhile (· == quote)
      if 3 ≤ run.length then some (run.drop 3, (c :: rest).drop run.length)
      else (scanLines quote escapes fuel rest).map fun (cs, rest) => (c :: cs, rest)
    else if escapes && c == '\\' then
      match continuation? rest with
      | some rest => scanLines quote escapes fuel rest
      | none => do
        let (c, rest) ← escape? rest
        let (cs, rest) ← scanLines quote escapes fuel rest
        pure (c :: cs, rest)
    else
      match newline? (c :: rest) with
      | some rest => (scanLines quote escapes fuel rest).map fun (cs, rest) => ('\n' :: cs, rest)
      | none =>
        if !isInline c then none
        else (scanLines quote escapes fuel rest).map fun (cs, rest) => (c :: cs, rest)

/-- A newline right after the opening quotes is no part of the text. -/
def skipFirstNewline (cs : List Char) : List Char :=
  (newline? cs).getD cs

/-- A text at the front, on one line or on several. -/
def scanText (cs : List Char) : Option (List Char × List Char) :=
  match cs with
  | '"' :: '"' :: '"' :: rest => scanLines '"' true cs.length (skipFirstNewline rest)
  | '\'' :: '\'' :: '\'' :: rest => scanLines '\'' false cs.length (skipFirstNewline rest)
  | '"' :: rest => scanBasic cs.length rest
  | '\'' :: rest => scanLiteral rest
  | _ => none

def isBare (c : Char) : Bool :=
  c.isAlphanum || c == '_' || c == '-'

/-- One part of a key: bare, or a text on one line. -/
def scanPart (cs : List Char) : Option (String × List Char) :=
  match cs with
  | '"' :: rest => (scanBasic cs.length rest).map fun (part, rest) => (String.ofList part, rest)
  | '\'' :: rest => (scanLiteral rest).map fun (part, rest) => (String.ofList part, rest)
  | _ =>
    let (part, rest) := cs.span isBare
    if part.isEmpty then none else some (String.ofList part, rest)

def skipSpace (cs : List Char) : List Char :=
  cs.dropWhile isSpace

/-- The parts of a key, one at least. -/
def scanParts : Nat → List Char → Option (List String × List Char)
  | 0, _ => none
  | fuel + 1, cs => do
    let (part, rest) ← scanPart cs
    match skipSpace rest with
    | '.' :: rest =>
      let (parts, rest) ← scanParts fuel (skipSpace rest)
      pure (part :: parts, rest)
    | rest => pure ([part], rest)

end NamedQuery.Toml
