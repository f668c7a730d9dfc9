import NamedQuery.Json.Number

namespace NamedQuery.Json

def isSpace (c : Char) : Bool :=
  c == ' ' || c == '\t' || c == '\n' || c == '\r'

def skipSpace (cs : List Char) : List Char :=
  cs.dropWhile isSpace

def hexValue (c : Char) : Option Nat :=
  if c.isDigit then some (c.toNat - '0'.toNat)
  else if 'a' ≤ c ∧ c ≤ 'f' then some (c.toNat - 'a'.toNat + 10)
  else if 'A' ≤ c ∧ c ≤ 'F' then some (c.toNat - 'A'.toNat + 10)
  else none

/-- The four digits of a unit escape, and what follows them. -/
def scanUnit : List Char → Option (Nat × List Char)
  | a :: b :: c :: d :: rest => do
    let a ← hexValue a
    let b ← hexValue b
    let c ← hexValue c
    let d ← hexValue d
    pure (((a * 16 + b) * 16 + c) * 16 + d, rest)
  | _ => none

def isHighSurrogate (n : Nat) : Bool := 0xD800 ≤ n && n < 0xDC00
def isLowSurrogate (n : Nat) : Bool := 0xDC00 ≤ n && n < 0xE000

/-- The character of a unit escape. Two surrogates make one character; one alone makes none. -/
def scanEscapedUnit (cs : List Char) : Option (Option Char × List Char) := do
  let (n, rest) ← scanUnit cs
  if isLowSurrogate n then pure (none, rest)
  else if isHighSurrogate n then
    match rest with
    | '\\' :: 'u' :: more =>
      let (m, after) ← scanUnit more
      if isLowSurrogate m then
        pure (some (Char.ofNat (0x10000 + (n - 0xD800) * 0x400 + (m - 0xDC00))), after)
      else pure (none, rest)
    | _ => pure (none, rest)
  else pure (some (Char.ofNat n), rest)

/-- The character of an escape, after its backslash. -/
def scanEscape : List Char → Option (Option Char × List Char)
  | '"' :: rest => some (some '"', rest)
  | '\\' :: rest => some (some '\\', rest)
  | '/' :: rest => some (some '/', rest)
  | 'b' :: rest => some (some '\x08', rest)
  | 'f' :: rest => some (some '\x0c', rest)
  | 'n' :: rest => some (some '\n', rest)
  | 'r' :: rest => some (some '\r', rest)
  | 't' :: rest => some (some '\t', rest)
  | 'u' :: rest => scanEscapedUnit rest
  | _ => none

/-- The rest of a string up to its closing quote. The text is absent when a surrogate stood alone. -/
def scanString : Nat → List Char → Option (Option (List Char) × List Char)
  | 0, _ => none
  | _ + 1, [] => none
  | fuel + 1, c :: rest =>
    if c = '"' then some (some [], rest)
    else if c.toNat < 0x20 then none
    else do
      let (char, rest) ← if c = '\\' then scanEscape rest else some (some c, rest)
      let (chars, rest) ← scanString fuel rest
      pure ((fun c cs => c :: cs) <$> char <*> chars, rest)

/-- Containers may be open to this depth; deeper ones have no value. -/
def deepest : Nat := 127

def container (depth : Nat) (value : Json) : Json :=
  if depth ≤ deepest then value else .unreadable

def literal (word : String) (value : Json) (cs : List Char) : Option (Json × List Char) :=
  if word.toList.isPrefixOf cs then some (value, cs.drop word.length) else none

mutual
/-- A value at the front of a text; `depth` counts the containers that are open with it. -/
def scanValue : Nat → Nat → List Char → Option (Json × List Char)
  | 0, _, _ => none
  | fuel + 1, depth, cs =>
    match cs with
    | '"' :: rest => do
      let (chars, rest) ← scanString fuel rest
      pure (chars.elim .unreadable fun cs => .text (String.ofList cs), rest)
    | '[' :: rest => do
      let (items, rest) ← match skipSpace rest with
        | ']' :: after => pure ([], after)
        | rest => scanItems fuel (depth + 1) rest
      pure (container depth (.array items), rest)
    | '\x7b' :: rest => do
      let (members, rest) ← match skipSpace rest with
        | '\x7d' :: after => pure (some [], after)
        | rest => scanMembers fuel (depth + 1) rest
      pure (members.elim .unreadable fun m => container depth (.object m), rest)
    | 'n' :: _ => literal "null" .null cs
    | 't' :: _ => literal "true" (.bool true) cs
    | 'f' :: _ => literal "false" (.bool false) cs
    | _ => (scanNumeral cs).map fun (n, rest) => (n.value, rest)

/-- The items of an array, one at least, up to its closing bracket. -/
def scanItems : Nat → Nat → List Char → Option (List Json × List Char)
  | 0, _, _ => none
  | fuel + 1, depth, cs => do
    let (item, rest) ← scanValue fuel depth cs
    match skipSpace rest with
    | ']' :: after => pure ([item], after)
    | ',' :: more =>
      let (items, rest) ← scanItems fuel depth (skipSpace more)
      pure (item :: items, rest)
    | _ => none

/-- The members of an object, one at least, up to its closing brace. They are absent when a name has
no value. -/
def scanMembers : Nat → Nat → List Char → Option (Option (List (String × Json)) × List Char)
  | 0, _, _ => none
  | fuel + 1, depth, cs =>
    match cs with
    | '"' :: rest => do
      let (name, rest) ← scanString fuel rest
      match skipSpace rest with
      | ':' :: rest =>
        let (value, rest) ← scanValue fuel depth (skipSpace rest)
        let member := name.map fun n => (String.ofList n, value)
        match skipSpace rest with
        | '\x7d' :: after => pure (member.map ([·]), after)
        | ',' :: more =>
          let (members, rest) ← scanMembers fuel depth (skipSpace more)
          pure ((fun m ms => m :: ms) <$> member <*> members, rest)
        | _ => none
      | _ => none
    | _ => none
end

/-- Reads a whole text as one document; nothing but blanks may stand around it. -/
def parse (text : String) : Option Json := do
  let cs := skipSpace text.toList
  let (value, rest) ← scanValue (2 * cs.length + 2) 1 cs
  if (skipSpace rest).isEmpty then pure value else none

end NamedQuery.Json
