import NamedQuery.Decimal.Layout
import NamedQuery.Json.Basic

namespace NamedQuery.Json

/-- Floats keep a decimal point and go over to an exponent below `0.00001` and from `1e+16` on. A
value that is no number has no JSON form. -/
def floats : Decimal.Layout where
  tieUp := false
  least := -5
  most := 15
  plus := "+"
  nan := "null"
  infinity := "null"
  negativeInfinity := "null"

def hexPair (n : Nat) : String :=
  String.ofList [Nat.digitChar (n / 16), Nat.digitChar (n % 16)]

/-- Only what a string may not hold as it is gets escaped: the quote, the backslash and the first
thirty-two characters. -/
def escape (c : Char) : String :=
  match c with
  | '"' => "\\\""
  | '\\' => "\\\\"
  | '\n' => "\\n"
  | '\r' => "\\r"
  | '\t' => "\\t"
  | '\x08' => "\\b"
  | '\x0c' => "\\f"
  | _ => if c.toNat < 0x20 then "\\u00" ++ hexPair c.toNat else String.singleton c

def quote (text : String) : String :=
  text.foldl (fun out c => out ++ escape c) "\"" ++ "\""

mutual
/-- The text of a document, without blanks. -/
def render : Json → String
  | .null => "null"
  | .bool b => if b then "true" else "false"
  | .int n => toString n
  | .float x => floats.write x
  | .text s => quote s
  | .array items => "[" ++ ",".intercalate (renderItems items) ++ "]"
  | .object members => "\x7b" ++ ",".intercalate (renderMembers members) ++ "\x7d"
  | .unreadable => "null"

def renderItems : List Json → List String
  | [] => []
  | item :: rest => render item :: renderItems rest

def renderMembers : List (String × Json) → List String
  | [] => []
  | (name, value) :: rest => (quote name ++ ":" ++ render value) :: renderMembers rest
end

end NamedQuery.Json
