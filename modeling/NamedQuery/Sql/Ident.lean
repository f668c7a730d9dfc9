namespace NamedQuery.Sql

/-- Why a text is no identifier. -/
inductive IdentFault where
  | empty
  | nul
  | unclosed (text : String)
  | emptyQuoted
  | strayQuote (text : String)
  | badStart (char : Char) (text : String)
  | badChar (char : Char) (text : String)
  deriving DecidableEq, Repr

def IdentFault.message : IdentFault → String
  | .empty => "identifier cannot be empty"
  | .nul => "identifier cannot contain NUL character"
  | .unclosed text => s!"unclosed quoted identifier: {text}"
  | .emptyQuoted => "empty quoted identifier"
  | .strayQuote text => s!"unescaped quote in identifier: {text}"
  | .badStart char text => s!"invalid identifier start character '{char}' in '{text}'"
  | .badChar char text => s!"invalid character '{char}' in identifier '{text}'"

/-- One segment of a name. A quoted one holds the text between its quotes, with doubled quotes made
single. -/
inductive Ident where
  | plain (name : String)
  | quoted (name : String)
  deriving DecidableEq, Repr

def isIdentStart (c : Char) : Bool :=
  c == '_' || c.isAlpha

def isIdentChar (c : Char) : Bool :=
  c == '_' || c == '$' || c.isAlphanum

/-- Halves the quotes inside a quoted segment; absent when one of them stands alone. -/
def undouble : List Char → Option (List Char)
  | [] => some []
  | '"' :: '"' :: rest => (undouble rest).map ('"' :: ·)
  | c :: rest => if c = '"' then none else (undouble rest).map (c :: ·)

def double : List Char → List Char
  | [] => []
  | c :: rest => if c = '"' then '"' :: '"' :: double rest else c :: double rest

namespace Ident

def name : Ident → String
  | plain name => name
  | quoted name => name

/-- The text between the quotes of a quoted segment, given what follows the opening one. -/
def inner? (rest : List Char) : Option (List Char) :=
  if rest.getLast? = some '"' then some rest.dropLast else none

def ofQuoted (text : String) (rest : List Char) : Except IdentFault Ident :=
  match inner? rest with
  | none => .error (.unclosed text)
  | some [] => .error .emptyQuoted
  | some inner =>
    match undouble inner with
    | none => .error (.strayQuote text)
    | some name => .ok (.quoted (String.ofList name))

def ofPlain (text : String) (first : Char) (rest : List Char) : Except IdentFault Ident :=
  if !isIdentStart first then .error (.badStart first text)
  else
    match rest.find? (!isIdentChar ·) with
    | some char => .error (.badChar char text)
    | none => .ok (.plain text)

/-- Reads one segment: a plain one of ASCII letters, digits, `_` and `$` that starts with a letter or
`_`, or one in double quotes. -/
def parse (text : String) : Except IdentFault Ident :=
  match text.toList with
  | [] => .error .empty
  | first :: rest =>
    if '\x00' ∈ first :: rest then .error .nul
    else if first = '"' then ofQuoted text rest
    else ofPlain text first rest

def render : Ident → String
  | plain name => name
  | quoted name => "\"" ++ String.ofList (double name.toList) ++ "\""

end Ident
end NamedQuery.Sql
