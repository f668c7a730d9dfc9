import NamedQuery.Text.Hidden

namespace NamedQuery.Text

/-- A character inside double quotes. What could end the text or cannot be seen is escaped. -/
def escape (c : Char) : String :=
  match c with
  | '"' => "\\\""
  | '\\' => "\\\\"
  | '\n' => "\\n"
  | '\r' => "\\r"
  | '\t' => "\\t"
  | '\x00' => "\\0"
  | _ =>
    if isHidden c then "\\u\x7b" ++ String.ofList (Nat.toDigits 16 c.toNat) ++ "\x7d"
    else String.singleton c

/-- A text in double quotes. -/
def quoted (text : String) : String :=
  text.foldl (fun out c => out ++ escape c) "\"" ++ "\""

/-- Items between brackets, parted by commas. -/
def bracketed (items : List String) : String :=
  "[" ++ ", ".intercalate items ++ "]"

end NamedQuery.Text
