namespace NamedQuery.Sql

/-- Puts a character in front of the first part. -/
def consFirst (c : Char) : List (List Char) → List (List Char)
  | [] => [[c]]
  | part :: parts => (c :: part) :: parts

/-- The parts between the dots that stand outside double quotes; `quoted` says whether the text
starts inside them. -/
def splitDots (quoted : Bool) : List Char → List (List Char)
  | [] => [[]]
  | c :: rest =>
    if c = '.' ∧ !quoted then [] :: splitDots quoted rest
    else consFirst c (splitDots (if c = '"' then !quoted else quoted) rest)

/-- The segments of a dotted name. -/
def segments (text : String) : List String :=
  (splitDots false text.toList).map String.ofList

end NamedQuery.Sql
