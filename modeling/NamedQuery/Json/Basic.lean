namespace NamedQuery

/-- A JSON document. An object keeps its members as written, in their order, repeated names
included. -/
inductive Json where
  | null
  | bool (value : Bool)
  | int (value : Int)
  | float (value : Float)
  | text (value : String)
  | array (items : List Json)
  | object (members : List (String × Json))
  /-- A well-formed part of a text that stands for no value, such as a number beyond every float.
  It may be skipped but not read. -/
  | unreadable
  deriving Inhabited

end NamedQuery
