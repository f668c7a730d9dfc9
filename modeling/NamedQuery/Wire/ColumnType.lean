namespace NamedQuery.Wire

/-- The built-in types that single values can be sent as. -/
inductive Scalar where
  | bool
  | int2
  | int4
  | int8
  | float4
  | float8
  | varchar
  | text
  | bpchar
  | name
  | unknown
  deriving DecidableEq, Repr

def Scalar.all : List Scalar :=
  [.bool, .int2, .int4, .int8, .float4, .float8, .varchar, .text, .bpchar, .name, .unknown]

def Scalar.word : Scalar → String
  | bool => "bool"
  | int2 => "int2"
  | int4 => "int4"
  | int8 => "int8"
  | float4 => "float4"
  | float8 => "float8"
  | varchar => "varchar"
  | text => "text"
  | bpchar => "bpchar"
  | name => "name"
  | unknown => "unknown"

/-- The number by which the database knows the type. -/
def Scalar.oid : Scalar → Nat
  | bool => 16
  | int2 => 21
  | int4 => 23
  | int8 => 20
  | float4 => 700
  | float8 => 701
  | varchar => 1043
  | text => 25
  | bpchar => 1042
  | name => 19
  | unknown => 705

/-- The number of the built-in array of the type, where there is one. -/
def Scalar.arrayOid? : Scalar → Option Nat
  | bool => some 1000
  | int2 => some 1005
  | int4 => some 1007
  | int8 => some 1016
  | float4 => some 1021
  | float8 => some 1022
  | varchar => some 1015
  | text => some 1009
  | bpchar => some 1014
  | name => some 1003
  | unknown => none

structure TypeName where
  schema : String
  name : String
  deriving DecidableEq, Repr

/-- The name, with its schema unless it is one of those searched anyway. -/
def TypeName.display (n : TypeName) : String :=
  if n.schema = "public" ∨ n.schema = "pg_catalog" then n.name else s!"{n.schema}.{n.name}"

/-- The type of a column or placeholder. A type of the user's own differs from every built-in one,
even from one of the same name. -/
inductive ColumnType where
  | scalar (type : Scalar)
  /-- A built-in type that no filter value can be sent as. -/
  | unbound (name : String)
  /-- `first` is the index of the first element. -/
  | array (label : TypeName) (oid : Nat) (first : Nat) (member : ColumnType)
  | custom (label : TypeName) (oid : Nat)
  | domain (label : TypeName) (oid : Nat) (base : ColumnType)
  deriving DecidableEq, Repr

namespace ColumnType

def label : ColumnType → TypeName
  | scalar type => ⟨"pg_catalog", type.word⟩
  | unbound name => ⟨"pg_catalog", name⟩
  | array label .. | custom label _ | domain label .. => label

/-- A type that cannot be sent has no need of a number. -/
def oid : ColumnType → Nat
  | scalar type => type.oid
  | unbound _ => 0
  | array _ oid _ _ | custom _ oid | domain _ oid _ => oid

def builtinArray (name : String) (oid : Nat) (first : Nat) (member : ColumnType) : ColumnType :=
  .array ⟨"pg_catalog", name⟩ oid first member

def int2vector : ColumnType :=
  builtinArray "int2vector" 22 0 (.scalar .int2)

/-- The built-in types that filter values can be sent as. -/
def builtins : List ColumnType :=
  Scalar.all.map .scalar ++
  Scalar.all.filterMap (fun s => s.arrayOid?.map fun oid =>
    builtinArray s!"_{s.word}" oid 1 (.scalar s)) ++
  [int2vector, builtinArray "_int2vector" 1006 1 int2vector]

/-- The built-in type of a name. -/
def ofName (name : String) : ColumnType :=
  (builtins.find? (·.label.name == name)).getD (.unbound name)

end ColumnType
end NamedQuery.Wire
