import NamedQuery.Filter.Describe
import NamedQuery.Wire.Encode

namespace NamedQuery

open Wire (Bytes ColumnType Refusal Scalar)

/-- A value bound to a placeholder, of any kind that can be shown in logs and sent to a database. What
writes statements carries such values and asks nothing of them. -/
structure Param where
  /-- The value as it is shown in logs. -/
  describe : String
  /-- What is sent for a placeholder of some type. -/
  send : ColumnType → Except Refusal (Option Bytes)

namespace Param

/-- A value that is sent as one built-in type and as no other. -/
def ofScalar (describe : String) (scalar : Scalar) (bytes : Option Bytes) : Param where
  describe := describe
  send t := if t = .scalar scalar then .ok bytes else .error .wrongType

/-- A missing number. -/
def absent : Param :=
  ofScalar "None" .int8 none

def bool (b : Bool) : Param :=
  ofScalar (toString b) .bool (some [if b then 1 else 0])

def int32 (n : Int32) : Param :=
  ofScalar (toString n.toInt) .int4 (some (Wire.bigEndian 4 n.toUInt32.toNat))

def int64 (n : Int64) : Param :=
  ofScalar (toString n.toInt) .int8 (some (Wire.bigEndian 8 n.toUInt64.toNat))

def float (x : Float) : Param :=
  ofScalar (logFloats.write x) .float8 (some (Wire.bigEndian 8 x.toBits.toNat))

def text (s : String) : Param where
  describe := Text.quoted s
  send t := if t.isTextual then .ok (some (Wire.textBytes t s)) else .error .wrongType

/-- A text that might be missing. -/
def optionalText (s : String) : Param :=
  { text s with describe := s!"Some({Text.quoted s})" }

/-- Numbers of eight bytes each. -/
def int64s (ns : List Int64) : Param where
  describe := Text.bracketed (ns.map fun n => toString n.toInt)
  send t :=
    if t.acceptsList (· = .scalar .int8) then
      (Wire.sliceBytes t ns.length fun _ =>
        .ok (ns.map fun n => some (Wire.bigEndian 8 n.toUInt64.toNat))).map some
    else .error .wrongType

def filter (v : FilterValue) : Param where
  describe := v.describe
  send t := Wire.encodeChecked t v

instance : Inhabited Param := ⟨absent⟩

end Param

/-- Bound values in the order of their placeholders, as they are shown in logs. -/
def describeParams (params : Array Param) : String :=
  Text.bracketed (params.toList.map Param.describe)

end NamedQuery
