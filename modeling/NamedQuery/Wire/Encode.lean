import NamedQuery.Filter.Value
import NamedQuery.Wire.ColumnType

namespace NamedQuery.Wire

abbrev Bytes := List UInt8

/-- The last `width` bytes of a number, the highest first. -/
def bigEndian : Nat → Nat → Bytes
  | 0, _ => []
  | width + 1, n => UInt8.ofNat (n / Nat.pow 256 width) :: bigEndian width n

theorem length_bigEndian (width n : Nat) : (bigEndian width n).length = width := by
  induction width with
  | zero => rfl
  | succ width ih => simp [bigEndian, ih]

/-- Why a value is not sent as a type. -/
inductive Refusal where
  | wrongType
  /-- A number, or the length of a list or of an element, does not fit its bytes. -/
  | outOfRange
  | object (type : String)
  /-- A reason that no filter value has, of a value of another kind. -/
  | custom (reason : String)
  /-- The program stops where it relies on a check that was not made. -/
  | panic (message : String)
  deriving DecidableEq, Repr

namespace ColumnType

/-- Types of an extension for labels, whose texts start with a version. -/
def isTree (t : ColumnType) : Bool :=
  t.label.name == "ltree" || t.label.name == "lquery" || t.label.name == "ltxtquery"

/-- Types that texts are sent as: some built-in ones, and others by their name. -/
def isTextual (t : ColumnType) : Bool :=
  match t with
  | scalar .varchar | scalar .text | scalar .bpchar | scalar .name | scalar .unknown => true
  | _ => t.label.name == "citext" || t.isTree

/-- Some filter value other than null can be sent as the type. -/
def accepts : ColumnType → Bool
  | array _ _ _ member => member.accepts
  | scalar _ => true
  | t => t.isTextual

/-- A list can be sent as the type: an array, whose items can be sent as its members. -/
def acceptsList (accepts : ColumnType → Bool) : ColumnType → Bool
  | array _ _ _ member => accepts member
  | _ => false

end ColumnType

/-- The bytes of a text, after a version where the type asks for one. -/
def textBytes (t : ColumnType) (s : String) : Bytes :=
  (if t.isTree then [1] else []) ++ s.toUTF8.data.toList

/-- An element with its length in front; null has the length minus one and no bytes. -/
def elementBytes : Option Bytes → Bytes
  | none => bigEndian 4 (Nat.pow 2 32 - 1)
  | some bytes => bigEndian 4 bytes.length ++ bytes

/-- An array of one dimension: the number of dimensions, whether an element is null, the type of the
elements, their number, the first index, and the elements. -/
def arrayBytes (oid first : Nat) (elements : List (Option Bytes)) : Bytes :=
  bigEndian 4 1 ++ bigEndian 4 (if elements.any Option.isNone then 1 else 0) ++ bigEndian 4 oid ++
    bigEndian 4 elements.length ++ bigEndian 4 first ++ elements.flatMap elementBytes

def intBytes (t : ColumnType) (n : Int64) : Except Refusal Bytes :=
  match t with
  | .scalar .int2 =>
    match int16? n.toInt with
    | some n => .ok (bigEndian 2 n.toUInt16.toNat)
    | none => .error .outOfRange
  | .scalar .int4 =>
    match int32? n.toInt with
    | some n => .ok (bigEndian 4 n.toUInt32.toNat)
    | none => .error .outOfRange
  | .scalar .int8 => .ok (bigEndian 8 n.toUInt64.toNat)
  | .scalar .float4 => .ok (bigEndian 4 n.toFloat32.toBits.toNat)
  | .scalar .float8 => .ok (bigEndian 8 n.toFloat.toBits.toNat)
  | _ => .error .wrongType

def floatBytes (t : ColumnType) (x : Float) : Except Refusal Bytes :=
  match t with
  | .scalar .float4 => .ok (bigEndian 4 x.toFloat32.toBits.toNat)
  | .scalar .float8 => .ok (bigEndian 8 x.toBits.toNat)
  | _ => .error .wrongType

/-- Lengths are signed words of four bytes, so what is counted has to stay below this. -/
def lengthLimit : Nat := Nat.pow 2 31

/-- An element, if there is room for its length. -/
def measured : Option Bytes → Except Refusal (Option Bytes)
  | none => .ok none
  | some bytes => if bytes.length < lengthLimit then .ok (some bytes) else .error .outOfRange

/-- A list of so many items as an array, with what is sent for them as its members. The type is relied on
to be an array. -/
def sliceBytes (t : ColumnType) (count : Nat)
    (elements : ColumnType → Except Refusal (List (Option Bytes))) : Except Refusal Bytes :=
  match t with
  | .array _ _ first member =>
    if count < lengthLimit then (elements member).map (arrayBytes member.oid first)
    else .error .outOfRange
  | _ => .error (.panic "expected array type")

mutual
/-- A value as it is sent for a type; null is sent as no bytes at all and fits every type. -/
def encode (t : ColumnType) : FilterValue → Except Refusal (Option Bytes)
  | .null => .ok none
  | .bool b => if t = .scalar .bool then .ok (some [if b then 1 else 0]) else .error .wrongType
  | .int n => (intBytes t n).map some
  | .float x => (floatBytes t x).map some
  | .text s => if t.isTextual then .ok (some (textBytes t s)) else .error .wrongType
  | .list items =>
    if t.acceptsList ColumnType.accepts then
      (sliceBytes t items.length fun member => encodeItems member items).map some
    else .error .wrongType
  | .map _ => .error (.object t.label.display)

def encodeItems (t : ColumnType) : List FilterValue → Except Refusal (List (Option Bytes))
  | [] => .ok []
  | item :: rest => do
    let element ← encode t item
    let element ← measured element
    let elements ← encodeItems t rest
    .ok (element :: elements)
end

/-- Sends a value only where the type accepts some value at all. -/
def encodeChecked (t : ColumnType) (v : FilterValue) : Except Refusal (Option Bytes) :=
  if t.accepts then encode t v else .error .wrongType

end NamedQuery.Wire
