import NamedQuery.Bounded
import NamedQuery.Decimal.Scan
import NamedQuery.Json.Basic

namespace NamedQuery.Json

/-- The parts of a number as written. -/
structure Numeral where
  negative : Bool
  whole : List Char
  fraction : Option (List Char)
  exponent : Option (Bool × List Char)

/-- Digits, of which there must be one. -/
def scanDigits (cs : List Char) : Option (List Char × List Char) :=
  let (digits, rest) := cs.span Char.isDigit
  if digits.isEmpty then none else some (digits, rest)

def scanFraction : List Char → Option (Option (List Char) × List Char)
  | '.' :: rest => (scanDigits rest).map fun (digits, rest) => (some digits, rest)
  | cs => some (none, cs)

def scanExponent : List Char → Option (Option (Bool × List Char) × List Char)
  | [] => some (none, [])
  | c :: rest =>
    if c = 'e' ∨ c = 'E' then
      let (negative, digits) := Decimal.splitSign rest
      (scanDigits digits).map fun (digits, rest) => (some (negative, digits), rest)
    else some (none, c :: rest)

/-- A number at the front of a text. Its whole part has no leading zero. -/
def scanNumeral (cs : List Char) : Option (Numeral × List Char) := do
  let (negative, body) := match cs with
    | '-' :: rest => (true, rest)
    | _ => (false, cs)
  let (whole, rest) ← scanDigits body
  if whole.length > 1 && whole.head? == some '0' then none
  else
    let (fraction, rest) ← scanFraction rest
    let (exponent, rest) ← scanExponent rest
    pure (⟨negative, whole, fraction, exponent⟩, rest)

/-- Takes in digits as long as the number stays below `2 ^ 64`, and leaves the others. -/
def absorb : Nat → List Char → Nat × List Char
  | n, [] => (n, [])
  | n, c :: rest =>
    let next := n * 10 + Decimal.digitValue c
    if next < Nat.pow 2 64 then absorb next rest else (n, c :: rest)

def tenTo (n : Nat) : Float :=
  Float.ofScientific 1 false n

/-- Multiplies a float by a power of ten, in one step up to `10 ^ 308` and downwards in steps of
`10 ^ 308`. Nothing above the range of floats has a value. -/
def scale (x : Float) (exponent : Int) : Option Float :=
  if exponent.natAbs ≤ 308 then
    if exponent < 0 then some (x / tenTo exponent.natAbs)
    else
      let y := x * tenTo exponent.natAbs
      if y.isInf then none else some y
  else if x == 0 then some x
  else if 0 ≤ exponent then none
  else scale (x / tenTo 308) (exponent + 308)
termination_by exponent.natAbs

/-- A float from a whole significand and a decimal exponent. -/
def scaled (negative : Bool) (significand : Nat) (exponent : Int) : Json :=
  match scale (Float.ofNat significand) exponent with
  | none => .unreadable
  | some x => .float (if negative then -x else x)

/-- The largest exponent that is read as written. A larger one means zero or, with a plus sign and a
number other than zero, a number beyond every float. -/
def largestExponent : Nat := Nat.pow 2 31 - 1

/-- A whole number stays one in the range of 64 bits, signed or not; zero with a minus sign is a
float. The significand of a float is its digits as far as they fit 64 bits. -/
def Numeral.value (n : Numeral) : Json :=
  let (significand, overflow) := absorb 0 n.whole
  let isWhole := n.fraction.isNone && n.exponent.isNone && overflow.isEmpty
  if isWhole && !n.negative then .int significand
  else if isWhole && 0 < significand && significand ≤ Nat.pow 2 63 then .int (-significand)
  else
    let fraction := n.fraction.getD []
    let (significand, dropped) := absorb significand fraction
    let shift : Int := overflow.length - (fraction.length - dropped.length : Nat)
    match n.exponent with
    | none => scaled n.negative significand shift
    | some (down, digits) =>
      let e := Decimal.ofDigits digits
      if largestExponent < e then
        if significand ≠ 0 ∧ !down then .unreadable else scaled n.negative 0 0
      else scaled n.negative significand (if down then shift - e else shift + e)

end NamedQuery.Json
