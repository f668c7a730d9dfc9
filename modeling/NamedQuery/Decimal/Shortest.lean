namespace NamedQuery.Decimal

/-- A float taken apart: sign, and for a finite one `mantissa * 2 ^ exponent`. -/
inductive Parts where
  | nan
  | infinite (negative : Bool)
  | finite (negative : Bool) (mantissa : Nat) (exponent : Int)

def parts (x : Float) : Parts :=
  let bits := x.toBits.toNat
  let negative := bits / Nat.pow 2 63 == 1
  let biased : Nat := bits / Nat.pow 2 52 % Nat.pow 2 11
  let fraction := bits % Nat.pow 2 52
  if biased = 2047 then
    if fraction = 0 then .infinite negative else .nan
  else if biased = 0 then .finite negative fraction (-1074)
  else .finite negative (Nat.pow 2 52 + fraction) ((biased : Int) - 1075)

/-- A value and the ends of the interval of reals that round to it, over one denominator.
The ends belong to the interval when it is closed. -/
structure Rounding where
  low : Nat
  value : Nat
  high : Nat
  den : Nat
  closed : Bool

/-- Half a unit on either side, and a quarter below a power of two, where the units halve. -/
def rounding (mantissa : Nat) (exponent : Int) : Rounding :=
  let below := if mantissa = Nat.pow 2 52 ∧ exponent > -1074 then 1 else 2
  let scale := Nat.pow 2 (exponent - 2).toNat
  { low := (4 * mantissa - below) * scale
    value := 4 * mantissa * scale
    high := (4 * mantissa + 2) * scale
    den := Nat.pow 2 (2 - exponent).toNat
    closed := mantissa % 2 == 0 }

/-- The decimal `digits * 10 ^ exponent`. -/
structure Scaled where
  digits : Nat
  exponent : Int

namespace Rounding

/-- The unit of the grid of multiples of `10 ^ k`, and the factor that makes values comparable
with its multiples. -/
def grid (r : Rounding) (k : Int) : Nat × Nat :=
  (Nat.pow 10 k.toNat * r.den, Nat.pow 10 (-k).toNat)

def holds (r : Rounding) (d : Scaled) : Bool :=
  let (unit, factor) := r.grid d.exponent
  let point := d.digits * unit
  if r.closed then r.low * factor ≤ point && point ≤ r.high * factor
  else r.low * factor < point && point < r.high * factor

/-- The point of a grid that rounds to the value, the nearer one when both neighbours do. -/
def onGrid (r : Rounding) (tieUp : Bool) (k : Int) : Option Scaled :=
  let (unit, factor) := r.grid k
  let value := r.value * factor
  let c := value / unit
  let lower : Scaled := ⟨c, k⟩
  let upper : Scaled := ⟨c + 1, k⟩
  match r.holds lower, r.holds upper with
  | false, false => none
  | true, false => some lower
  | false, true => some upper
  | true, true =>
    match compare (2 * value) ((2 * c + 1) * unit) with
    | .lt => some lower
    | .gt => some upper
    | .eq => if tieUp || c % 2 == 1 then some upper else some lower

/-- The exponent of the leading decimal digit of the value. -/
def leading (r : Rounding) : Int :=
  if r.den ≤ r.value then (Nat.toDigits 10 (r.value / r.den)).length - 1
  else -(Nat.toDigits 10 ((r.den + r.value - 1) / r.value - 1)).length

end Rounding

/-- Moves trailing zeros of the digits into the exponent; `fuel` bounds their number. -/
def stripZeros : Nat → Scaled → Scaled
  | 0, d => d
  | fuel + 1, d => if d.digits % 10 = 0 then stripZeros fuel ⟨d.digits / 10, d.exponent + 1⟩ else d

/-- The fewest digits that read back as the value, the nearest to it of those. Seventeen are always
enough. -/
def shortest (tieUp : Bool) (mantissa : Nat) (exponent : Int) : Scaled :=
  let r := rounding mantissa exponent
  let e := r.leading
  let found := (List.range 17).findSome? fun (n : Nat) => r.onGrid tieUp (e - n)
  stripZeros 17 (found.getD ⟨0, 0⟩)

end NamedQuery.Decimal
