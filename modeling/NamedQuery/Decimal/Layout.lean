import NamedQuery.Decimal.Shortest

namespace NamedQuery.Decimal

/-- How a float is laid out. Leading exponents from `least` to `most` are positional, with at least
one decimal; `plus` stands before any other exponent that is not negative. -/
structure Layout where
  tieUp : Bool
  least : Int
  most : Int
  plus : String
  nan : String
  infinity : String
  negativeInfinity : String

def zeros (n : Nat) : String :=
  String.ofList (List.replicate n '0')

def positional (digits : String) (leading : Int) : String :=
  let size := digits.length
  if leading < 0 then s!"0.{zeros (-leading - 1).toNat}{digits}"
  else if size ≤ leading + 1 then s!"{digits}{zeros (leading.toNat + 1 - size)}.0"
  else s!"{digits.take (leading.toNat + 1)}.{digits.drop (leading.toNat + 1)}"

def scientific (plus : String) (digits : String) (leading : Int) : String :=
  let mantissa := if digits.length = 1 then digits else s!"{digits.take 1}.{digits.drop 1}"
  let sign := if leading < 0 then "" else plus
  s!"{mantissa}e{sign}{leading}"

def Layout.write (l : Layout) (x : Float) : String :=
  match parts x with
  | .nan => l.nan
  | .infinite negative => if negative then l.negativeInfinity else l.infinity
  | .finite negative mantissa exponent =>
    let sign := if negative then "-" else ""
    if mantissa = 0 then s!"{sign}0.0"
    else
      let d := shortest l.tieUp mantissa exponent
      let digits := toString d.digits
      let leading := d.exponent + digits.length - 1
      if l.least ≤ leading ∧ leading ≤ l.most then s!"{sign}{positional digits leading}"
      else s!"{sign}{scientific l.plus digits leading}"

end NamedQuery.Decimal
