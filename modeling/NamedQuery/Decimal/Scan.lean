namespace NamedQuery.Decimal

def digitValue (c : Char) : Nat := c.toNat - '0'.toNat

/-- The number that a row of decimal digits stands for. -/
def ofDigits (cs : List Char) : Nat :=
  cs.foldl (fun n c => n * 10 + digitValue c) 0

/-- A sign in front of a number, read as "is it a minus"; no sign counts as plus. -/
def splitSign : List Char → Bool × List Char
  | '+' :: rest => (false, rest)
  | '-' :: rest => (true, rest)
  | cs => (false, cs)

/-- An optional sign and at least one digit. -/
def readInt (cs : List Char) : Option Int :=
  let (negative, digits) := splitSign cs
  if digits.isEmpty || digits.any (!·.isDigit) then none
  else
    let n : Int := ofDigits digits
    some (if negative then -n else n)

/-- The float nearest to `digits * 10 ^ exponent`. Beyond the range of floats the answer is infinity
or zero, settled from the position of the leading digit alone. -/
def nearest (digits : Nat) (exponent : Int) : Float :=
  if digits = 0 then 0.0
  else
    let leading := exponent + (Nat.toDigits 10 digits).length
    if leading > 310 then 1.0 / 0.0
    else if leading < -330 then 0.0
    else Float.ofScientific digits (exponent < 0) exponent.natAbs

/-- The exponent after an `e`: an optional sign and at least one digit. Nothing at all is zero. -/
def readExponent : List Char → Option Int
  | [] => some 0
  | c :: rest => if c = 'e' ∨ c = 'E' then readInt rest else none

/-- Digits with at most one point in or around them, and an optional exponent; also the words for
infinity and for "not a number", in any case. -/
def readFloat (cs : List Char) : Option Float :=
  let (negative, body) := splitSign cs
  let signed (x : Float) : Float := if negative then -x else x
  let word := body.map Char.toLower
  if word = "inf".toList ∨ word = "infinity".toList then some (signed (1.0 / 0.0))
  else if word = "nan".toList then some (0.0 / 0.0)
  else
    let (whole, afterWhole) := body.span Char.isDigit
    let (fraction, rest) := match afterWhole with
      | '.' :: more => more.span Char.isDigit
      | _ => ([], afterWhole)
    if whole.isEmpty && fraction.isEmpty then none
    else (readExponent rest).map fun e =>
      signed (nearest (ofDigits (whole ++ fraction)) (e - fraction.length))

end NamedQuery.Decimal
