import NamedQuery.Decimal.Scan
import NamedQuery.Toml.Basic

namespace NamedQuery.Toml

/-- Digits with single underscores between them. -/
def isGrouped (isDigit : Char → Bool) : List Char → Bool
  | [] => false
  | [c] => isDigit c
  | c :: '_' :: d :: rest => isDigit c && isGrouped isDigit (d :: rest)
  | c :: d :: rest => isDigit c && isGrouped isDigit (d :: rest)

def ungroup (cs : List Char) : List Char :=
  cs.filter (· != '_')

/-- A whole decimal number has no leading zero. -/
def isWhole (cs : List Char) : Bool :=
  isGrouped Char.isDigit cs && (cs.length == 1 || cs.head? != some '0')

def isHexDigit (c : Char) : Bool :=
  c.isDigit || ('a' ≤ c && c ≤ 'f') || ('A' ≤ c && c ≤ 'F')

def isBelow (limit : Char) (c : Char) : Bool := '0' ≤ c && c < limit

def hexDigitValue (c : Char) : Nat :=
  if c.isDigit then c.toNat - '0'.toNat else c.toLower.toNat - 'a'.toNat + 10

/-- Integers have up to 128 bits, signed or not. -/
def integer (n : Int) : Toml :=
  if -Int.pow 2 127 ≤ n ∧ n < Int.pow 2 128 then .int n else .outOfRange

def radix? (base : Nat) (isDigit : Char → Bool) (digits : List Char) : Option Toml :=
  if isGrouped isDigit digits then
    let n : Nat := (ungroup digits).foldl (fun n c => n * base + hexDigitValue c) 0
    some (integer n)
  else none

def isExponent (cs : List Char) : Bool :=
  isGrouped Char.isDigit (Decimal.splitSign cs).2

/-- What follows the whole part of a float: a fraction, an exponent, or both. -/
def isFloatTail : List Char → Bool
  | '.' :: rest =>
    let (fraction, tail) := rest.span fun c => c.isDigit || c == '_'
    isGrouped Char.isDigit fraction &&
      match tail with
      | [] => true
      | c :: exponent => (c == 'e' || c == 'E') && isExponent exponent
  | c :: exponent => (c == 'e' || c == 'E') && isExponent exponent
  | [] => false

/-- A decimal number, whole or not. -/
def decimal? (cs : List Char) : Option Toml :=
  let (negative, body) := Decimal.splitSign cs
  let (whole, tail) := body.span fun c => c.isDigit || c == '_'
  if !isWhole whole then none
  else if tail.isEmpty then
    let n : Int := Decimal.ofDigits (ungroup whole)
    some (integer (if negative then -n else n))
  else if isFloatTail tail then
    (Decimal.readFloat (ungroup cs)).map fun x => if x.isInf then .outOfRange else .float x
  else none

def twoDigits? : List Char → Option (Nat × List Char)
  | a :: b :: rest =>
    if a.isDigit && b.isDigit then some (Decimal.ofDigits [a, b], rest) else none
  | _ => none

def isLeap (year : Nat) : Bool :=
  year % 4 == 0 && (year % 100 != 0 || year % 400 == 0)

def daysIn (year month : Nat) : Nat :=
  match month with
  | 2 => if isLeap year then 29 else 28
  | 4 | 6 | 9 | 11 => 30
  | _ => 31

/-- A date at the front of a text. -/
def date? : List Char → Option (List Char)
  | a :: b :: c :: d :: '-' :: rest =>
    if [a, b, c, d].all Char.isDigit then do
      let year := Decimal.ofDigits [a, b, c, d]
      let (month, rest) ← twoDigits? rest
      let '-' :: rest := rest | none
      let (day, rest) ← twoDigits? rest
      if 1 ≤ month ∧ month ≤ 12 ∧ 1 ≤ day ∧ day ≤ daysIn year month then some rest else none
    else none
  | _ => none

/-- A fraction of a second at the front of a text, if there is one. -/
def subsecond? : List Char → Option (List Char)
  | '.' :: rest =>
    let (digits, rest) := rest.span Char.isDigit
    if digits.isEmpty then none else some rest
  | cs => some cs

/-- A time of day at the front of a text; the seconds may be left out. -/
def time? (cs : List Char) : Option (List Char) := do
  let (hour, rest) ← twoDigits? cs
  let ':' :: rest := rest | none
  let (minute, rest) ← twoDigits? rest
  if hour > 23 ∨ minute > 59 then none
  else
    match rest with
    | ':' :: rest => do
      let (second, rest) ← twoDigits? rest
      if second > 60 then none else subsecond? rest
    | _ => some rest

/-- Nothing, or how far the time is from universal time. -/
def isOffset : List Char → Bool
  | [] => true
  | ['Z'] | ['z'] => true
  | c :: rest =>
    (c == '+' || c == '-') &&
      match twoDigits? rest with
      | some (hour, ':' :: rest) =>
        hour ≤ 23 && (match twoDigits? rest with
          | some (minute, []) => minute ≤ 59
          | _ => false)
      | _ => false

/-- A date, a time, or both with an offset. -/
def isMoment (cs : List Char) : Bool :=
  match date? cs with
  | some [] => true
  | some (c :: rest) =>
    (c == 'T' || c == 't' || c == ' ') && (time? rest).any isOffset
  | none => (time? cs).any List.isEmpty

/-- A value written without quotes or brackets. -/
def scalar? (cs : List Char) : Option Toml :=
  match String.ofList cs with
  | "true" => some (.bool true)
  | "false" => some (.bool false)
  | "inf" | "+inf" => some (.float (1.0 / 0.0))
  | "-inf" => some (.float (-1.0 / 0.0))
  | "nan" | "+nan" | "-nan" => some (.float (0.0 / 0.0))
  | _ =>
    match cs with
    | '0' :: 'x' :: digits => radix? 16 isHexDigit digits
    | '0' :: 'o' :: digits => radix? 8 (isBelow '8') digits
    | '0' :: 'b' :: digits => radix? 2 (isBelow '2') digits
    | _ => if isMoment cs then some .moment else decimal? cs

end NamedQuery.Toml
