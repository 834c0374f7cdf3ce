import Gleaner.Text.Double

/-!
# JSON numbers

The parts of a written number and what it stands for: a 64-bit integer if it is written without
point and exponent and fits, a double otherwise.
-/

namespace Gleaner.Json

/-- The parts of a written number. -/
structure Numeral where
  negative : Bool
  whole : List Char
  fraction : Option (List Char)
  /-- The sign and the digits of the exponent. -/
  exponent : Option (List Char × List Char)
deriving DecidableEq, Repr, Inhabited

namespace Numeral

def literal (numeral : Numeral) : List Char :=
  (if numeral.negative then ['-'] else []) ++ numeral.whole
    ++ (match numeral.fraction with
      | some digits => '.' :: digits
      | none => [])
    ++ match numeral.exponent with
      | some (sign, digits) => 'e' :: sign ++ digits
      | none => []

/-- Adds decimal digits to a number as long as it fits into 64 bits. The digits are left over from
the first one on with which it does not. -/
def takeFitting (number : Nat) : List Char → Nat × List Char
  | [] => (number, [])
  | c :: rest =>
    let next := number * 10 + (c.toNat - '0'.toNat)
    if next < UInt64.size then takeFitting next rest else (number, c :: rest)

/-- The written exponent. A number whose exponent exceeds 64 bits is zero or out of range whatever
its further digits are. -/
def exponentValue (numeral : Numeral) : Int :=
  match numeral.exponent with
  | some (['-'], digits) => -((takeFitting 0 digits).1 : Int)
  | some (_, digits) => (takeFitting 0 digits).1
  | none => 0

/-- The 64-bit integer that a number is, if it is one. There is no integer minus zero. -/
def integer? (numeral : Numeral) : Option Int :=
  match numeral.fraction, numeral.exponent, takeFitting 0 numeral.whole with
  | none, none, (n, []) =>
    if !numeral.negative then some n
    else if 0 < n && n ≤ UInt64.size / 2 then some (-n)
    else none
  | _, _, _ => none

/-- The double that a number stands for, apart from its sign, if there is a finite one. Of the
digits only those are read that fit into 64 bits; others before the point still count as places,
those behind it are ignored. -/
def double? (numeral : Numeral) : Option Double :=
  let fraction := numeral.fraction.getD []
  let (whole, places) := takeFitting 0 numeral.whole
  let (significand, ignored) := takeFitting whole fraction
  let shift : Int := (places.length : Int) - (fraction.length - ignored.length : Nat)
  Double.ofDecimal? significand (shift + numeral.exponentValue)

end Numeral

end Gleaner.Json
