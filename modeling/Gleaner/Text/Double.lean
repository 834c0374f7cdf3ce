/-!
# Doubles

Finite doubles without a sign, and the decimals that stand for them. All is computed in natural
numbers: a double is a mantissa times a power of two, a product or a quotient is rounded to the
nearest double, and a decimal belongs to a double if it lies in the interval of numbers that are
rounded to it.
-/

namespace Gleaner

/-- The double `mantissa * 2 ^ exponent`. -/
structure Double where
  mantissa : Nat
  exponent : Int
deriving DecidableEq, Repr, Inhabited

namespace Double

/-- The quotient rounded to the nearest number, a half to the even one. -/
def roundDiv (num den : Nat) : Nat :=
  let quotient := num / den
  let twice := 2 * (num % den)
  if twice < den || (twice = den && quotient % 2 = 0) then quotient else quotient + 1

/-- A ratio divided by a power of two. -/
def shift (num den : Nat) : Int → Nat × Nat
  | .ofNat n => (num, den <<< n)
  | .negSucc n => (num <<< (n + 1), den)

def leastExponent : Int := -1074

def greatestExponent : Int := 971

/-- The least mantissa of a double that is not tiny. -/
def leastMantissa : Nat := 1 <<< 52

/-- The double nearest to a ratio, unless it would be infinite. -/
def nearest? (num den : Nat) : Option Double :=
  let guess : Int := (Nat.log2 num : Int) - Nat.log2 den - 53
  let exponent := [guess, guess + 1, guess + 2].find? fun exponent =>
    let (num, den) := shift num den exponent
    num / den < 2 * leastMantissa
  let exponent := max (exponent.getD guess) leastExponent
  let (num, den) := shift num den exponent
  let mantissa := roundDiv num den
  let double :=
    if mantissa < 2 * leastMantissa then ⟨mantissa, exponent⟩ else ⟨leastMantissa, exponent + 1⟩
  if double.exponent ≤ greatestExponent then some double else none

/-- A double as a ratio. -/
def ratio (double : Double) : Nat × Nat :=
  shift double.mantissa 1 (-double.exponent)

/-- The double nearest to a product. -/
def mul? (left right : Double) : Option Double :=
  nearest? (left.ratio.1 * right.ratio.1) (left.ratio.2 * right.ratio.2)

/-- The double nearest to a quotient. -/
def div? (left right : Double) : Option Double :=
  nearest? (left.ratio.1 * right.ratio.2) (left.ratio.2 * right.ratio.1)

/-! ### From decimals -/

/-- The exponent of the greatest power of ten within the range of doubles. -/
def greatestPower : Nat := 308

/-- The double nearest to a power of ten. -/
def tenTo? (n : Nat) : Option Double :=
  if n ≤ greatestPower then nearest? (Nat.pow 10 n) 1 else none

/-- A double times `10 ^ n`. Zero stays zero. -/
def mulTenTo? (double : Double) (n : Nat) : Option Double :=
  if double.mantissa = 0 then some double else (tenTo? n).bind double.mul?

/-- A double divided by the greatest power of ten so many times. -/
def divGreatest? : Nat → Double → Option Double
  | 0, double => some double
  | times + 1, double =>
    if double.mantissa = 0 then some double
    else ((tenTo? greatestPower).bind double.div?).bind (divGreatest? times)

/-- A double divided by `10 ^ n`, by the greatest power as long as `n` exceeds it. -/
def divTenTo? (double : Double) (n : Nat) : Option Double := do
  let times := (n - 1) / greatestPower
  let rest ← divGreatest? times double
  rest.div? (← tenTo? (n - times * greatestPower))

/-- The double of `significand * 10 ^ scale`. The significand, the power of ten and the result are
each rounded, so that the double need not be the nearest one. -/
def ofDecimal? (significand : Nat) (scale : Int) : Option Double :=
  (nearest? significand 1).bind fun double =>
    match scale with
    | .ofNat n => double.mulTenTo? n
    | .negSucc n => double.divTenTo? (n + 1)

/-! ### To decimals -/

/-- A decimal `digits * 10 ^ scale`. -/
structure Decimal where
  digits : Nat
  scale : Int
deriving DecidableEq, Repr, Inhabited

/-- A multiple of `10 ^ scale` that is rounded to a double, the nearest to it if there are two. -/
def onGrid? (double : Double) (scale : Int) : Option Decimal :=
  -- A quarter of the last place is a whole number of the unit `2 ^ (exponent - 2)`.
  let binary := double.exponent - 2
  let unit := Nat.pow 10 (-scale).toNat <<< binary.toNat
  let step := Nat.pow 10 scale.toNat <<< (-binary).toNat
  let value := 4 * double.mantissa * unit
  let isLeast := double.mantissa = leastMantissa && leastExponent < double.exponent
  let below := if isLeast then 1 else 2
  let low := (4 * double.mantissa - below) * unit
  let high := (4 * double.mantissa + 2) * unit
  let isEven := double.mantissa % 2 = 0
  let candidates := [roundDiv value step, value / step, value / step + 1]
  let found := candidates.find? fun digits =>
    let point := digits * step
    (low < point && point < high) || (isEven && (point = low || point = high))
  found.map fun digits => ⟨digits, scale⟩

/-- The number of decimal digits before the point of a double, or minus the zeros behind it. -/
def magnitude (double : Double) : Int :=
  let (num, den) := double.ratio
  if den ≤ num then (toString (num / den)).length
  else 1 - ((toString ((den - 1) / num)).length : Int)

/-- The shortest decimal that is rounded to a double other than zero. -/
def shortest (double : Double) : Decimal :=
  let top := magnitude double
  let grids := (List.range 18).map fun (count : Nat) => top - (count : Int)
  (grids.findSome? (onGrid? double)).getD ⟨0, 0⟩

/-- An exponent, always with its sign. -/
def exponentText (exponent : Int) : String :=
  if 0 ≤ exponent then "e+" ++ toString exponent else "e" ++ toString exponent

/-- The text of a decimal: positional from `1e-5` up to `1e16`, with an exponent otherwise. -/
def Decimal.text (decimal : Decimal) : String :=
  let digits := (toString decimal.digits).toList
  let count : Int := digits.length
  let point := count + decimal.scale
  let zeros (n : Int) := List.replicate n.toNat '0'
  if 0 ≤ decimal.scale && point ≤ 16 then
    String.ofList (digits ++ zeros decimal.scale ++ ['.', '0'])
  else if 0 < point && point ≤ 16 then
    String.ofList (digits.take point.toNat ++ '.' :: digits.drop point.toNat)
  else if -5 < point && point ≤ 0 then String.ofList ('0' :: '.' :: zeros (-point) ++ digits)
  else
    let fraction := match digits with
      | [digit] => [digit]
      | digit :: rest => digit :: '.' :: rest
      | [] => []
    String.ofList fraction ++ exponentText (point - 1)

/-- The text of a double: the shortest decimal that stands for it. -/
def text (double : Double) : String :=
  if double.mantissa = 0 then "0.0" else double.shortest.text

end Double

end Gleaner
