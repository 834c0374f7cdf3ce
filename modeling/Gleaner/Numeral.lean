import Gleaner.Regex.Spelling

/-!
# Numerals

The written forms of numbers that a token can ask for. A numeral is a sign part and a magnitude;
its pattern says nothing about what stands around it, which is the concern of `WordBoundary`.
-/

namespace Gleaner

/-- Forms of a magnitude. -/
inductive NumberKind where
  /-- Digits alone. -/
  | integer
  /-- Digits with a point, and no exponent. -/
  | float
  /-- Digits with an exponent, and perhaps a point. -/
  | scientific
  /-- A float or a scientific magnitude. -/
  | decimal
  /-- Any magnitude. -/
  | general
deriving DecidableEq, Repr, Inhabited

/-- The signs that a numeral may bear. -/
inductive Sign where
  /-- `+` or no sign. -/
  | positive
  /-- `-`. -/
  | negative
  /-- Either sign or none. -/
  | any
deriving DecidableEq, Repr, Inhabited

namespace NumberKind

def all : List NumberKind :=
  [integer, float, scientific, decimal, general]

def code : NumberKind → Char
  | integer => 'i'
  | float => 'f'
  | scientific => 's'
  | decimal => 'd'
  | general => 'g'

def ofCode? (c : Char) : Option NumberKind :=
  all.find? fun kind => kind.code = c

end NumberKind

namespace Sign

def all : List Sign :=
  [positive, negative, any]

def code : Sign → Char
  | positive => '+'
  | negative => '-'
  | any => '.'

def ofCode? (c : Char) : Option Sign :=
  all.find? fun sign => sign.code = c

/-- The pattern of the sign part. -/
def lead : Sign → Regex
  | positive => .optional (.char (.oneOf [.only '+']))
  | negative => .char (.exactly '-')
  | any => .optional (.char (.oneOf [.only '+', .only '-']))

end Sign

namespace Numeral

open Regex

def digits : Regex := plus .greedy (char .digit)

def maybeDigits : Regex := star .greedy (char .digit)

def point : Regex := char (.exactly '.')

def exponent : Regex :=
  concat [char (.oneOf [.only 'd', .only 'e', .only 'D', .only 'E']),
    optional (char (.oneOf [.only '+', .only '-'])), digits]

def integer : Regex := digits

def float : Regex :=
  group .plain (alt (concat [digits, point, maybeDigits]) (concat [maybeDigits, point, digits]))

def scientific : Regex :=
  group .plain
    (alt (concat [digits, optional point, maybeDigits, exponent])
      (concat [maybeDigits, point, digits, exponent]))

/-- The pattern of a magnitude. Longer forms are tried first: the digits before an exponent are
themselves a float, or an integer. -/
def magnitude : NumberKind → Regex
  | .integer => integer
  | .float => float
  | .scientific => scientific
  | .decimal => group .plain (alt scientific float)
  | .general => group .plain (alt scientific (alt float integer))

/-- The pattern of a numeral. -/
def pattern (kind : NumberKind) (sign : Sign) : Regex :=
  sign.lead ++ magnitude kind

end Numeral

end Gleaner
