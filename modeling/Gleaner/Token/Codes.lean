import Gleaner.Numeral

/-!
# Codes of a token

A token is written with one character for each of its decisions. Each kind of decision is a type
here, with the character that stands for each choice and the choice that a character stands for.
-/

namespace Gleaner

/-- What a token matches. -/
inductive Content where
  /-- Any part of a line. -/
  | any
  /-- A given text. -/
  | string
  /-- A numeral. -/
  | number
  /-- One word, whatever it is. -/
  | misc
  /-- Nothing: the whole line may be missing. -/
  | optionalLine
deriving DecidableEq, Repr, Inhabited

namespace Content

def all : List Content :=
  [any, string, number, misc, optionalLine]

def marker : Content → Char
  | any => '~'
  | string => '@'
  | number => '#'
  | misc => '&'
  | optionalLine => '?'

def ofMarker? (c : Char) : Option Content :=
  all.find? fun content => content.marker = c

/-- Whether spacing, capture and quantity can be chosen. -/
def takesFlags : Content → Bool
  | string | number | misc => true
  | any | optionalLine => false

end Content

/-- How many values a token stands for. -/
inductive Quantity where
  | single
  | oneOrMore
deriving DecidableEq, Repr, Inhabited

namespace Quantity

def all : List Quantity :=
  [single, oneOrMore]

def code : Quantity → Char
  | single => '.'
  | oneOrMore => '+'

def ofCode? (c : Char) : Option Quantity :=
  all.find? fun quantity => quantity.code = c

def isRepeated (quantity : Quantity) : Bool :=
  quantity = oneOrMore

end Quantity

/-- The gap between a token and the next one of its line. -/
inductive Spacing where
  | required
  | optional
  | prohibited
deriving DecidableEq, Repr, Inhabited

namespace Spacing

def all : List Spacing :=
  [required, optional, prohibited]

/-- The flag of a spacing; a required gap is written without one. -/
def flag? : Spacing → Option Char
  | required => none
  | optional => some 'o'
  | prohibited => some 'x'

def ofFlag? (c : Char) : Option Spacing :=
  all.find? fun spacing => spacing.flag? = some c

/-- The pattern of the gap. -/
def separator : Spacing → Regex
  | required => .plus .greedy (.char .gap)
  | optional => .star .greedy (.char .gap)
  | prohibited => .empty

end Spacing

end Gleaner
