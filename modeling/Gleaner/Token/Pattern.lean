import Gleaner.Token.Basic

/-!
# Patterns of tokens

The pattern of a token alone, and of a token that has been given a group to keep its match in.
-/

namespace Gleaner

/-- A pattern, once or in the repeated form `repeated` as the quantity says. -/
def Quantity.choose (quantity : Quantity) (once repeated : Regex) : Regex :=
  match quantity with
  | .single => once
  | .oneOrMore => repeated

namespace Token

open Regex

/-- The pattern of one word of any content. -/
def wordPattern : Regex :=
  plus .lazy (char .wordChar)

/-- The pattern of a token without any group of its own. -/
def fragment : Token → Regex
  | optionalLine => empty
  | anything _ => star .lazy (char .inLine)
  | literal flags first rest =>
    flags.quantity.choose (Regex.literal (first :: rest))
      (plus .greedy (group .plain (Regex.literal (first :: rest))))
  | misc flags =>
    flags.quantity.choose wordPattern (plus .greedy (group .plain wordPattern))
  | number flags sign kind =>
    -- Repeated numerals stand apart: two of them without a gap would read as one word.
    flags.quantity.choose (Numeral.pattern kind sign)
      (Numeral.pattern kind sign ++
        star .greedy (group .plain (Spacing.separator .required ++ Numeral.pattern kind sign)))

end Token

/-- A token of a line, and the number of the group that keeps its match, if any. -/
structure PlacedToken where
  token : Token
  slot : Option Nat
deriving DecidableEq, Repr, Inhabited

namespace PlacedToken

def pattern (placed : PlacedToken) : Regex :=
  match placed.slot with
  | none => placed.token.fragment
  | some index => .group (.named (.slot index)) placed.token.fragment

end PlacedToken

/-- Whether a token is given a group, where groups are given at all. -/
def Token.needsGroup (token : Token) (allowCapture : Bool) : Bool :=
  token.capture && allowCapture

/-- The number `count` places behind another one. Groups are numbered by 64-bit words, so zero
follows the greatest number. -/
def groupAfter (number count : Nat) : Nat :=
  (number + count) % UInt64.size

/-- Gives groups to the capturing tokens of a line, numbered from `next` on. -/
def placeTokens (allowCapture : Bool) (next : Nat) : List Token → List PlacedToken
  | [] => []
  | token :: rest =>
    if token.needsGroup allowCapture then
      ⟨token, some next⟩ :: placeTokens allowCapture (groupAfter next 1) rest
    else ⟨token, none⟩ :: placeTokens allowCapture next rest

/-- The number of groups that `placeTokens` gives. -/
def groupCount (allowCapture : Bool) (tokens : List Token) : Nat :=
  tokens.countP fun token => token.needsGroup allowCapture

end Gleaner
