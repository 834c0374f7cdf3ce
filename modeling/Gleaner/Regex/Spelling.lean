import Gleaner.Regex.Basic

/-!
# The text of a pattern

Repetition binds tighter than sequence and sequence tighter than choice; the trees built by this
library have parentheses wherever that order would read them differently, so spelling adds none.
-/

namespace Gleaner

/-- What opens a group. -/
def GroupKind.opening : GroupKind → List Char
  | plain => ['(']
  | bundle => ['(', '?', ':']
  | named name => ['(', '?', 'P', '<'] ++ name.text.toList ++ ['>']

/-- The mark that makes a repetition lazy. -/
def Greed.mark : Greed → List Char
  | greedy => []
  | lazy => ['?']

/-- What opens an assertion about a neighbour. -/
def Side.opening : Side → Bool → List Char
  | before, true => ['(', '?', '<', '=']
  | before, false => ['(', '?', '<', '!']
  | after, true => ['(', '?', '=']
  | after, false => ['(', '?', '!']

namespace Regex

/-- The characters of a pattern's text. -/
def spell : Regex → List Char
  | empty => []
  | char set => set.spell
  | textStart => ['^']
  | textEnd => ['$']
  | look side wanted set => side.opening wanted ++ set.spell ++ [')']
  | seq first second => first.spell ++ second.spell
  | alt first second => first.spell ++ '|' :: second.spell
  | optional body => body.spell ++ ['?']
  | star greed body => body.spell ++ '*' :: greed.mark
  | plus greed body => body.spell ++ '+' :: greed.mark
  | group kind body => kind.opening ++ body.spell ++ [')']

/-- The text of a pattern. -/
def text (regex : Regex) : String :=
  String.ofList regex.spell

end Regex

end Gleaner
