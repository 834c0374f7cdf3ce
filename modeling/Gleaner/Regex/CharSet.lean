import Gleaner.Text.Digit

/-!
# Character sets

The sets of characters that a pattern can ask for at one place, each with its members and its
spelling. A set knows how it is spelled because two spellings of one character occur: a literal
line feed stands for itself, the line feed between two lines is written as an escape.
-/

namespace Gleaner

/-- The characters between two ends, both included. -/
structure CharRange where
  first : Char
  last : Char
deriving DecidableEq, Repr, Inhabited

namespace CharRange

/-- The range of one character. -/
def only (c : Char) : CharRange :=
  ⟨c, c⟩

def has (range : CharRange) (c : Char) : Bool :=
  range.first.toNat ≤ c.toNat && c.toNat ≤ range.last.toNat

/-- A character inside a bracketed set: tab and line feed are escapes, others stand for
themselves. -/
def spellChar (c : Char) : List Char :=
  if c = '\t' then ['\\', 't'] else if c = '\n' then ['\\', 'n'] else [c]

def spell (range : CharRange) : List Char :=
  if range.first = range.last then spellChar range.first
  else spellChar range.first ++ '-' :: spellChar range.last

end CharRange

/-- The characters that mean something other than themselves in a pattern. -/
def metaChars : List Char :=
  ['\\', '.', '+', '*', '?', '(', ')', '|', '[', ']', '\x7b', '\x7d', '^', '$']

/-- A character of a literal text, behind a backslash where it would mean something else. -/
def escapeChar (c : Char) : List Char :=
  if metaChars.contains c then ['\\', c] else [c]

/-- A literal text as it stands in a pattern. -/
def escape (text : List Char) : List Char :=
  text.flatMap escapeChar

/-- The set of characters asked for at one place of a text. -/
inductive CharSet where
  /-- One character of a literal text. -/
  | exactly (c : Char)
  /-- The line feed between two lines. -/
  | lineBreak
  /-- Every character but the line feed. -/
  | inLine
  /-- Every decimal digit. -/
  | digit
  /-- The characters of some range. -/
  | oneOf (ranges : List CharRange)
  /-- The characters of no range. -/
  | noneOf (ranges : List CharRange)
deriving DecidableEq, Repr, Inhabited

namespace CharSet

/-- Whether a set holds a character. -/
def has : CharSet → Char → Bool
  | exactly wanted, c => c == wanted
  | lineBreak, c => c == '\n'
  | inLine, c => c != '\n'
  | digit, c => isDecimalDigit c
  | oneOf ranges, c => ranges.any fun range => range.has c
  | noneOf ranges, c => !ranges.any fun range => range.has c

/-- The pattern text of a set. -/
def spell : CharSet → List Char
  | exactly c => escapeChar c
  | lineBreak => ['\\', 'n']
  | inLine => ['.']
  | digit => ['\\', 'd']
  | oneOf ranges => '[' :: ranges.flatMap CharRange.spell ++ [']']
  | noneOf ranges => '[' :: '^' :: ranges.flatMap CharRange.spell ++ [']']

/-- Space and tab. -/
def gap : CharSet :=
  oneOf [.only ' ', .only '\t']

/-- The characters of a word: neither space, tab nor line feed. -/
def wordChar : CharSet :=
  noneOf [.only ' ', .only '\t', .only '\n']

end CharSet

end Gleaner
