import Gleaner.Text.Runs

/-!
# Blank characters

The characters with the Unicode property `White_Space`, and the cutting of a text at them.
-/

namespace Gleaner

/-- The runs of characters with the property `White_Space`. -/
def blankRuns : List (Nat × Nat) :=
  [(0x9, 0xD), (0x20, 0x20), (0x85, 0x85), (0xA0, 0xA0), (0x1680, 0x1680), (0x2000, 0x200A),
    (0x2028, 0x2029), (0x202F, 0x202F), (0x205F, 0x205F), (0x3000, 0x3000)]

/-- Whether a character separates the values of a repeated capture. -/
def isBlank (c : Char) : Bool :=
  inRuns blankRuns c

/-- The pieces of a text between its blanks; `pending` holds the piece being read, last
character first. No piece is empty. -/
def blankFieldsFrom (pending : List Char) : List Char → List (List Char)
  | [] => if pending.isEmpty then [] else [pending.reverse]
  | c :: rest =>
    if isBlank c then
      if pending.isEmpty then blankFieldsFrom [] rest
      else pending.reverse :: blankFieldsFrom [] rest
    else blankFieldsFrom (c :: pending) rest

/-- The maximal runs of non-blank characters of a text, in order. -/
def blankFields (text : List Char) : List (List Char) :=
  blankFieldsFrom [] text

end Gleaner
