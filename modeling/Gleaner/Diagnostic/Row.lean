/-!
# Rows of a diagnostic

A diagnostic is drawn in rows. A row is a sequence of cells, each with a character and the ink it is
drawn in, and texts are put into it at columns. On a terminal each stretch of one ink stands between
the escape sequences that switch the ink on and off; without colours only the characters are
written.
-/

namespace Gleaner

/-- What a cell of a row is drawn in. -/
inductive Ink where
  | plain
  /-- The words of the message. -/
  | title
  /-- Line numbers and the rules beside the source. -/
  | rule
  /-- What points at the fault, and the name of the severity. -/
  | mark
deriving DecidableEq, Repr, Inhabited

namespace Ink

/-- The sequence of a display attribute. -/
def switch (code : String) : String :=
  "\x1b[" ++ code ++ "m"

def on : Ink → String
  | plain => ""
  | title => switch "1"
  | rule => switch "1" ++ switch "94"
  | mark => switch "1" ++ switch "91"

def off : Ink → String
  | plain => ""
  | title | rule | mark => switch "0"

end Ink

/-- A place of a row. -/
structure Cell where
  ink : Ink
  char : Char
deriving DecidableEq, Repr, Inhabited

/-- A row, as cells from left to right. -/
abbrev Row := List Cell

namespace Row

/-- A text in one ink. -/
def inked (ink : Ink) (text : List Char) : Row :=
  text.map (Cell.mk ink)

def blanks (count : Nat) : Row :=
  List.replicate count ⟨.plain, ' '⟩

/-- Puts a text into a row at a column, over what stands there. A row that does not reach the column
is filled up with blanks; no text leaves the row as it is. -/
def put (row : Row) (column : Nat) (ink : Ink) (text : List Char) : Row :=
  if text.isEmpty then row
  else row.take column ++ blanks (column - row.length) ++ inked ink text
    ++ row.drop (column + text.length)

/-- Replaces the cells from one column up to another by a text, if the row reaches both columns. -/
def replace (row : Row) (start stop : Nat) (ink : Ink) (text : List Char) : Row :=
  if start = stop || row.length < start || row.length < stop then row
  else row.take start ++ inked ink text ++ row.drop stop

/-- The stretches of a row that are drawn in one ink. -/
def stretches : Row → List (Ink × List Char)
  | [] => []
  | cell :: rest =>
    match stretches rest with
    | [] => [(cell.ink, [cell.char])]
    | (ink, text) :: others =>
      if cell.ink = ink then (ink, cell.char :: text) :: others
      else (cell.ink, [cell.char]) :: (ink, text) :: others

/-- The text of a row, with or without colours. -/
def text (colored : Bool) (row : Row) : String :=
  if colored then
    String.join (row.stretches.map fun (ink, text) => ink.on ++ String.ofList text ++ ink.off)
  else String.ofList (row.map Cell.char)

end Row

end Gleaner
