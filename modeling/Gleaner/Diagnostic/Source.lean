import Gleaner.Text.Blank
import Gleaner.Text.Place
import Gleaner.Text.Width

/-!
# The source of a diagnostic

A diagnostic shows the text that a fault was found in. The text is cut into physical lines, which
end with a line feed or with a carriage return and a line feed, and a byte of it becomes a place: a
line, a number of characters and a number of columns before it. Characters that a terminal would
not show, or would obey, are replaced by ones that it shows.
-/

namespace Gleaner

/-- A physical line: its number, its characters without the line break, and the bytes from its
first up to the first of the next line. -/
structure SourceLine where
  number : Nat
  chars : List Char
  start : Nat
  stop : Nat
  breakSize : Nat
deriving DecidableEq, Repr, Inhabited

namespace SourceLine

/-- The lines of a text from byte `start` on; `pending` holds the characters of the line being
read, last first. -/
def cutFrom (number start : Nat) (pending : List Char) : List Char → List SourceLine
  | [] =>
    if pending.isEmpty then []
    else [⟨number, pending.reverse, start, start + byteLength pending, 0⟩]
  | c :: rest =>
    if c = '\n' then
      let stop := start + byteLength pending + 1
      let line := match pending with
        -- A carriage return before the line feed belongs to the break.
        | '\r' :: before => ⟨number, before.reverse, start, stop, 2⟩
        | _ => ⟨number, pending.reverse, start, stop, 1⟩
      line :: cutFrom (number + 1) stop [] rest
    else cutFrom number start (c :: pending) rest

/-- The lines of a text. An empty text has one empty line. -/
def cut (text : List Char) : List SourceLine :=
  if text.isEmpty then [⟨1, [], 0, 0, 0⟩] else cutFrom 1 0 [] text

/-- The line that holds a byte; bytes beyond the text belong to the last line. -/
def holding (lines : List SourceLine) (byte : Nat) : SourceLine :=
  ((lines.find? fun line => line.start ≤ byte && byte < line.stop).or lines.getLast?).getD default

/-- The line with a number. -/
def numbered? (lines : List SourceLine) (number : Nat) : Option SourceLine :=
  lines.find? fun line => line.number = number

end SourceLine

/-- Characters that have a picture in the block of control pictures. -/
def hasPicture (c : Char) : Bool :=
  (c.toNat < 0x20 && c ≠ '\t' && c ≠ '\n') || c.toNat = 0x7F

/-- Characters that change the direction of the text around them. -/
def isBidiControl (c : Char) : Bool :=
  (0x202A ≤ c.toNat && c.toNat ≤ 0x202E) || (0x2066 ≤ c.toNat && c.toNat ≤ 0x2069)

/-- How a character is shown. -/
def shownChar (c : Char) : List Char :=
  if c = '\t' then [' ', ' ', ' ', ' ']
  else if c.toNat = 0x7F then [Char.ofNat 0x2421]
  else if hasPicture c then [Char.ofNat (0x2400 + c.toNat)]
  else if c.toNat = 0x200D then []
  else if isBidiControl c then [Char.ofNat 0xFFFD]
  else [c]

def shown (text : List Char) : List Char :=
  text.flatMap shownChar

/-- Columns of a character as it is shown. -/
def shownWidth (c : Char) : Nat :=
  if c = '\t' then 4 else if hasPicture c || isBidiControl c then 1 else displayWidth c

/-- Columns of a text that is ready to be shown. -/
def columns (text : List Char) : Nat :=
  text.foldl (fun n c => n + shownWidth c) 0

/-- A place in a text: a line, and the characters and columns before the place on that line. -/
structure Place where
  line : Nat
  char : Nat
  column : Nat
deriving DecidableEq, Repr, Inhabited

namespace Place

/-- The characters of a text within its first `bytes` bytes. -/
def within (bytes : Nat) : List Char → List Char
  | [] => []
  | c :: rest => if c.utf8Size ≤ bytes then c :: within (bytes - c.utf8Size) rest else []

/-- The place of a byte on its line. A byte inside the line break comes one character later. -/
def ofByte (line : SourceLine) (byte : Nat) : Place :=
  let before := within (byte - line.start) line.chars
  let beyond := if byteLength line.chars < byte - line.start then 1 else 0
  ⟨line.number, before.length + beyond, columns before⟩

/-- The places at which a span starts and stops. A span over several lines that takes in the last
line break is shown one column longer, and an empty one as one column. -/
def ofSpan (lines : List SourceLine) (span : Span) : Place × Place :=
  let first := SourceLine.holding lines span.start
  let last := SourceLine.holding lines span.stop
  let start := ofByte first span.start
  -- An empty span lies on the line on which it starts.
  let stop := if span.start = span.stop then start else ofByte last span.stop
  if start.line = stop.line then
    if start.column = stop.column then (start, { stop with column := stop.column + 1 })
    else (start, stop)
  else if last.stop - last.breakSize < span.stop then
    (start, { stop with column := stop.column + 1 })
  else (start, stop)

end Place

end Gleaner
