import Gleaner.Diagnostic.Window
import Gleaner.Fault

/-!
# Diagnostics

The drawing of a fault: its message and, if it has a place, the source around that place with the
offending part marked. A part of one line is underlined with carets. A part of several lines is
held together by a bracket on the left, from a corner at its start to a caret at its end; of a long
part only the first lines and the last ones are shown.
-/

namespace Gleaner

/-- What is drawn for a fault with a place. -/
structure Diagnostic where
  message : String
  label : String
  path? : Option String
  location : Location
deriving DecidableEq, Repr, Inhabited

/-- The words beside the mark. -/
def Fault.label : Fault → String
  | .badToken _ _ => "not a valid token"
  | .badLine cause _ => cause.message
  | fault => fault.message

namespace Diagnostic

/-- An empty part of a line is widened by a byte, if there is one. -/
def widened (location : Location) : Span :=
  let span := location.span
  if span.start = span.stop then
    ⟨span.start, min (span.start + 1) (byteLength location.line.toList)⟩
  else span

/-- The role of a source line in the drawing of a part of several lines. -/
inductive Role where
  | first
  | middle
  | last
deriving DecidableEq, Repr, Inhabited

/-- Lines of no interest at the end of what is shown of a part. -/
def isIdle (line : List Char) : Bool :=
  let text := ((line.dropWhile isBlank).reverse.dropWhile isBlank).reverse
  -- Comments with a third slash or an exclamation mark are documentation, which is of interest.
  let comment := "//".toList.isPrefixOf text
    && !("///".toList.isPrefixOf text || "//!".toList.isPrefixOf text)
  comment || [[], ['\x7b'], ['\x7d'], ['('], [')'], ['['], [']']].contains text

/-- The lines from `first` to `last` that are shown: up to three behind the first one, without idle
lines at their end, and the last ones. -/
def shownLines (lines : List SourceLine) (first last : Nat) : List (Nat × Role) :=
  let idle number := (SourceLine.numbered? lines number).any fun line => isIdle line.chars
  let middle := min (first + 4) last
  let early := (List.range' (first + 1) (middle - (first + 1))).reverse.dropWhile idle
  -- The line before the last one is shown if the early ones do not reach it and it is not idle.
  let late := if middle < last - 1 && !idle (last - 1) then [last - 1] else []
  let between := (early.reverse ++ late).map fun number => (number, Role.middle)
  (first, .first) :: between ++ [(last, .last)]

/-- Columns of the line numbers. A line break at the end of what is drawn begins no line. -/
def numberWidth (source : List Char) (span : Span) : Nat :=
  let drawn := Place.within span.stop source
  let breaks := drawn.countP fun c => c = '\n'
  -- What is drawn ends inside a line, or right behind a break.
  let lines := if drawn.getLast?.any fun c => c ≠ '\n' then breaks + 1 else breaks
  (toString (max 1 lines)).length

/-- The frame that all rows of the source are drawn in. -/
structure Frame where
  lines : List SourceLine
  numberWidth : Nat
  /-- The column at which the source begins. -/
  margin : Nat
  window : Window
deriving Repr, Inhabited

namespace Frame

def rule (frame : Frame) : Nat :=
  frame.numberWidth + 1

/-- The column of the bracket that holds several lines together. -/
def bracket (frame : Frame) : Nat :=
  frame.numberWidth + 3

/-- The column at which a column of the source is drawn, if so many are missing on the left. -/
def column (frame : Frame) (column missing : Nat) : Nat :=
  frame.margin + column - missing

/-- A row without a line number. -/
def unnumbered (frame : Frame) : Row :=
  Row.put [] frame.rule .rule ['|']

/-- A line of the source, and the columns that are missing on its left. -/
def sourceRow (frame : Frame) (number : Nat) : Row × Nat :=
  let digits := (toString number).toList
  let padded := List.replicate (frame.numberWidth - digits.length) ' ' ++ digits
  let row := (Row.put [] 0 .rule padded).put frame.rule .rule ['|']
  let chars := ((SourceLine.numbered? frame.lines number).map SourceLine.chars).getD []
  frame.window.draw row frame.margin chars

/-- A line of the source beside the bracket. -/
def heldRow (frame : Frame) (number : Nat) (mark : Char) : Row :=
  (frame.sourceRow number).1.put frame.bracket .mark [mark]

/-- The number of columns from which on marks are too long to be drawn. -/
def longest (frame : Frame) : Nat :=
  max (2 * frame.window.width) 10

/-- The columns that are kept at both ends of long marks. -/
def kept (frame : Frame) : Nat :=
  max (frame.window.width / 3) 5

/-- The drawing of a part of one line. Of a long part the middle is left out. -/
def singleRows (frame : Frame) (start stop : Place) (label : List Char) : List Row :=
  let (source, missing) := frame.sourceRow start.line
  let first := frame.column start.column missing
  let last := frame.column stop.column missing
  let length := stop.column - start.column
  let marks := (frame.unnumbered.put first .mark (List.replicate length '^')).put
    (frame.column (stop.column + 1) missing) .mark label
  -- Both rows lose the same columns, so that the marks stay below their source.
  if frame.longest < length then
    [source, marks].map fun row =>
      row.replace (first + frame.kept) (last - frame.kept) .rule Window.dots
  else [source, marks]

/-- Whether nothing but blanks is shown before a part. -/
def startsLine (frame : Frame) (start : Place) : Bool :=
  ((SourceLine.numbered? frame.lines start.line).map fun line =>
    ((shown line.chars).take start.column).all isBlank).getD true

/-- The row that leads from the bracket to a caret, with `corner` at the bracket. -/
def pointerRow (frame : Frame) (corner : Char) (caret : Nat) : Row :=
  let line := List.replicate (caret - (frame.bracket + 1)) '_'
  (frame.unnumbered.put frame.bracket .mark (corner :: line)).put caret .mark ['^']

/-- The drawing of one line of a part of several lines. -/
def bracketRows (frame : Frame) (start stop : Place) (label : List Char) (number : Nat) :
    Role → List Row
  | .first =>
    -- Without anything before it, the part is drawn from the edge on, and needs no caret.
    if frame.startsLine start then [frame.heldRow number '/']
    else
      let (source, missing) := frame.sourceRow number
      [source, frame.pointerRow ' ' (frame.column start.column missing)]
  | .middle => [frame.heldRow number '|']
  | .last =>
    let missing := (frame.sourceRow number).2
    let labelColumn := frame.column (max 1 stop.column + 1) missing
    [frame.heldRow number '|',
      -- The caret stands below the last character of the part.
      (frame.pointerRow '|' (frame.column (stop.column - 1) missing)).put labelColumn .mark label]

/-- What is drawn between two shown lines: the line between them, or dots for more than one. -/
def gapRows (frame : Frame) (number next : Nat) : List Row :=
  if next = number + 2 then [frame.heldRow (number + 1) '|']
  else if number + 2 < next then
    [(Row.put [] 0 .rule Window.dots).put frame.bracket .mark ['|']]
  else []

/-- The drawing of a part of several lines. -/
def multipleRows (frame : Frame) (start stop : Place) (label : List Char) :
    List (Nat × Role) → List Row
  | [] => []
  | [(number, role)] => frame.bracketRows start stop label number role
  | (number, role) :: (next, nextRole) :: rest =>
    frame.bracketRows start stop label number role ++ frame.gapRows number next
      ++ multipleRows frame start stop label ((next, nextRole) :: rest)

end Frame

/-- The least indentation of some lines that are not blank. -/
def indentation (lines : List SourceLine) : Nat :=
  let indents := (lines.filter fun line => line.chars.any fun c => !isBlank c).map fun line =>
    (line.chars.takeWhile isBlank).foldl (fun n c => n + if c = '\t' then 4 else 1) 0
  indents.min?.getD 0

/-- What the window has to fit, given the lines shown and the columns pointed at. -/
def demand (lines : List SourceLine) (label : List Char) (start stop : Place) (width : Nat) :
    Window.Demand :=
  let labelRight := stop.column + columns label + 1
  let longest := ((lines.map fun line => columns line.chars).max?).getD 0
  -- The blank columns that all lines share may be cut away.
  let indent := indentation lines
  if start.line = stop.line then
    ⟨indent, start.column, stop.column, labelRight, width, longest⟩
  else
    ⟨indent, min start.column (stop.column - 1), max (start.column + 1) stop.column,
      max (start.column + 1) labelRight, width, longest⟩

/-- The rows of a message: its further lines are indented as far as its first words. -/
def titleRows (message : String) : List Row :=
  match (message.splitOn "\n").map fun line => shown line.toList with
  | [] => []
  | first :: rest =>
    (Row.inked .mark "error".toList ++ Row.inked .title (": ".toList ++ first)) ::
      rest.map fun line => Row.blanks "error: ".length ++ Row.inked .title line

/-- The row that says where the source comes from. -/
def pathRow (path : String) (start : Place) (numberWidth : Nat) : Row :=
  let place := path ++ ":" ++ toString start.line ++ ":" ++ toString (start.char + 1)
  Row.blanks numberWidth ++ Row.inked .rule "--> ".toList ++ Row.inked .plain place.toList

/-- The rows of a diagnostic. -/
def rows (diagnostic : Diagnostic) : List Row :=
  let source := diagnostic.location.line.toList
  let label := diagnostic.label.toList
  let span := widened diagnostic.location
  let lines := SourceLine.cut source
  let (start, stop) := Place.ofSpan lines span
  let isSingle := start.line = stop.line
  let shown := if isSingle then [(start.line, .first)] else shownLines lines start.line stop.line
  let numberWidth := numberWidth source span
  -- Several lines are held together by a bracket, which takes two more columns.
  let margin := numberWidth + if isSingle then 3 else 5
  let shownSource := lines.filter fun line => shown.any fun (number, _) => number = line.number
  let window := .ofDemand (demand shownSource label start stop (terminalWidth - margin))
  let frame : Frame := ⟨lines, numberWidth, margin, window⟩
  titleRows diagnostic.message
    ++ (diagnostic.path?.map fun path => pathRow path start numberWidth).toList
    ++ [frame.unnumbered]
    ++ if isSingle then frame.singleRows start stop label
      else frame.multipleRows start stop label shown

/-- The text of a diagnostic. -/
def text (diagnostic : Diagnostic) (colored : Bool) : String :=
  "\n".intercalate (diagnostic.rows.map (Row.text colored))

end Diagnostic

/-- The text that reports a fault; without a place it is a single line and never coloured. -/
def Fault.report (fault : Fault) (path? : Option String) (colored : Bool) : String :=
  match fault.location? with
  | none => "error: " ++ fault.message
  | some location =>
    Diagnostic.text { message := fault.message, label := fault.label, path?, location } colored

end Gleaner
