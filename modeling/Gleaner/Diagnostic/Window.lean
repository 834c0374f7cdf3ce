import Gleaner.Diagnostic.Source
import Gleaner.Diagnostic.Row

/-!
# Windows

Rows are drawn for a terminal of a fixed width. Of source lines that are too long for it only a
window is shown, chosen such that what the diagnostic points at can be seen; wide indentation is cut
as well. Dots stand at an end where something is cut off. They replace whole characters, so that
more columns may be missing than had to be.
-/

namespace Gleaner

/-- Columns of the terminal that rows are drawn for. -/
def terminalWidth : Nat := 140

/-- The columns of the source that are shown, if lines have to be cut. -/
structure Window where
  left : Nat
  right : Nat
  width : Nat
deriving DecidableEq, Repr, Inhabited

namespace Window

/-- What a window has to fit: the least indentation, the first and the last column that is pointed
at, the end of the labels, the columns available and those of the longest line. -/
structure Demand where
  indent : Nat
  spanLeft : Nat
  spanRight : Nat
  labelRight : Nat
  width : Nat
  longest : Nat
deriving DecidableEq, Repr, Inhabited

/-- Room for dots beside what is pointed at. -/
def slack : Nat := 6

/-- The window for a demand: all of the lines if they fit, then as much as fits without indentation,
around the labels, around the marks, or the marks alone. -/
def ofDemand (demand : Demand) : Window :=
  -- Subtraction stops at zero, and so does the left edge of every window.
  let indent := min demand.indent demand.spanLeft - slack
  let spanLeft := demand.spanLeft - slack
  let spanRight := demand.spanRight + slack
  let labelRight := demand.labelRight + slack
  let width := demand.width
  let left := if 20 < indent then indent - 16 else 0
  let right := max demand.longest left
  if right - left ≤ width then ⟨left, right, width⟩
  else if labelRight - indent ≤ width then ⟨indent, indent + width, width⟩
  else if labelRight - spanLeft ≤ width then
    let left := spanLeft - (width - (labelRight - spanLeft)) / 2
    ⟨left, left + width, width⟩
  else if spanRight - spanLeft ≤ width then
    let left := spanLeft - (width - (spanRight - spanLeft)) / 5 * 2
    ⟨left, left + width, width⟩
  else ⟨spanLeft, spanRight, width⟩

/-- Drops characters until `count` columns are gone; returns the columns that went, too. -/
def dropColumns (count : Nat) : List Char → Nat × List Char
  | [] => (0, [])
  | c :: rest =>
    if count = 0 then (0, c :: rest)
    else
      let (gone, left) := dropColumns (count - shownWidth c) rest
      (gone + shownWidth c, left)

/-- The characters that fit into `count` columns. -/
def takeColumns (count : Nat) : List Char → List Char
  | [] => []
  | c :: rest => if shownWidth c ≤ count then c :: takeColumns (count - shownWidth c) rest else []

def dots : List Char := ['.', '.', '.']

/-- Draws a line at a column of a row as it is seen through a window, and returns the columns that
are missing on its left, too. -/
def draw (window : Window) (row : Row) (column : Nat) (line : List Char) : Row × Nat :=
  let text := shown line
  let total := columns text
  let left := min window.left total
  let right := if total - window.left ≤ window.width then total else min total window.right
  let (missing, visible) := dropColumns left text
  -- What is visible is counted from the left edge of the window.
  let visible := takeColumns (right - left) visible
  let (covered, rest) := if 0 < window.left then dropColumns dots.length visible else (0, visible)
  let row := if 0 < window.left then row.put column .rule dots else row
  let row := row.put (column + covered) .plain rest
  if right < total then
    let kept := (dropColumns dots.length visible.reverse).2
    -- The dots replace whole characters, counted from the right end.
    let stop := column + covered + rest.length - (visible.length - kept.length)
    (row.put stop .rule dots, missing)
  else (row, missing)

end Window

end Gleaner
