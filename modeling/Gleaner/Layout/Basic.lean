import Gleaner.Line.Pattern

/-!
# Layouts of blocks

A report holds blocks, each made of a head, a body and a tail. A layout says for each of these
parts whether it is absent, a line, a sequence of lines, or a block of a smaller kind. The body
may occur several times in a row.

The only thing that can be wrong with a layout is that one of its parts cannot be read or that it
has no body. A template is a layout with the proof that nothing is wrong, so that its patterns
are there without further ado.
-/

namespace Gleaner

/-- What stands in one part of a block. -/
inductive Section where
  | absent
  | line (text : String)
  | lines (texts : List String)
  | nested (head body tail : Section)
deriving DecidableEq, Repr, Inhabited

/-- The three parts of a kind of block. -/
structure Layout where
  head : Section
  body : Section
  tail : Section
deriving DecidableEq, Repr, Inhabited

/-- A part of a block as seen from the whole: its pattern, and whether it may be left out. -/
structure Outline where
  regex : Regex
  optional : Bool
deriving DecidableEq, Repr, Inhabited

/-- The parts of a block that can be matched. -/
structure Outlines where
  head : Option Outline
  body : Outline
  tail : Option Outline
deriving DecidableEq, Repr, Inhabited

namespace Outlines

open Regex

/-- A part in parentheses, kept under its name if `keep` is set. -/
def wrap (keep : Bool) (part : Part) (outline : Outline) : Regex :=
  let wrapped := group (if keep then .named (.part part) else .bundle) outline.regex
  if outline.optional then optional wrapped else wrapped

/-- A body that may occur several times in a row. It is always there. -/
def repeated (body : Outline) : Outline :=
  ⟨body.regex ++ star .greedy (group .bundle (lineJoint ++ body.regex)), false⟩

/-- The pattern of a block. -/
def regex (outlines : Outlines) (keep : Bool) : Regex :=
  concat
    [match outlines.head with
      | some head => wrap keep .head head ++ lineJoint
      | none => .empty,
      wrap keep .body (repeated outlines.body),
      match outlines.tail with
      | some tail => lineJoint ++ wrap keep .tail tail
      | none => .empty]

/-- The outlines of a block from those of its parts; the first fault from head to tail counts. -/
def ofParts (head body tail : Except Fault (Option Outline)) : Except Fault Outlines := do
  let head ← head
  match ← body with
  | none => .error (.badSection .bodyRequired)
  | some body =>
    let tail ← tail
    return ⟨head, body, tail⟩

end Outlines

/-- A sequence of lines as seen from the whole block: nothing of it is kept. -/
def LinePattern.outline (pattern : LinePattern) : Outline :=
  ⟨pattern.regex, pattern.optional⟩

namespace Section

/-- A part as seen from the whole block. A block inside a block is never left out. -/
def outline : Section → Except Fault (Option Outline)
  | absent => .ok none
  | line text => (compileLine text false 0).map fun pattern => some pattern.outline
  | lines texts => (compileLines texts false 0).map fun pattern => some pattern.outline
  | nested head body tail =>
    (Outlines.ofParts head.outline body.outline tail.outline).map fun outlines =>
      some ⟨outlines.regex false, false⟩

/-- What a part is when it is looked at on its own. -/
inductive Compiled where
  | absent
  | lines (pattern : LinePattern)
  | nested (layout : Layout)
deriving DecidableEq, Repr, Inhabited

/-- The patterns of a part's own lines, with groups numbered from 0. -/
def compile (content : Section) (allowCapture : Bool) : Except Fault Compiled :=
  match content with
  | absent => .ok .absent
  | line text => (compileLine text allowCapture 0).map .lines
  | lines texts => (compileLines texts allowCapture 0).map .lines
  | nested head body tail => .ok (.nested ⟨head, body, tail⟩)

/-- A part given by any number of lines. -/
def ofLines : List String → Section
  | [] => absent
  | [text] => line text
  | texts => lines texts

end Section

namespace Layout

def part (layout : Layout) : Part → Section
  | .head => layout.head
  | .body => layout.body
  | .tail => layout.tail

def outlines (layout : Layout) : Except Fault Outlines :=
  Outlines.ofParts layout.head.outline layout.body.outline layout.tail.outline

end Layout

/-- A layout in which nothing is wrong. -/
structure Template where
  layout : Layout
  outlines : Outlines
  outlines_eq : layout.outlines = .ok outlines

namespace Template

/-- The template of a layout, or what is wrong with it. -/
def make (layout : Layout) : Except Fault Template :=
  match outlines_eq : layout.outlines with
  | .ok outlines => .ok ⟨layout, outlines, outlines_eq⟩
  | .error fault => .error fault

/-- The pattern of the blocks of a template; the parts are kept under their names on demand. -/
def pattern (template : Template) (keep : Bool) : Regex :=
  template.outlines.regex keep

/-- A template as a part of a larger block. -/
def toSection (template : Template) : Section :=
  .nested template.layout.head template.layout.body template.layout.tail

end Template

end Gleaner
