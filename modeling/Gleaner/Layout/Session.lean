import Gleaner.Capture.Extractor

/-!
# Layouts in use

A layout in use can be given another body. The new body is put in place and the layout is checked
as it then stands; if something is wrong with it, the body that was there is put back. Nothing is
kept of a check: whoever needs a pattern or an extractor makes it from the parts again.
-/

namespace Gleaner.Layout

/-- The pattern of the blocks of a layout, or what is wrong with it. -/
def pattern (layout : Layout) (keep : Bool) : Except Fault Regex :=
  layout.outlines.map fun outlines => outlines.regex keep

/-- Gives the layout at hand another body, unless something is wrong with it then. -/
def setBody (body : Section) : EStateM Fault Layout Unit := do
  let previous := (← get).body
  modify fun layout => { layout with body }
  match (← get).pattern true with
  | .ok _ => return
  | .error fault =>
    modify fun layout => { layout with body := previous }
    throw fault

/-- The extractor of a layout as it stands. -/
def extractor (layout : Layout) (limit : Nat) : Except Fault Extractor := do
  let template ← Template.make layout
  Extractor.ofTemplate template limit

end Gleaner.Layout
