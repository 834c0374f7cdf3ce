import Gleaner.Capture.Extractor
import Gleaner.Proofs.Layout.Outlines

/-!
# A line by itself and a sequence of one line

A part that is one line can be given as the line or as a sequence of lines that holds nothing else.
Layouts that differ only in this, in their own parts or in those of blocks inside them, are turned
down for the same fault, or they make templates that have the same patterns and the same extractor.
-/

namespace Gleaner

theorem compileLines_singleton (text : String) (allowCapture : Bool) (start : Nat) :
    compileLines [text] allowCapture start = compileLine text allowCapture start := by
  have parsed : parseLines [text] = (Line.parse text).map fun line => [line] := by
    simp only [parseLines, List.isEmpty_cons, Bool.false_eq_true, if_false, List.mapM_cons,
      List.mapM_nil]
    cases Line.parse text <;> rfl
  rw [compileLines, compileLine, parsed]
  -- The pattern of a sequence of one line is that of the line, so only the fault is left to see.
  cases Line.parse text <;> rfl

namespace Section

/-- Sections that differ only in how single lines are given, at any depth. -/
inductive Alike : Section → Section → Prop where
  | refl (content : Section) : Alike content content
  | single (text : String) : Alike (line text) (lines [text])
  | symm {content other : Section} (alike : Alike content other) : Alike other content
  | trans {content other third : Section} (alike : Alike content other)
    (alike' : Alike other third) : Alike content third
  | nested {head head' body body' tail tail' : Section} (heads : Alike head head')
    (bodies : Alike body body') (tails : Alike tail tail') :
    Alike (nested head body tail) (nested head' body' tail')

theorem compile_single (text : String) (allowCapture : Bool) :
    (line text).compile allowCapture = (lines [text]).compile allowCapture := by
  rw [compile, compile, compileLines_singleton]

namespace Alike

variable {content other : Section}

theorem outline_eq (alike : Alike content other) : content.outline = other.outline := by
  induction alike with
  | refl => rfl
  | single text => rw [outline, outline, compileLines_singleton]
  | symm _ ih => exact ih.symm
  | trans _ _ ih ih' => exact ih.trans ih'
  | nested _ _ _ ih ih' ih'' => rw [outline, outline, ih, ih', ih'']

theorem build_eq (alike : Alike content other) :
    PartReader.build content = PartReader.build other := by
  induction alike with
  | refl => rfl
  | single text => rw [PartReader.build, PartReader.build, compileLines_singleton]
  | symm _ ih => exact ih.symm
  | trans _ _ ih ih' => exact ih.trans ih'
  | nested heads bodies tails ih ih' ih'' =>
    rw [PartReader.build, PartReader.build, heads.outline_eq, bodies.outline_eq, tails.outline_eq,
      ih, ih', ih'']

end Alike

end Section

/-- Layouts that differ only in how single lines are given. -/
def Layout.Alike (layout other : Layout) : Prop :=
  ∀ part, (layout.part part).Alike (other.part part)

theorem Layout.Alike.outlines_eq {layout other : Layout} (alike : layout.Alike other) :
    layout.outlines = other.outlines := by
  have heads : layout.head.outline = other.head.outline := (alike .head).outline_eq
  have bodies : layout.body.outline = other.body.outline := (alike .body).outline_eq
  have tails : layout.tail.outline = other.tail.outline := (alike .tail).outline_eq
  rw [outlines, outlines, heads, bodies, tails]

namespace Template

/-- Templates that no use can tell apart: they look for the same blocks and read the same values. -/
structure Twin (template other : Template) : Prop where
  pattern : ∀ keep, template.pattern keep = other.pattern keep
  extractor : ∀ limit, Extractor.ofTemplate template limit = Extractor.ofTemplate other limit

theorem twin_of_alike {template other : Template} (alike : template.layout.Alike other.layout) :
    template.Twin other := by
  -- The outlines are a field of the template, so it is enough that both layouts make the same ones.
  have outlines : template.outlines = other.outlines := by
    have both := alike.outlines_eq
    rw [template.outlines_eq, other.outlines_eq] at both
    exact Except.ok.inj both
  -- All patterns are made of the outlines, the readers of the parts one by one.
  have pattern (keep : Bool) : template.pattern keep = other.pattern keep := by
    rw [Template.pattern, Template.pattern, outlines]
  have heads : PartReader.build template.layout.head = PartReader.build other.layout.head :=
    (alike .head).build_eq
  have bodies : PartReader.build template.layout.body = PartReader.build other.layout.body :=
    (alike .body).build_eq
  have tails : PartReader.build template.layout.tail = PartReader.build other.layout.tail :=
    (alike .tail).build_eq
  refine ⟨pattern, fun limit => ?_⟩
  rw [Extractor.ofTemplate, Extractor.ofTemplate, pattern, heads, bodies, tails]

/-- Layouts that are alike fail for the same reason, or make templates that are twins. -/
theorem make_alike {layout other : Layout} (alike : layout.Alike other) :
    (∃ fault, make layout = .error fault ∧ make other = .error fault) ∨
      ∃ template template', make layout = .ok template ∧ make other = .ok template' ∧
        template.Twin template' := by
  cases outlined : layout.outlines with
  | error fault =>
    left
    have outlined' := alike.outlines_eq.symm.trans outlined
    exact ⟨fault, make_eq_error.mpr outlined, make_eq_error.mpr outlined'⟩
  | ok outlines =>
    right
    have outlined' := alike.outlines_eq.symm.trans outlined
    exact ⟨⟨layout, outlines, outlined⟩, ⟨other, outlines, outlined'⟩, make_eq_ok.mpr rfl,
      make_eq_ok.mpr rfl, twin_of_alike alike⟩

end Template

end Gleaner
