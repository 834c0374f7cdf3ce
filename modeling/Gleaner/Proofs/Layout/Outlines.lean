import Gleaner.Layout.Basic
import Gleaner.Proofs.Fallible

/-!
# What a section looks like from its block

An outline comes from a sequence of lines or from a block inside the block. `Section.outline_induction`
makes this an induction: what holds of all sequences of lines, and passes from the parts of a block
to the block, holds of every part of every template.
-/

namespace Gleaner

theorem Outlines.ofParts_eq_ok {head body tail : Except Fault (Option Outline)}
    {outlines : Outlines} :
    ofParts head body tail = .ok outlines ↔
      head = .ok outlines.head ∧ body = .ok (some outlines.body) ∧ tail = .ok outlines.tail := by
  obtain ⟨head', body', tail'⟩ := outlines
  simp only [ofParts, except_bind_eq_ok]
  constructor
  · rintro ⟨head, rfl, _ | body, rfl, made⟩
    -- Without a body nothing is made.
    · cases made
    · obtain ⟨tail, rfl, made⟩ := except_bind_eq_ok.mp made
      cases made
      exact ⟨rfl, rfl, rfl⟩
  · rintro ⟨rfl, rfl, rfl⟩
    exact ⟨_, rfl, _, rfl, rfl⟩

/-- What holds of the parts of a block, and passes to groups, their repetitions and sequences, holds
of the block. -/
theorem Outlines.regex_induction {motive : Regex → Prop} (empty : motive .empty)
    (append : ∀ {first second}, motive first → motive second → motive (first ++ second))
    (joint : motive lineJoint) (group : ∀ kind {regex}, motive regex → motive (.group kind regex))
    (optional : ∀ kind {regex}, motive (.group kind regex) → motive (.optional (.group kind regex)))
    (star : ∀ greed kind {regex}, motive (.group kind regex) → motive (.star greed (.group kind regex)))
    {outlines : Outlines} (head : ∀ head ∈ outlines.head, motive head.regex)
    (body : motive outlines.body.regex) (tail : ∀ tail ∈ outlines.tail, motive tail.regex)
    (keep : Bool) : motive (outlines.regex keep) := by
  -- A part that is kept is a named group, one that is not a plain one; either may be optional.
  have wrapped (part : Part) {outline : Outline} (holds : motive outline.regex) :
      motive (wrap keep part outline) := by
    simp only [wrap]
    split
    · exact optional _ (group _ holds)
    · exact group _ holds
  -- The body, and any number of further ones behind their joints.
  have again : motive (repeated outlines.body).regex :=
    append body (star _ _ (group _ (append joint body)))
  obtain ⟨head?, _, tail?⟩ := outlines
  refine append ?_ (append (wrapped .body again) ?_)
  · cases head? with
    | none => exact empty
    | some outline => exact append (wrapped .head (head outline rfl)) joint
  · cases tail? with
    | none => exact empty
    | some outline => exact append joint (wrapped .tail (tail outline rfl))

/-- A line is compiled as a sequence of one line. -/
theorem compileLine_eq_ok {text : String} {allowCapture : Bool} {start : Nat}
    {pattern : LinePattern} :
    compileLine text allowCapture start = .ok pattern ↔
      ∃ line, Line.parse text = .ok line ∧ Line.sequence allowCapture start [line] = pattern :=
  except_map_eq_ok

theorem parseLines_eq_ok {texts : List String} {lines : List Line} :
    parseLines texts = .ok lines ↔
      texts ≠ [] ∧ List.Forall₂ (fun text line => Line.parse text = .ok line) texts lines := by
  rw [← except_mapM_eq_ok]
  cases texts <;> simp [parseLines]

theorem ne_nil_of_parseLines {texts : List String} {lines : List Line}
    (parsed : parseLines texts = .ok lines) : lines ≠ [] := by
  obtain ⟨some, each⟩ := parseLines_eq_ok.mp parsed
  rintro rfl
  cases each
  exact some rfl

theorem compileLines_eq_ok {texts : List String} {allowCapture : Bool} {start : Nat}
    {pattern : LinePattern} :
    compileLines texts allowCapture start = .ok pattern ↔
      ∃ lines, parseLines texts = .ok lines ∧
        Line.sequence allowCapture start lines = pattern :=
  except_map_eq_ok

namespace Section

theorem outline_line {text : String} {line : Line} (parsed : Line.parse text = .ok line) :
    (Section.line text).outline = .ok (some (Line.sequence false 0 [line]).outline) :=
  except_map_eq_ok.mpr ⟨_, compileLine_eq_ok.mpr ⟨line, parsed, rfl⟩, rfl⟩

theorem outline_lines {texts : List String} {lines : List Line}
    (parsed : parseLines texts = .ok lines) :
    (Section.lines texts).outline = .ok (some (Line.sequence false 0 lines).outline) :=
  except_map_eq_ok.mpr ⟨_, compileLines_eq_ok.mpr ⟨lines, parsed, rfl⟩, rfl⟩

/-- Where the outline of a section comes from. -/
theorem outline_induction {motive : Outline → Prop}
    (lines : ∀ lines, motive (Line.sequence false 0 lines).outline)
    (block : ∀ outlines : Outlines, (∀ head ∈ outlines.head, motive head) →
      motive outlines.body → (∀ tail ∈ outlines.tail, motive tail) →
        motive ⟨outlines.regex false, false⟩)
    {content : Section} {outline : Outline} (outlined : content.outline = .ok (some outline)) :
    motive outline := by
  induction content generalizing outline with
  | absent => cases outlined
  | line text =>
    obtain ⟨pattern, compiled, made⟩ := except_map_eq_ok.mp outlined
    obtain ⟨line, -, rfl⟩ := compileLine_eq_ok.mp compiled
    cases made
    exact lines [line]
  | lines texts =>
    obtain ⟨pattern, compiled, made⟩ := except_map_eq_ok.mp outlined
    obtain ⟨all, -, rfl⟩ := compileLines_eq_ok.mp compiled
    cases made
    exact lines all
  | nested head body tail ih ih' ih'' =>
    -- A part that is absent has no outline, and nothing is asked of it.
    obtain ⟨outlines, made, same⟩ := except_map_eq_ok.mp outlined
    obtain ⟨headed, bodied, tailed⟩ := Outlines.ofParts_eq_ok.mp made
    cases same
    refine block outlines (fun outline found => ?_) (ih' bodied) fun outline found => ?_
    · exact ih (by rw [headed, Option.mem_def.mp found])
    · exact ih'' (by rw [tailed, Option.mem_def.mp found])

end Section

/-- A template is made of its layout and of no other. -/
theorem Template.make_eq_ok {layout : Layout} {template : Template} :
    make layout = .ok template ↔ template.layout = layout := by
  constructor
  · intro made
    unfold make at made
    split at made
    · cases made
      rfl
    · cases made
  · rintro rfl
    unfold make
    split
    next outlines outlined =>
      -- The outlines are determined by the layout.
      obtain ⟨layout, outlines', outlined'⟩ := template
      cases outlined.symm.trans outlined'
      rfl
    next fault outlined =>
      rw [template.outlines_eq] at outlined
      cases outlined

theorem Template.make_eq_error {layout : Layout} {fault : Fault} :
    make layout = .error fault ↔ layout.outlines = .error fault := by
  unfold make
  split
  next outlines outlined => simp [outlined]
  next fault' outlined => simp [outlined]

/-- What holds of all parts of a template's blocks. -/
theorem Template.outlines_induction (template : Template) {motive : Outline → Prop}
    (lines : ∀ lines, motive (Line.sequence false 0 lines).outline)
    (block : ∀ outlines : Outlines, (∀ head ∈ outlines.head, motive head) →
      motive outlines.body → (∀ tail ∈ outlines.tail, motive tail) →
        motive ⟨outlines.regex false, false⟩) :
    (∀ head ∈ template.outlines.head, motive head) ∧ motive template.outlines.body ∧
      ∀ tail ∈ template.outlines.tail, motive tail := by
  obtain ⟨headed, bodied, tailed⟩ := Outlines.ofParts_eq_ok.mp template.outlines_eq
  refine ⟨fun outline found => ?_, Section.outline_induction lines block bodied, fun outline found => ?_⟩
  · exact Section.outline_induction lines block (by rw [headed, Option.mem_def.mp found])
  · exact Section.outline_induction lines block (by rw [tailed, Option.mem_def.mp found])

end Gleaner
