import Gleaner.Capture.Extractor
import Gleaner.Proofs.Layout.Outlines
import Gleaner.Proofs.Line.Induction

/-!
# Templates that are too deep

A template is made without a look at how deep the parentheses of its pattern go, and a pattern that
is too deep cannot be run. Lines alone are never too deep. Every block inside a block adds to the
depth, so the pattern of the outermost block decides: if it can be run, then so can all patterns
that the extractor needs. `Section.Makes` follows the sections and says what the extractor is made
of. A tower of heads inside heads is a template that has no extractor.
-/

namespace Gleaner

namespace Regex

@[simp] theorem depth_append (first second : Regex) :
    (first ++ second).depth = max first.depth second.depth := rfl

@[simp] theorem depth_concat_cons (first : Regex) (rest : List Regex) :
    (concat (first :: rest)).depth = max first.depth (concat rest).depth := by
  cases rest with
  | nil => exact (Nat.max_zero first.depth).symm
  | cons second rest => rfl

@[simp] theorem depth_concat_nil : (concat []).depth = 0 := rfl

@[simp] theorem depth_literal (text : List Char) : (literal text).depth = 0 := by
  induction text with
  | nil => rfl
  | cons c rest ih =>
    rw [literal, List.map_cons, depth_concat_cons, ← literal, ih]
    rfl

end Regex

/-! ### Lines are shallow -/

theorem Numeral.depth_pattern_le (kind : NumberKind) (sign : Sign) :
    (pattern kind sign).depth ≤ 2 := by
  cases kind <;> cases sign <;> decide

theorem Token.depth_fragment_le (token : Token) : token.fragment.depth ≤ 3 := by
  cases token with
  | optionalLine => decide
  | anything capture => exact Nat.zero_le _
  | literal flags first rest =>
    -- Only a repeated literal needs a group.
    cases quantity : flags.quantity <;> simp [fragment, quantity, Quantity.choose, Regex.depth]
  | misc flags =>
    cases quantity : flags.quantity <;>
      simp [fragment, quantity, Quantity.choose, Regex.depth, wordPattern]
  | number flags sign kind =>
    -- A number is as deep as its pattern, and one group deeper where it is repeated.
    have shallow := Numeral.depth_pattern_le kind sign
    cases quantity : flags.quantity with
    | single =>
      simp only [fragment, quantity, Quantity.choose]
      omega
    | oneOrMore =>
      simp only [fragment, quantity, Quantity.choose, Regex.depth_append, Regex.depth,
        Spacing.separator]
      omega

theorem PlacedToken.depth_pattern_le (placed : PlacedToken) : placed.pattern.depth ≤ 4 := by
  have shallow := placed.token.depth_fragment_le
  unfold pattern
  split
  next => omega
  next =>
    simp only [Regex.depth]
    omega

theorem Line.depth_pattern_le (line : Line) (allowCapture : Bool) (start : Nat) :
    (line.pattern allowCapture start).regex.depth ≤ 5 := by
  have gap (spacing : Spacing) : spacing.separator.depth ≤ 4 := by
    cases spacing <;> decide
  have whole (placed : List PlacedToken) : (wholeRegex placed).depth ≤ 4 :=
    -- The pattern of a line is made of shallow pieces, one after the other.
    wholeRegex_induction (by decide) (Nat.max_le.mpr ⟨·, ·⟩) (by decide) (by decide) gap
      (fun one _ => one.depth_pattern_le) (by decide) (by decide)
  have shallow := whole (placeTokens allowCapture start line.tokens)
  simp only [pattern]
  -- An optional line has one group more around it.
  split
  next =>
    simp only [Regex.depth]
    omega
  next => omega

theorem Line.depth_sequence_le (allowCapture : Bool) (start : Nat) (lines : List Line) :
    (sequence allowCapture start lines).regex.depth ≤ 5 :=
  sequence_induction (by decide) (Nat.max_le.mpr ⟨·, ·⟩) (by decide)
    (fun line _ start => line.depth_pattern_le allowCapture start) start

theorem Regex.runnable_of_lt {regex : Regex} (shallow : regex.depth < depthLimit) :
    regex.runnable = .ok regex := by
  simp [runnable, shallow]

namespace PartReader

/-- The reader of some lines searches with the pattern that keeps their captures. -/
def ofLines (lines : List Line) : PartReader :=
  .rows (Line.sequence true 0 lines).regex (Line.sequence true 0 lines).slots

private theorem runnable_sequence (lines : List Line) :
    (Line.sequence true 0 lines).regex.runnable = .ok (Line.sequence true 0 lines).regex :=
  Regex.runnable_of_lt (Nat.lt_of_le_of_lt (Line.depth_sequence_le true 0 lines) (by decide))

theorem build_lines (texts : List String) :
    build (.lines texts) = (parseLines texts).map ofLines := by
  simp only [build, compileLines]
  cases parseLines texts with
  | error fault => rfl
  | ok lines =>
    simp only [Except.map, bind, Except.bind, runnable_sequence]
    rfl

theorem build_line (text : String) :
    build (.line text) = (Line.parse text).map fun line => ofLines [line] := by
  simp only [build, compileLine]
  cases Line.parse text with
  | error fault => rfl
  | ok line =>
    have runnable : (line.pattern true 0).regex.runnable = _ := runnable_sequence [line]
    simp only [Except.map, bind, Except.bind, runnable]
    rfl

end PartReader

/-! ### A block is deeper than its parts -/

theorem Outlines.depth_wrap (keep : Bool) (part : Part) (outline : Outline) :
    (wrap keep part outline).depth = outline.regex.depth + 1 := by
  simp only [wrap]
  split <;> rfl

/-- The depth that a part adds to its block. -/
def Outlines.partDepth (part : Option Outline) : Nat :=
  part.elim 0 fun outline => outline.regex.depth + 1

theorem Outlines.depth_regex (outlines : Outlines) (keep : Bool) :
    (outlines.regex keep).depth =
      max (partDepth outlines.head) (max (outlines.body.regex.depth + 2) (partDepth outlines.tail)) := by
  obtain ⟨head, body, tail⟩ := outlines
  -- The body is repeated in a group of its own, inside the group of the part.
  have repeats : (repeated body).regex.depth = body.regex.depth + 1 := by
    simp only [repeated, Regex.depth_append, Regex.depth]
    simp [lineJoint, Regex.depth]
  have joint : lineJoint.depth = 0 := rfl
  cases head <;> cases tail <;>
    simp only [regex, partDepth, Option.elim, Regex.depth_concat_cons, Regex.depth_concat_nil,
      Regex.depth_append, Regex.depth, depth_wrap, repeats, joint] <;>
    omega

/-- No part of a block is too deep if the block is not. -/
theorem Outlines.shallow_parts {outlines : Outlines} {keep : Bool}
    (shallow : (outlines.regex keep).depth < depthLimit) :
    (∀ head ∈ outlines.head, head.regex.depth < depthLimit) ∧
      outlines.body.regex.depth < depthLimit ∧
      ∀ tail ∈ outlines.tail, tail.regex.depth < depthLimit := by
  simp only [depth_regex, Nat.max_lt] at shallow
  obtain ⟨head, body, tail⟩ := shallow
  refine ⟨fun outline found => ?_, by omega, fun outline found => ?_⟩
  · simp only [Option.mem_def.mp found, partDepth, Option.elim] at head
    omega
  · simp only [Option.mem_def.mp found, partDepth, Option.elim] at tail
    omega

/-! ### What is made of a section -/

namespace Section

/-- The outline and the reader that are made of a section, in which no pattern is too deep. -/
inductive Makes : Section → Option Outline → PartReader → Prop where
  | absent : Makes .absent none .absent
  | line {text : String} {line : Line} (parsed : Line.parse text = .ok line) :
    Makes (.line text) (some (Line.sequence false 0 [line]).outline) (.ofLines [line])
  | lines {texts : List String} {lines : List Line} (parsed : parseLines texts = .ok lines) :
    Makes (.lines texts) (some (Line.sequence false 0 lines).outline) (.ofLines lines)
  | nested {head body tail : Section} {head? tail? : Option Outline} {outline : Outline}
    {headReader bodyReader tailReader : PartReader} (headed : Makes head head? headReader)
    (bodied : Makes body (some outline) bodyReader) (tailed : Makes tail tail? tailReader)
    (shallow : (Outlines.regex ⟨head?, outline, tail?⟩ true).depth < depthLimit) :
    Makes (.nested head body tail) (some ⟨Outlines.regex ⟨head?, outline, tail?⟩ false, false⟩)
      (.blocks (Outlines.regex ⟨head?, outline, tail?⟩ true) headReader bodyReader tailReader)

namespace Makes

variable {content : Section} {outline? : Option Outline} {reader : PartReader}

theorem outline (makes : content.Makes outline? reader) : content.outline = .ok outline? := by
  induction makes with
  | absent => rfl
  | line parsed => exact outline_line parsed
  | lines parsed => exact outline_lines parsed
  | @nested _ _ _ head? tail? outline _ _ _ _ _ _ _ ih ih' ih'' =>
    exact except_map_eq_ok.mpr
      ⟨⟨head?, outline, tail?⟩, Outlines.ofParts_eq_ok.mpr ⟨ih, ih', ih''⟩, rfl⟩

theorem build (makes : content.Makes outline? reader) : PartReader.build content = .ok reader := by
  induction makes with
  | absent => rfl
  | line parsed => rw [PartReader.build_line, parsed, Except.map]
  | lines parsed => rw [PartReader.build_lines, parsed, Except.map]
  | @nested head body tail head? tail? outline _ _ _ headed bodied tailed shallow ih ih' ih'' =>
    have made : Outlines.ofParts head.outline body.outline tail.outline =
        .ok ⟨head?, outline, tail?⟩ :=
      Outlines.ofParts_eq_ok.mpr ⟨headed.outline, bodied.outline, tailed.outline⟩
    simp only [PartReader.build, made, bind, Except.bind, Regex.runnable_of_lt shallow, ih, ih', ih'']
    rfl

end Makes

/-- What a section's outline leaves to the limit is enough to read it. -/
theorem exists_makes {content : Section} {outline? : Option Outline}
    (outlined : content.outline = .ok outline?)
    (shallow : ∀ outline ∈ outline?, outline.regex.depth < depthLimit) :
    ∃ reader, content.Makes outline? reader := by
  induction content generalizing outline? with
  | absent =>
    cases outlined
    exact ⟨_, .absent⟩
  | line text =>
    obtain ⟨pattern, compiled, rfl⟩ := except_map_eq_ok.mp outlined
    obtain ⟨line, parsed, rfl⟩ := compileLine_eq_ok.mp compiled
    exact ⟨_, .line parsed⟩
  | lines texts =>
    obtain ⟨pattern, compiled, rfl⟩ := except_map_eq_ok.mp outlined
    obtain ⟨lines, parsed, rfl⟩ := compileLines_eq_ok.mp compiled
    exact ⟨_, .lines parsed⟩
  | nested head body tail ih ih' ih'' =>
    obtain ⟨outlines, made, rfl⟩ := except_map_eq_ok.mp outlined
    obtain ⟨headed, bodied, tailed⟩ := Outlines.ofParts_eq_ok.mp made
    -- The depth of a block does not depend on the names, and bounds those of its parts.
    have depth : (outlines.regex true).depth < depthLimit := by
      have whole := shallow _ rfl
      simpa only [Outlines.depth_regex] using whole
    obtain ⟨headShallow, bodyShallow, tailShallow⟩ := Outlines.shallow_parts depth
    obtain ⟨headReader, head⟩ := ih headed headShallow
    obtain ⟨bodyReader, body⟩ := ih' bodied fun _ found => Option.some.inj found ▸ bodyShallow
    obtain ⟨tailReader, tail⟩ := ih'' tailed tailShallow
    exact ⟨_, .nested head body tail depth⟩

end Section

/-! ### Which templates can be run -/

theorem Regex.runnable_of_le {regex : Regex} (deep : depthLimit ≤ regex.depth) :
    ∃ reason, regex.runnable = .error (.refusedPattern regex.text reason) := by
  simp [runnable, Nat.not_lt.mpr deep]

namespace Extractor

variable {head body tail : Section} {head? tail? : Option Outline} {outline : Outline}
  {headReader bodyReader tailReader : PartReader}

/-- The extractor of a layout is made of what its parts make. -/
theorem exists_ofTemplate (headed : head.Makes head? headReader)
    (bodied : body.Makes (some outline) bodyReader) (tailed : tail.Makes tail? tailReader)
    (shallow : (Outlines.regex ⟨head?, outline, tail?⟩ true).depth < depthLimit) (limit : Nat) :
    ∃ template extractor, template.layout = ⟨head, body, tail⟩ ∧
      ofTemplate template limit = .ok extractor ∧ extractor =
        ⟨Outlines.regex ⟨head?, outline, tail?⟩ true, headReader, bodyReader, tailReader, limit⟩ := by
  have made : Layout.outlines ⟨head, body, tail⟩ = .ok ⟨head?, outline, tail?⟩ :=
    Outlines.ofParts_eq_ok.mpr ⟨headed.outline, bodied.outline, tailed.outline⟩
  refine ⟨⟨⟨head, body, tail⟩, _, made⟩, _, rfl, ?_, rfl⟩
  simp only [ofTemplate, Template.pattern, bind, Except.bind, Regex.runnable_of_lt shallow,
    headed.build, bodied.build, tailed.build]
  rfl

/-- Lines are never too deep, so a body of lines with nothing around it has an extractor. -/
theorem exists_ofTemplate_lines {lines : List Line}
    (bodied : body.Makes (some (Line.sequence false 0 lines).outline) (.ofLines lines))
    (limit : Nat) :
    ∃ template extractor, template.layout = ⟨.absent, body, .absent⟩ ∧
      ofTemplate template limit = .ok extractor ∧ extractor =
        ⟨Outlines.regex ⟨none, (Line.sequence false 0 lines).outline, none⟩ true, .absent,
          .ofLines lines, .absent, limit⟩ := by
  have bound := Line.depth_sequence_le false 0 lines
  apply exists_ofTemplate .absent bodied .absent
  simp only [Outlines.depth_regex, Outlines.partDepth, Option.elim, LinePattern.outline, depthLimit]
  omega

/-- A template has an extractor exactly if its pattern is not too deep, whatever the limit of the
searches; otherwise the pattern is refused, and nothing else can go wrong. -/
theorem ofTemplate_eq (template : Template) (limit : Nat) :
    if (template.pattern true).depth < depthLimit then
      ∃ extractor, ofTemplate template limit = .ok extractor
    else
      ∃ reason, ofTemplate template limit =
        .error (.refusedPattern (template.pattern true).text reason) := by
  split
  next shallow =>
    obtain ⟨headed, bodied, tailed⟩ := Outlines.ofParts_eq_ok.mp template.outlines_eq
    -- The outermost pattern is the deepest, so that nothing inside it can be refused.
    obtain ⟨headShallow, bodyShallow, tailShallow⟩ := Outlines.shallow_parts shallow
    obtain ⟨_, head⟩ := Section.exists_makes headed headShallow
    obtain ⟨_, body⟩ := Section.exists_makes bodied fun _ found =>
      Option.some.inj found ▸ bodyShallow
    obtain ⟨_, tail⟩ := Section.exists_makes tailed tailShallow
    obtain ⟨other, extractor, same, built, -⟩ := exists_ofTemplate head body tail shallow limit
    -- There is only one template of a layout.
    have made : Template.make template.layout = .ok other := Template.make_eq_ok.mpr same
    cases made.symm.trans (Template.make_eq_ok.mpr rfl)
    exact ⟨extractor, built⟩
  next deep =>
    obtain ⟨reason, refused⟩ := Regex.runnable_of_le (Nat.not_lt.mp deep)
    refine ⟨reason, ?_⟩
    simp only [ofTemplate, refused]
    rfl

end Extractor

/-! ### Towers -/

/-- Blocks inside the heads of blocks, `height` of them around a block with an empty line. -/
def Section.tower : Nat → Section
  | 0 => .nested .absent (.line "") .absent
  | height + 1 => .nested (tower height) (.line "") .absent

private def blankOutline : Outline :=
  (Line.sequence false 0 [⟨false, []⟩]).outline

private theorem outline_blank : (Section.line "").outline = .ok (some blankOutline) := by
  have parsed : Line.parse "" = .ok ⟨false, []⟩ := by
    simp [Line.parse, Word.split, Word.splitFrom, Line.ofTokens, bind, Except.bind, pure, Except.pure]
  exact Section.outline_line parsed

private theorem depth_blank : blankOutline.regex.depth = 2 := by decide

/-- Every storey makes a tower one pair of parentheses deeper. -/
private theorem outline_tower (height : Nat) :
    ∃ regex, (Section.tower height).outline = .ok (some ⟨regex, false⟩) ∧
      regex.depth = height + 4 := by
  -- On the number of storeys; each has the one below it in its head.
  induction height with
  | zero =>
    refine ⟨(⟨none, blankOutline, none⟩ : Outlines).regex false, ?_, ?_⟩
    · exact except_map_eq_ok.mpr ⟨_, Outlines.ofParts_eq_ok.mpr ⟨rfl, outline_blank, rfl⟩, rfl⟩
    · simp only [Outlines.depth_regex, Outlines.partDepth, Option.elim, depth_blank]
      omega
  | succ height ih =>
    obtain ⟨regex, outlined, depth⟩ := ih
    refine ⟨(⟨some ⟨regex, false⟩, blankOutline, none⟩ : Outlines).regex false, ?_, ?_⟩
    · exact except_map_eq_ok.mpr ⟨_, Outlines.ofParts_eq_ok.mpr ⟨outlined, outline_blank, rfl⟩, rfl⟩
    · simp only [Outlines.depth_regex, Outlines.partDepth, Option.elim, depth_blank, depth]
      omega

/-- Seventy-five blocks in the heads of one another make a template without an extractor. -/
theorem Template.tower_has_no_extractor :
    ∃ template, Template.make ⟨Section.tower 74, .line "", .absent⟩ = .ok template ∧
      ∀ limit, ∃ reason, Extractor.ofTemplate template limit =
        .error (.refusedPattern (template.pattern true).text reason) := by
  obtain ⟨regex, outlined, depth⟩ := outline_tower 74
  have made : (⟨Section.tower 74, .line "", .absent⟩ : Layout).outlines =
      .ok ⟨some ⟨regex, false⟩, blankOutline, none⟩ :=
    Outlines.ofParts_eq_ok.mpr ⟨outlined, outline_blank, rfl⟩
  refine ⟨⟨_, _, made⟩, make_eq_ok.mpr rfl, fun limit => ?_⟩
  -- At this height the pattern reaches the limit, and the extractor is refused before any search.
  have deep : depthLimit ≤ ((⟨_, _, made⟩ : Template).pattern true).depth := by
    simp only [pattern, Outlines.depth_regex, Outlines.partDepth, Option.elim, depth_blank, depth]
    decide
  obtain ⟨reason, refused⟩ := Regex.runnable_of_le deep
  refine ⟨reason, ?_⟩
  simp only [Extractor.ofTemplate, refused]
  rfl

end Gleaner
