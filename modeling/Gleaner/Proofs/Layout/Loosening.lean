import Gleaner.Proofs.Layout.Alike
import Gleaner.Proofs.Layout.Captures
import Gleaner.Proofs.Line.Boundary
import Gleaner.Proofs.Regex.Running

/-!
# Optional lines never block a match

A layout is loosened by putting optional lines among the lines of its parts, or by giving a part that
was absent a section of optional lines alone, in the block itself or in the blocks inside it. The
template of the loosened layout still matches whatever was matched before, from the same place to the
same place: an optional line can be left out, and so can the line feed that was added with it.

The argument goes along the structure of a pattern. `Below` says that one pattern reads whatever
another reads; everything that puts patterns together keeps it, so it passes from lines to sections
and from sections to blocks.
-/

namespace Gleaner

/-! ### Patterns that read more -/

namespace Regex

/-- Whatever the first pattern reads, the second reads, too. -/
structure Below (regex regex' : Regex) : Prop where
  reads : ∀ {text start stop}, regex.Reads text start stop → regex'.Reads text start stop

/-- The pattern can be left out everywhere. -/
def Skips (regex : Regex) : Prop :=
  ∀ text pos, regex.Reads text pos pos

theorem skips_optional (body : Regex) : (optional body).Skips :=
  fun _ _ => reads_optional.mpr (Or.inr rfl)

theorem Skips.append {first second : Regex} (skips : first.Skips) (skips' : second.Skips) :
    (first ++ second).Skips :=
  fun text pos => reads_append.mpr ⟨pos, skips text pos, skips' text pos⟩

namespace Below

variable {first first' second second' body body' : Regex}

theorem refl (regex : Regex) : regex.Below regex :=
  ⟨id⟩

theorem empty (skips : body.Skips) : Regex.empty.Below body where
  reads {text start stop} reads := by
    rw [reads_empty.mp reads]
    exact skips text start

theorem append (below : first.Below first') (below' : second.Below second') :
    (first ++ second).Below (first' ++ second') where
  reads both := by
    obtain ⟨middle, reads, reads'⟩ := reads_append.mp both
    exact reads_append.mpr ⟨middle, below.reads reads, below'.reads reads'⟩

/-- Something that can be left out is put behind a pattern. -/
theorem append_skips (below : first.Below first') (skips : second.Skips) :
    first.Below (first' ++ second) where
  reads {text _ stop} reads := reads_append.mpr ⟨stop, below.reads reads, skips text stop⟩

/-- Something that can be left out is put in front of a pattern. -/
theorem skips_append (skips : first.Skips) (below : second.Below second') :
    second.Below (first ++ second') where
  reads {text start _} reads := reads_append.mpr ⟨start, skips text start, below.reads reads⟩

theorem group (kind : GroupKind) (below : body.Below body') :
    (Regex.group kind body).Below (Regex.group kind body') :=
  ⟨fun reads => reads_group.mpr (below.reads (reads_group.mp reads))⟩

theorem to_optional (below : body.Below body') : body.Below (Regex.optional body') :=
  ⟨fun reads => reads_optional.mpr (Or.inl (below.reads reads))⟩

theorem optional (below : body.Below body') :
    (Regex.optional body).Below (Regex.optional body') where
  reads reads := reads_optional.mpr ((reads_optional.mp reads).imp_left below.reads)

theorem star (greed : Greed) (below : body.Below body') :
    (Regex.star greed body).Below (Regex.star greed body') where
  reads {text start stop} reads := by
    -- On the text that is left: a round that counts leaves less of it, and counts in both.
    induction left : stop - start using Nat.strong_induction_on generalizing start with
    | _ n ih =>
      rcases reads_star.mp reads with rfl | ⟨middle, round, moved, others⟩
      · exact reads_star.mpr (Or.inl rfl)
      · have forward := others.forward
        apply reads_star.mpr
        exact Or.inr ⟨middle, below.reads round, moved, ih (stop - middle) (by omega) others rfl⟩

end Below

end Regex

/-! ### Lines -/

/-- A list with further items put in at any places. -/
inductive Inserted {α : Type} (extra : α → Prop) : List α → List α → Prop where
  | none : Inserted extra [] []
  | kept (item : α) {items items' : List α} (others : Inserted extra items items') :
    Inserted extra (item :: items) (item :: items')
  | added {item : α} (isExtra : extra item) {items items' : List α}
    (others : Inserted extra items items') : Inserted extra items (item :: items')

theorem Inserted.of_forall {α : Type} {extra : α → Prop} {items : List α}
    (all : ∀ item ∈ items, extra item) : Inserted extra [] items := by
  induction items with
  | nil => exact .none
  | cons item rest ih =>
    rw [List.forall_mem_cons] at all
    exact .added all.1 (ih all.2)

theorem Inserted.ne_nil {α : Type} {extra : α → Prop} {items items' : List α}
    (inserted : Inserted extra items items') (some : items ≠ []) : items' ≠ [] := by
  cases inserted with
  | none => exact some
  | kept | added => simp

/-- What is made of the items is made of them among the further ones. -/
theorem Inserted.forall₂ {α β : Type} {extra : α → Prop} {extra' : β → Prop} {R : α → β → Prop}
    (made : ∀ item, extra item → ∃ result, R item result ∧ extra' result)
    {items items' : List α} (inserted : Inserted extra items items') {results : List β}
    (each : List.Forall₂ R items results) :
    ∃ results', List.Forall₂ R items' results' ∧ Inserted extra' results results' := by
  -- On the insertion: what is kept goes with its result, what is added gets one of its own.
  induction inserted generalizing results with
  | none =>
    cases each
    exact ⟨[], .nil, .none⟩
  | kept item _ ih =>
    cases each with
    | cons here others =>
      obtain ⟨results', each', inserted'⟩ := ih others
      exact ⟨_, .cons here each', .kept _ inserted'⟩
  | added isExtra _ ih =>
    obtain ⟨result, here, isExtra'⟩ := made _ isExtra
    obtain ⟨results', each', inserted'⟩ := ih each
    exact ⟨_, .cons here each', .added isExtra' inserted'⟩

theorem skips_lineJoint : lineJoint.Skips :=
  Regex.skips_optional _

namespace Line

/-- The numbers of groups do not matter where there are none. -/
theorem below_pattern (line : Line) (start start' : Nat) :
    (line.pattern false start).regex.Below (line.pattern false start').regex := by
  simp only [pattern, placeTokens_false]
  exact .refl _

theorem skips_pattern {line : Line} (optional : line.optional = true) (start : Nat) :
    (line.pattern false start).regex.Skips := by
  simp only [pattern, optional, if_true]
  exact Regex.skips_optional _

/-- Lines with optional lines among them read what they read without them. -/
theorem below_sequence {lines lines' : List Line}
    (inserted : Inserted (fun line => line.optional = true) lines lines') (start start' : Nat) :
    (sequence false start lines).regex.Below (sequence false start' lines').regex := by
  induction inserted generalizing start start' with
  | none => exact .refl _
  | @kept line lines lines' others ih =>
    have here := line.below_pattern start start'
    cases lines' with
    | nil =>
      cases others
      exact here
    | cons second' rest' =>
      cases lines with
      | nil =>
        -- Only optional lines follow, and the joint before them reads nothing.
        have skips : (sequence false (line.pattern false start').nextGroup (second' :: rest')).regex.Skips :=
          fun text pos => (ih 0 _).reads (Regex.reads_empty.mpr rfl)
        exact here.append_skips (skips_lineJoint.append skips)
      | cons second rest => exact here.append (.append (.refl _) (ih _ _))
  | @added line optional lines lines' others ih =>
    have skips := skips_pattern optional start'
    cases lines' with
    | nil =>
      cases others
      exact .empty skips
    | cons second' rest' =>
      exact .skips_append skips (.skips_append skips_lineJoint (ih _ _))

theorem all_optional_of_inserted {lines lines' : List Line}
    (inserted : Inserted (fun line => line.optional = true) lines lines') :
    lines'.all Line.optional = lines.all Line.optional := by
  induction inserted with
  | none => rfl
  | kept line _ ih => rw [List.all_cons, List.all_cons, ih]
  | added optional _ ih => rw [List.all_cons, optional, Bool.true_and, ih]

end Line

/-! ### Sections -/

/-- The text of an optional line. -/
def IsOptionalLine (text : String) : Prop :=
  ∃ line, Line.parse text = .ok line ∧ line.optional = true

instance (text : String) : Decidable (IsOptionalLine text) :=
  match parsed : Line.parse text with
  | .ok line => decidable_of_iff (line.optional = true) (by simp [IsOptionalLine, parsed])
  | .error _ => isFalse (by simp [IsOptionalLine, parsed])

/-- A section with optional lines put among its lines, or given where it was absent; the same for
the parts of a block. -/
inductive Section.Loosened : Section → Section → Prop where
  | same (content : Section) : Loosened content content
  | line {text : String} {texts : List String} (inserted : Inserted IsOptionalLine [text] texts) :
    Loosened (.line text) (.lines texts)
  | lines {texts texts' : List String} (inserted : Inserted IsOptionalLine texts texts') :
    Loosened (.lines texts) (.lines texts')
  | givenLine {text : String} (optional : IsOptionalLine text) : Loosened .absent (.line text)
  | givenLines {texts : List String} (some : texts ≠ [])
    (optional : ∀ text ∈ texts, IsOptionalLine text) : Loosened .absent (.lines texts)
  | nested {head body tail head' body' tail' : Section} (heads : Loosened head head')
    (bodies : Loosened body body') (tails : Loosened tail tail') :
    Loosened (.nested head body tail) (.nested head' body' tail')

/-- A layout with loosened parts. -/
structure Layout.Loosened (layout layout' : Layout) : Prop where
  head : layout.head.Loosened layout'.head
  body : layout.body.Loosened layout'.body
  tail : layout.tail.Loosened layout'.tail

/-- A part as seen from its block, before and after it is loosened. -/
inductive Outline.Loosened : Option Outline → Option Outline → Prop where
  | absent : Loosened none none
  | given {outline : Outline} (optional : outline.optional = true) : Loosened none (some outline)
  | wider {outline outline' : Outline} (below : outline.regex.Below outline'.regex)
    (optional : outline.optional = true → outline'.optional = true) :
    Loosened (some outline) (some outline')

theorem Outline.Loosened.refl (outline? : Option Outline) : Loosened outline? outline? := by
  cases outline? with
  | none => exact .absent
  | some outline => exact .wider (.refl _) id

namespace Outlines

theorem below_wrap (keep : Bool) (part : Part) {outline outline' : Outline}
    (below : outline.regex.Below outline'.regex)
    (optional : outline.optional = true → outline'.optional = true) :
    (wrap keep part outline).Below (wrap keep part outline') := by
  have grouped := below.group (if keep then .named (.part part) else .bundle)
  simp only [wrap]
  -- An optional outline stays optional, and one that was mandatory may become so.
  by_cases may : outline.optional = true
  · rw [if_pos may, if_pos (optional may)]
    exact grouped.optional
  · rw [if_neg may]
    by_cases may' : outline'.optional = true
    · rw [if_pos may']
      exact grouped.to_optional
    · rw [if_neg may']
      exact grouped

theorem skips_wrap (keep : Bool) (part : Part) {outline : Outline}
    (optional : outline.optional = true) : (wrap keep part outline).Skips := by
  simp only [wrap, optional, if_true]
  exact Regex.skips_optional _

/-- A block whose parts are loosened reads what it has read before. -/
theorem below_regex {outlines outlines' : Outlines}
    (head : Outline.Loosened outlines.head outlines'.head)
    (body : outlines.body.regex.Below outlines'.body.regex)
    (tail : Outline.Loosened outlines.tail outlines'.tail) (keep : Bool) :
    (outlines.regex keep).Below (outlines'.regex keep) := by
  -- The body is repeated behind joints, so it is loosened in each round.
  have again : (repeated outlines.body).regex.Below (repeated outlines'.body).regex :=
    body.append (((Regex.Below.refl lineJoint).append body).group .bundle |>.star .greedy)
  obtain ⟨head?, body₁, tail?⟩ := outlines
  obtain ⟨head?', body₂, tail?'⟩ := outlines'
  refine .append ?_ (.append (below_wrap keep .body again id) ?_)
  · cases head with
    | absent => exact .refl _
    -- A head that is new can be skipped, with its joint.
    | given optional => exact .empty ((skips_wrap keep .head optional).append skips_lineJoint)
    | wider below optional => exact (below_wrap keep .head below optional).append (.refl _)
  · cases tail with
    | absent => exact .refl _
    | given optional => exact .empty (skips_lineJoint.append (skips_wrap keep .tail optional))
    | wider below optional => exact .append (.refl _) (below_wrap keep .tail below optional)

/-- If the parts of a block are loosened, the block can still be made and reads what it has read. -/
theorem loosened_ofParts {head body tail head' body' tail' : Except Fault (Option Outline)}
    (heads : ∀ {outline?}, head = .ok outline? →
      ∃ outline?', head' = .ok outline?' ∧ Outline.Loosened outline? outline?')
    (bodies : ∀ {outline?}, body = .ok outline? →
      ∃ outline?', body' = .ok outline?' ∧ Outline.Loosened outline? outline?')
    (tails : ∀ {outline?}, tail = .ok outline? →
      ∃ outline?', tail' = .ok outline?' ∧ Outline.Loosened outline? outline?')
    {outlines : Outlines} (made : ofParts head body tail = .ok outlines) :
    ∃ outlines', ofParts head' body' tail' = .ok outlines' ∧
      ∀ keep, (outlines.regex keep).Below (outlines'.regex keep) := by
  obtain ⟨headed, bodied, tailed⟩ := ofParts_eq_ok.mp made
  obtain ⟨head?, headed', loosened⟩ := heads headed
  obtain ⟨_, bodied', bodyLoosened⟩ := bodies bodied
  obtain ⟨tail?, tailed', loosened'⟩ := tails tailed
  -- A body that was there is still there.
  cases bodyLoosened with
  | @wider _ outline' below _ =>
    refine ⟨⟨head?, outline', tail?⟩, ofParts_eq_ok.mpr ⟨headed', bodied', tailed'⟩, ?_⟩
    exact fun keep => below_regex loosened below loosened' keep

end Outlines

namespace Section

theorem outline_lines_eq_ok {texts : List String} {outline? : Option Outline} :
    (Section.lines texts).outline = .ok outline? ↔
      texts ≠ [] ∧ ∃ lines, List.Forall₂ (fun text line => Line.parse text = .ok line) texts lines ∧
        some (Line.sequence false 0 lines).outline = outline? := by
  simp only [outline, except_map_eq_ok, compileLines_eq_ok, parseLines_eq_ok]
  constructor
  · rintro ⟨pattern, ⟨lines, ⟨some, each⟩, rfl⟩, same⟩
    exact ⟨some, lines, each, same⟩
  · rintro ⟨some, lines, each, same⟩
    exact ⟨_, ⟨lines, ⟨some, each⟩, rfl⟩, same⟩

/-- Lines with optional lines among them can be read, and read more. -/
theorem loosened_outline_lines {texts texts' : List String}
    (inserted : Inserted IsOptionalLine texts texts') {outline? : Option Outline}
    (outlined : (Section.lines texts).outline = .ok outline?) :
    ∃ outline?', (Section.lines texts').outline = .ok outline?' ∧
      Outline.Loosened outline? outline?' := by
  obtain ⟨some, lines, parsed, rfl⟩ := outline_lines_eq_ok.mp outlined
  obtain ⟨lines', parsed', inserted'⟩ := inserted.forall₂ (fun _ optional => optional) parsed
  -- The lines that are added can be parsed, and being optional they leave the section as it is.
  refine ⟨_, outline_lines_eq_ok.mpr ⟨inserted.ne_nil some, lines', parsed', rfl⟩, ?_⟩
  apply Outline.Loosened.wider (Line.below_sequence inserted' 0 0)
  intro optional
  simp only [LinePattern.outline, Line.optional_sequence_eq] at optional ⊢
  rw [Line.all_optional_of_inserted inserted', optional]

/-- A section of optional lines alone can be read, and can be left out. -/
theorem loosened_outline_given {texts : List String} (some : texts ≠ [])
    (optional : ∀ text ∈ texts, IsOptionalLine text) :
    ∃ outline?, (Section.lines texts).outline = .ok outline? ∧ Outline.Loosened none outline? := by
  obtain ⟨lines, parsed, inserted⟩ :=
    (Inserted.of_forall optional).forall₂ (fun _ optional => optional) .nil
  refine ⟨_, outline_lines_eq_ok.mpr ⟨some, lines, parsed, rfl⟩, ?_⟩
  apply Outline.Loosened.given
  exact (Line.optional_sequence_eq false 0 lines).trans (Line.all_optional_of_inserted inserted)

/-- A section that is loosened can be read if it could be read before. -/
theorem Loosened.outline {content content' : Section} (loosened : content.Loosened content')
    {outline? : Option Outline} (outlined : content.outline = .ok outline?) :
    ∃ outline?', content'.outline = .ok outline?' ∧ Outline.Loosened outline? outline?' := by
  induction loosened generalizing outline? with
  | same content => exact ⟨outline?, outlined, .refl _⟩
  | line inserted =>
    rw [(Alike.single _).outline_eq] at outlined
    exact loosened_outline_lines inserted outlined
  | lines inserted => exact loosened_outline_lines inserted outlined
  | givenLine optional =>
    cases outlined
    rw [(Alike.single _).outline_eq]
    exact loosened_outline_given (by simp) (by simpa using optional)
  | givenLines some optional =>
    cases outlined
    exact loosened_outline_given some optional
  | nested heads bodies tails ih ih' ih'' =>
    obtain ⟨outlines, made, rfl⟩ := except_map_eq_ok.mp outlined
    obtain ⟨outlines', made', below⟩ := Outlines.loosened_ofParts ih ih' ih'' made
    refine ⟨_, except_map_eq_ok.mpr ⟨outlines', made', rfl⟩, ?_⟩
    -- A block inside the block is there in any case, before and after.
    exact .wider (below false) id

end Section

namespace Template

/-- The template of a loosened layout is there, and it matches wherever the template has matched,
up to the same place. -/
theorem loosened_matches {template : Template} {layout : Layout}
    (loosened : template.layout.Loosened layout) :
    ∃ looser, make layout = .ok looser ∧ ∀ (keep : Bool) (text : Array Char) (start : Nat),
      (∀ stop, (template.pattern keep).Reads text start stop →
        (looser.pattern keep).Reads text start stop) ∧
      ((template.pattern keep).MatchesAt text start →
        (looser.pattern keep).MatchesAt text start) := by
  obtain ⟨outlines', made', below⟩ := Outlines.loosened_ofParts loosened.head.outline
    loosened.body.outline loosened.tail.outline template.outlines_eq
  refine ⟨⟨layout, outlines', made'⟩, make_eq_ok.mpr rfl, fun keep text start => ?_⟩
  -- What the pattern has read is read again, up to the same place.
  refine ⟨fun stop reads => (below keep).reads reads, fun matched => ?_⟩
  rw [Regex.matchesAt_iff, Regex.ways_ne_nil_iff] at matched ⊢
  exact matched.imp fun stop reads => (below keep).reads reads

/-- A head is given, a line becomes three, and the block inside the block gets a head, too. -/
theorem loosened_matches_nested :
    ∃ template looser,
      make ⟨.absent, .nested .absent (.line "#!.+i") .absent, .lines ["@.end"]⟩ = .ok template ∧
      make ⟨.line "? @.top", .nested (.lines ["? @.unit", "? &!."])
          (.lines ["? @.from", "#!.+i", "? @.to"]) .absent,
        .lines ["? @.total", "@.end"]⟩ = .ok looser ∧
      (template.pattern true).MatchesAt "12\n4\nend".toList.toArray 0 ∧
      (looser.pattern true).MatchesAt "12\n4\nend".toList.toArray 0 := by
  let row : Line := ⟨false, [.number ⟨.required, true, .single⟩ .positive .integer]⟩
  let bottom : Line := ⟨false, [.literal ⟨.required, false, .single⟩ 'e' ['n', 'd']]⟩
  let inner : Outlines := ⟨none, (row.pattern false 0).outline, none⟩
  let template : Template :=
    ⟨⟨.absent, .nested .absent (.line "#!.+i") .absent, .lines ["@.end"]⟩,
      ⟨none, ⟨inner.regex false, false⟩, some (bottom.pattern false 0).outline⟩, by decide +kernel⟩
  have matched : (template.pattern true).MatchesAt "12\n4\nend".toList.toArray 0 := by
    decide +kernel
  have loosened : template.layout.Loosened ⟨.line "? @.top",
      .nested (.lines ["? @.unit", "? &!."]) (.lines ["? @.from", "#!.+i", "? @.to"]) .absent,
      .lines ["? @.total", "@.end"]⟩ := by
    refine ⟨.givenLine (by decide +kernel), ?_, .lines (.added (by decide +kernel) (.kept _ .none))⟩
    refine .nested (.givenLines (by simp) (by decide +kernel)) ?_ (.same _)
    exact .line (.added (by decide +kernel) (.kept _ (.added (by decide +kernel) .none)))
  obtain ⟨looser, made', reads⟩ := loosened_matches loosened
  exact ⟨template, looser, make_eq_ok.mpr rfl, made', matched, (reads true _ 0).2 matched⟩

end Template

end Gleaner
