import Gleaner.Proofs.Layout.Depth
import Gleaner.Proofs.Layout.Shape
import Gleaner.Proofs.Regex.Searching

/-!
# Blocks are made of whole lines

What an extractor finds, it cuts out of a text along line boundaries: the blocks, their parts, and
the rows inside the parts, at every depth. A block that is not empty links its first place to its
last through the ends of its parts, so all of these are boundaries; between the parts there is
nothing but the line feeds of two joints.
-/

namespace Gleaner

/-- The last capture of a group that took part in a match. -/
def Match.capture? (found : Match) (name : GroupName) : Option Capture :=
  found.captures.find? fun capture => capture.name = name

/-- The text of a group that took part in a match; no text if it did not. -/
def Match.groupText (found : Match) (text : Array Char) (part : Part) : Array Char :=
  (found.group? text (.part part)).getD #[]

/-- The text of a joint: a line feed or nothing. -/
def IsJoint (text : Array Char) : Prop :=
  text = #[] ∨ text = #['\n']

/-- A match that is not empty and lies between line boundaries. -/
structure Match.Framed (found : Match) (text : Array Char) : Prop where
  nonempty : found.start < found.stop
  inside : found.stop ≤ text.size
  start : AtLineBoundary text found.start
  stop : AtLineBoundary text found.stop

/-- A block whose parts lie between line boundaries, too, and which consists of them. -/
structure Match.FramedBlock (block : Match) (text : Array Char) : Prop extends
    block.Framed text where
  parts : ∀ part capture, block.capture? (.part part) = some capture →
    AtLineBoundary text capture.start ∧ AtLineBoundary text capture.stop
  body : (block.capture? (.part .body)).isSome
  whole : ∃ joint joint', IsJoint joint ∧ IsJoint joint' ∧
    text.extract block.start block.stop =
      block.groupText text .head ++ joint ++ block.groupText text .body ++ joint' ++
        block.groupText text .tail

/-- Whatever is found lies between line boundaries, in order and without overlaps. -/
def Regex.FindsFramed (regex : Regex) (framed : Match → Array Char → Prop) : Prop :=
  ∀ limit text found, regex.findAll limit text = .ok found →
    (found.Pairwise fun earlier later => earlier.stop ≤ later.start) ∧
      ∀ one ∈ found, framed one text

/-- A part of a text that consists of whole lines. -/
structure WholeLines (text : Array Char) (start stop : Nat) : Prop where
  forward : start ≤ stop
  inside : stop ≤ text.size
  starts : AtLineBoundary text start
  ends : AtLineBoundary text stop

/-- Whatever is found in some whole lines of a text lies between line boundaries of that text, too. -/
def Regex.FindsFramedIn (regex : Regex) (framed : Match → Array Char → Prop) : Prop :=
  ∀ limit text start stop, WholeLines text start stop →
    ∀ found, regex.findAll limit (text.extract start stop) = .ok found →
      (found.Pairwise fun earlier later => earlier.stop ≤ later.start) ∧
        ∀ one ∈ found, framed one (text.extract start stop) ∧
          AtLineBoundary text (start + one.start) ∧ AtLineBoundary text (start + one.stop)

/-- A reader that cuts texts along line boundaries, as do the readers inside it. -/
def PartReader.Framed : PartReader → Prop
  | absent => True
  | rows regex _ => regex.FindsFramedIn Match.Framed
  | blocks regex head body tail =>
    regex.FindsFramedIn Match.FramedBlock ∧ head.Framed ∧ body.Framed ∧ tail.Framed

/-- A boundary of the lines that were cut out is a boundary of the text. -/
theorem WholeLines.boundary {text : Array Char} {start stop pos : Nat}
    (whole : WholeLines text start stop) (inside : pos ≤ stop - start)
    (boundary : AtLineBoundary (text.extract start stop) pos) :
    AtLineBoundary text (start + pos) := by
  -- A line feed of the cut-out text is one of the whole text.
  have feed {i : Nat} (found : (text.extract start stop)[i]? = some '\n') :
      text[start + i]? = some '\n' := by
    rw [Array.getElem?_extract] at found
    split at found
    · exact found
    · cases found
  have forward := whole.forward
  -- The ends of the cut-out text are boundaries because it consists of whole lines.
  rcases boundary with (rfl | before) | (ended | behind)
  · exact whole.starts
  · cases pos with
    | zero => exact whole.starts
    | succ i => exact Or.inl (Or.inr (feed before))
  · have size : (text.extract start stop).size = stop - start := by
      rw [Array.size_extract, Nat.min_eq_left whole.inside]
    rw [show start + pos = stop by omega]
    exact whole.ends
  · exact Or.inr (Or.inr (feed behind))

theorem Regex.FindsFramed.inLines {regex : Regex} {framed : Match → Array Char → Prop}
    (finds : regex.FindsFramed framed)
    (frames : ∀ {found text}, framed found text → found.Framed text) :
    regex.FindsFramedIn framed := by
  intro limit text start stop whole found returned
  obtain ⟨ordered, each⟩ := finds limit _ found returned
  refine ⟨ordered, fun one member => ?_⟩
  -- Being framed in the part, the match lies within its bounds, where boundaries carry over.
  have frame := frames (each one member)
  have inside := frame.inside
  rw [Array.size_extract, Nat.min_eq_left whole.inside] at inside
  have moved := frame.nonempty
  exact ⟨each one member, whole.boundary (by omega) frame.start, whole.boundary inside frame.stop⟩

theorem Regex.eq_of_runnable {regex runnable : Regex} (returned : regex.runnable = .ok runnable) :
    regex = runnable := by
  unfold Regex.runnable at returned
  split at returned
  · exact Except.ok.inj returned
  · cases returned

theorem Regex.finds_of_findAll {regex : Regex} {limit : Nat} {text : Array Char}
    {found : List Match} (returned : regex.findAll limit text = .ok found) :
    regex.Finds text 0 found := by
  unfold findAll at returned
  split at returned
  next all matched =>
    cases returned
    exact matchesIn_finds matched
  next => cases returned
  next => cases returned

/-- A match of a framed pattern is framed. -/
theorem Regex.Finds.framed {regex : Regex} (framed : regex.Framed) {text : Array Char}
    {found : List Match} (finds : regex.Finds text 0 found) {one : Match} (member : one ∈ found) :
    one.Framed text := by
  obtain ⟨first, -, nonempty⟩ := finds.of_mem member
  have linked : Linked text one.start one.stop :=
    framed.linked ⟨_, List.mem_of_mem_head? first.preferred, rfl⟩
  exact ⟨nonempty, first.stop_le, linked.boundary (Nat.ne_of_lt nonempty) (.refl _ _),
    linked.boundary (Nat.ne_of_lt nonempty) linked⟩

theorem Regex.Framed.findsFramed {regex : Regex} (framed : regex.Framed) :
    regex.FindsFramed Match.Framed := by
  intro limit text found returned
  have finds := finds_of_findAll returned
  exact ⟨finds.pairwise, fun one member => finds.framed framed member⟩

/-! ### The pattern of a block is framed -/

/-- The parts of a block are framed. -/
structure Outlines.Framed (outlines : Outlines) : Prop where
  head : ∀ head ∈ outlines.head, head.regex.Framed
  body : outlines.body.regex.Framed
  tail : ∀ tail ∈ outlines.tail, tail.regex.Framed

theorem Outlines.framed_repeated {body : Outline} (framed : body.regex.Framed) :
    (repeated body).regex.Framed :=
  framed.append (((framed_lineJoint.append framed).group _).star _)

theorem Outlines.Framed.regex {outlines : Outlines} (framed : outlines.Framed) (keep : Bool) :
    (outlines.regex keep).Framed :=
  regex_induction .empty .append framed_lineJoint (fun kind _ framed => framed.group kind)
    (fun _ _ framed => framed.optional) (fun greed _ _ framed => framed.star greed) framed.head
    framed.body framed.tail keep

theorem Template.framed (template : Template) : template.outlines.Framed := by
  obtain ⟨head, body, tail⟩ := template.outlines_induction
    (motive := fun outline => outline.regex.Framed)
    (fun lines => Line.framed_sequence false 0 lines)
    fun outlines head body tail => Outlines.Framed.regex ⟨head, body, tail⟩ false
  exact ⟨head, body, tail⟩

/-! ### Blocks -/

private theorem PartAt.linked {text : Array Char} {part : Part} {outline? : Option Outline}
    {start stop : Nat} {capture? : Option Capture} (at_ : PartAt text part outline? start stop capture?)
    (framed : ∀ outline ∈ outline?, outline.regex.Framed) : Linked text start stop := by
  cases at_ with
  | absent | skipped => exact .refl _ _
  | found reads => exact (framed _ rfl).linked reads

private theorem JointAt.linked {text : Array Char} {outline? : Option Outline} {start stop : Nat}
    (joint : JointAt text outline? start stop) : Linked text start stop := by
  rcases joint with rfl | ⟨-, feed, rfl⟩
  · exact .refl _ _
  · exact framed_lineJoint.linked (reads_lineJoint.mpr (Or.inl ⟨feed, rfl⟩))

private theorem JointAt.isJoint {text : Array Char} {outline? : Option Outline} {start stop : Nat}
    (joint : JointAt text outline? start stop) : IsJoint (text.extract start stop) := by
  rcases joint with rfl | ⟨-, feed, rfl⟩
  · exact Or.inl (by simp)
  -- A joint that is not empty is exactly one line feed.
  · have inside := (Array.getElem?_eq_some_iff.mp feed).1
    refine Or.inr (Array.ext_getElem? fun i => ?_)
    rw [Array.getElem?_extract]
    cases i with
    | zero =>
      rw [if_pos (by omega)]
      exact feed
    | succ i => simp [show ¬i + 1 < min (start + 1) text.size - start by omega]

private theorem PartAt.forward {text : Array Char} {part : Part} {outline? : Option Outline}
    {start stop : Nat} {capture? : Option Capture}
    (at_ : PartAt text part outline? start stop capture?) : start ≤ stop := by
  cases at_ with
  | absent | skipped => exact Nat.le_refl _
  | found reads => exact reads.forward

private theorem JointAt.forward {text : Array Char} {outline? : Option Outline} {start stop : Nat}
    (joint : JointAt text outline? start stop) : start ≤ stop := by
  rcases joint with rfl | ⟨-, -, rfl⟩ <;> omega

private theorem PartAt.capture_eq {text : Array Char} {part : Part} {outline? : Option Outline}
    {start stop : Nat} {capture : Capture}
    (at_ : PartAt text part outline? start stop (some capture)) :
    capture = ⟨.part part, start, stop⟩ := by
  cases at_
  rfl

private theorem PartAt.text_eq {text : Array Char} {part : Part} {outline? : Option Outline}
    {start stop : Nat} {capture? : Option Capture}
    (at_ : PartAt text part outline? start stop capture?) :
    (capture?.map fun capture => text.extract capture.start capture.stop).getD #[] =
      text.extract start stop := by
  cases at_ with
  | absent | skipped => simp
  | found => rfl

private theorem PartAt.find_toList {text : Array Char} {part : Part} {outline? : Option Outline}
    {start stop : Nat} {capture? : Option Capture}
    (at_ : PartAt text part outline? start stop capture?) (wanted : Part) :
    capture?.toList.find? (fun capture => capture.name = .part wanted) =
      if part = wanted then capture? else none := by
  cases at_ with
  | absent | skipped => simp
  | found => by_cases same : part = wanted <;> simp [same]

/-- A block that is found has the parts of its pattern. -/
theorem Outlines.Nameless.parts_of_finds {outlines : Outlines} (nameless : outlines.Nameless)
    {text : Array Char} {found : List Match} (finds : (outlines.regex true).Finds text 0 found)
    {block : Match} (member : block ∈ found) :
    ∃ headStop bodyStart bodyStop tailStart,
      PartAt text .head outlines.head block.start headStop (block.capture? (.part .head)) ∧
      JointAt text outlines.head headStop bodyStart ∧
      (repeated outlines.body).regex.Reads text bodyStart bodyStop ∧
      block.capture? (.part .body) = some ⟨.part .body, bodyStart, bodyStop⟩ ∧
      JointAt text outlines.tail bodyStop tailStart ∧
      PartAt text .tail outlines.tail tailStart block.stop (block.capture? (.part .tail)) := by
  obtain ⟨first, -, -⟩ := finds.of_mem member
  obtain ⟨headStop, bodyStart, bodyStop, tailStart, head?, tail?, head, joint, body, joint', tail,
    captures_eq⟩ := nameless.blockAt (List.mem_of_mem_head? first.preferred)
  -- Each part is captured at most once, so the order of the captures does not matter.
  have lookup : ∀ wanted : Part, block.capture? (.part wanted) =
      (if Part.tail = wanted then tail? else none).or
        (if Part.body = wanted then some ⟨.part .body, bodyStart, bodyStop⟩
          else if Part.head = wanted then head? else none) := by
    intro wanted
    have captured : block.captures =
        tail?.toList ++ ⟨.part .body, bodyStart, bodyStop⟩ :: head?.toList := captures_eq
    rw [Match.capture?, captured, List.find?_append, tail.find_toList wanted, List.find?_cons,
      head.find_toList wanted]
    cases wanted <;> simp
  refine ⟨headStop, bodyStart, bodyStop, tailStart, ?_, joint, body, ?_, joint', ?_⟩
  · simpa [lookup] using head
  · simp [lookup]
  · simpa [lookup] using tail

theorem Template.findsFramed (template : Template) :
    (template.pattern true).FindsFramed Match.FramedBlock := by
  intro limit text found returned
  have finds := Regex.finds_of_findAll returned
  have parts := template.framed
  refine ⟨finds.pairwise, fun block member => ?_⟩
  have framed := finds.framed (parts.regex true) member
  obtain ⟨headStop, bodyStart, bodyStop, tailStart, head, joint, body, captured, joint', tail⟩ :=
    template.nameless.parts_of_finds finds member
  -- Every end of a part is linked to the start of the block.
  have toHead : Linked text block.start headStop := head.linked parts.head
  have toBody := toHead.trans joint.linked
  have behindBody := toBody.trans ((Outlines.framed_repeated parts.body).linked body)
  have toTail := behindBody.trans joint'.linked
  have toStop := toTail.trans (tail.linked parts.tail)
  have boundary : ∀ {pos : Nat}, Linked text block.start pos → AtLineBoundary text pos :=
    toStop.boundary (Nat.ne_of_lt framed.nonempty)
  refine ⟨framed, fun part capture taken => ?_, by simp [captured],
    text.extract headStop bodyStart, text.extract bodyStop tailStart, joint.isJoint,
    joint'.isJoint, ?_⟩
  · cases part with
    | head =>
      rw [taken] at head
      rw [head.capture_eq]
      exact ⟨boundary (.refl _ _), boundary toHead⟩
    | body =>
      rw [captured] at taken
      cases taken
      exact ⟨boundary toBody, boundary behindBody⟩
    | tail =>
      rw [taken] at tail
      rw [tail.capture_eq]
      exact ⟨boundary toTail, boundary toStop⟩
  · have headText : block.groupText text .head = text.extract block.start headStop := head.text_eq
    have tailText : block.groupText text .tail = text.extract tailStart block.stop := tail.text_eq
    have bodyText : block.groupText text .body = text.extract bodyStart bodyStop := by
      simp only [Match.groupText, Match.group?]
      change ((block.capture? (.part .body)).map _).getD #[] = _
      rw [captured]
      rfl
    -- The extents of the parts and the joints adjoin one another.
    have headLe := head.forward
    have jointLe := joint.forward
    have bodyLe := body.forward
    have jointLe' := joint'.forward
    rw [headText, bodyText, tailText, extract_append headLe jointLe,
      extract_append (by omega) bodyLe, extract_append (by omega) jointLe',
      extract_append (by omega) tail.forward]

/-! ### Extractors -/

/-- A block inside a block is searched for with the pattern of its parts, and each of these is read
with its own reader. -/
theorem PartReader.blocks_of_build {head body tail : Section} {reader : PartReader}
    (built : build (.nested head body tail) = .ok reader) :
    ∃ outlines headReader bodyReader tailReader,
      Outlines.ofParts head.outline body.outline tail.outline = .ok outlines ∧
      reader = .blocks (outlines.regex true) headReader bodyReader tailReader ∧
      ∀ part, build (Layout.part ⟨head, body, tail⟩ part) =
        .ok (among headReader bodyReader tailReader part) := by
  obtain ⟨outlines, outlined, made⟩ := except_bind_eq_ok.mp built
  obtain ⟨regex, runnable, made⟩ := except_bind_eq_ok.mp made
  obtain ⟨headReader, headBuilt, made⟩ := except_bind_eq_ok.mp made
  obtain ⟨bodyReader, bodyBuilt, made⟩ := except_bind_eq_ok.mp made
  obtain ⟨tailReader, tailBuilt, made⟩ := except_bind_eq_ok.mp made
  -- Running a pattern changes nothing about it.
  cases Regex.eq_of_runnable runnable
  cases made
  refine ⟨outlines, headReader, bodyReader, tailReader, outlined, rfl, fun part => ?_⟩
  cases part with
  | head => exact headBuilt
  | body => exact bodyBuilt
  | tail => exact tailBuilt

theorem PartReader.framed_of_build {content : Section} {reader : PartReader}
    (built : build content = .ok reader) : reader.Framed := by
  -- By the content, as the readers are built; only a block has readers inside.
  induction content generalizing reader with
  | absent =>
    cases built
    trivial
  | line text =>
    rw [build_line] at built
    obtain ⟨line, -, rfl⟩ := except_map_eq_ok.mp built
    exact (Line.framed_sequence true 0 [line]).findsFramed.inLines id
  | lines texts =>
    rw [build_lines] at built
    obtain ⟨lines, -, rfl⟩ := except_map_eq_ok.mp built
    exact (Line.framed_sequence true 0 lines).findsFramed.inLines id
  | nested head body tail ih ih' ih'' =>
    -- The pattern of a block inside a block is that of a template of its own.
    obtain ⟨outlines, _, _, _, outlined, rfl, parts⟩ := blocks_of_build built
    have blocks := (⟨⟨head, body, tail⟩, outlines, outlined⟩ : Template).findsFramed
    exact ⟨blocks.inLines Match.FramedBlock.toFramed, ih (parts .head), ih' (parts .body),
      ih'' (parts .tail)⟩

/-- An extractor searches with the pattern of its template, and reads each part with the reader of
that part. -/
theorem Extractor.parts_of_ofTemplate {template : Template} {limit : Nat} {extractor : Extractor}
    (built : ofTemplate template limit = .ok extractor) :
    extractor.regex = template.pattern true ∧
      ∀ part, PartReader.build (template.layout.part part) = .ok (extractor.part part) := by
  obtain ⟨regex, runnable, made⟩ := except_bind_eq_ok.mp built
  obtain ⟨head, headBuilt, made⟩ := except_bind_eq_ok.mp made
  obtain ⟨body, bodyBuilt, made⟩ := except_bind_eq_ok.mp made
  obtain ⟨tail, tailBuilt, made⟩ := except_bind_eq_ok.mp made
  cases Regex.eq_of_runnable runnable
  cases made
  refine ⟨rfl, fun part => ?_⟩
  cases part with
  | head => exact headBuilt
  | body => exact bodyBuilt
  | tail => exact tailBuilt

/-- An extractor finds whole lines only: its blocks are not empty, in order and apart from each
other, they and their parts lie between line boundaries, nothing stands between the parts but at
most a line feed each, and the same holds of the rows and the blocks inside the parts. -/
theorem Extractor.finds_whole_lines {template : Template} {limit : Nat} {extractor : Extractor}
    (built : ofTemplate template limit = .ok extractor) :
    extractor.regex.FindsFramed Match.FramedBlock ∧ ∀ part, (extractor.part part).Framed := by
  obtain ⟨regex_eq, parts⟩ := parts_of_ofTemplate built
  rw [regex_eq]
  exact ⟨template.findsFramed, fun part => PartReader.framed_of_build (parts part)⟩

/-- A template with an optional head and a block for its tail. -/
theorem Extractor.finds_whole_lines_nested :
    ∃ template extractor,
      Template.make ⟨.line "? @.top", .line "#!.+i", .nested .absent (.line "@.end") .absent⟩ =
        .ok template ∧
      ofTemplate template 10 = .ok extractor ∧
      extractor.regex.FindsFramed Match.FramedBlock ∧ ∀ part, (extractor.part part).Framed := by
  have answered : ((Template.make ⟨.line "? @.top", .line "#!.+i",
      .nested .absent (.line "@.end") .absent⟩).bind (ofTemplate · 10)).isOk = true := by
    decide +kernel
  obtain ⟨extractor, made⟩ := exists_of_isOk answered
  obtain ⟨template, makes, built⟩ := except_bind_eq_ok.mp made
  exact ⟨template, extractor, makes, built, finds_whole_lines built⟩

end Gleaner
