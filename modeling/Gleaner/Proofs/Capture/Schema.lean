import Gleaner.Proofs.Capture.Limits

/-!
# The shape of what is captured

The layout of a template says what the captured values look like. A capture of records has one
record for each block, with the head, the body and the tail in this order. What is captured of a
part is a list of rows if the part is made of lines, a list of such records if it is a block itself,
and null if there is nothing to be read: the part is absent, it took no part in the match, or its
extent is empty. In a capture of bodies the bodies stand in the place of the records.

`Section.Conforms` says this of a section and of the extent that a match gives it; for a block inside
a block it asks the same of every part of every block that is found in that extent.
-/

namespace Gleaner

/-- A row holds texts, and null for a token that took no part. -/
def Value.IsRow (value : Value) : Prop :=
  ∃ items, value = .list items ∧ ∀ item ∈ items, item = .null ∨ ∃ text, item = .text text

/-- A value is a list of which something holds, or null, which it is exactly if there is nothing to
be read. -/
structure Value.ListUnless (nothing : Prop) (holds : List Value → Prop) (value : Value) : Prop where
  null_iff : value = .null ↔ nothing
  list : value = .null ∨ ∃ items, value = .list items ∧ holds items

/-- What is captured of one block, given what holds of its parts. -/
def Mode.EntryOf (holds : Part → Value → Prop) : Mode → Value → Prop
  | .body, value => holds .body value
  | .struct, value => ∃ head body tail,
      value = .record [("head", head), ("body", body), ("tail", tail)] ∧
        holds .head head ∧ holds .body body ∧ holds .tail tail

/-- There is one entry for each block that a pattern finds, and something holds of each part of the
entry and of the extent that the block gives this part. -/
def Regex.EntriesOf (regex : Regex) (mode : Mode) (limit : Nat)
    (holds : Part → Option (Array Char) → Value → Prop) (text : Array Char)
    (entries : List Value) : Prop :=
  ∃ blocks, regex.findAll limit text = .ok blocks ∧
    List.Forall₂ (fun block entry =>
      mode.EntryOf (fun part => holds part (block.group? text (.part part))) entry) blocks entries

/-- A section has nothing to be read in an extent. -/
def Section.Nothing (content : Section) (extent? : Option (Array Char)) : Prop :=
  content = .absent ∨ extent? = none ∨ extent? = some #[]

/-- The values that may be captured of a section in an extent. -/
def Section.Conforms (mode : Mode) (limit : Nat) : Section → Option (Array Char) → Value → Prop
  | .absent, extent? => Value.ListUnless (Section.absent.Nothing extent?) fun _ => False
  | .line text, extent? =>
    Value.ListUnless ((Section.line text).Nothing extent?) fun rows => ∀ row ∈ rows, row.IsRow
  | .lines texts, extent? =>
    Value.ListUnless ((Section.lines texts).Nothing extent?) fun rows => ∀ row ∈ rows, row.IsRow
  -- The extent of a block is searched with the pattern of its own parts.
  | .nested head body tail, extent? =>
    Value.ListUnless ((Section.nested head body tail).Nothing extent?) fun entries =>
      ∃ text ∈ extent?, ∃ outlines,
        Outlines.ofParts head.outline body.outline tail.outline = .ok outlines ∧
        (outlines.regex true).EntriesOf mode limit
          (fun
            | .head => head.Conforms mode limit
            | .body => body.Conforms mode limit
            | .tail => tail.Conforms mode limit)
          text entries

/-! ### Rows -/

theorem Slot.mem_values {slot : Slot} {found : Match} {text : Array Char} {value : Value}
    (member : value ∈ slot.values found text) : value = .null ∨ ∃ text, value = .text text := by
  unfold values at member
  split at member
  · left
    exact List.mem_singleton.mp member
  · right
    split at member
    · obtain ⟨field, -, rfl⟩ := List.mem_map.mp member
      exact ⟨_, rfl⟩
    · exact ⟨_, List.mem_singleton.mp member⟩

theorem isRow_of_readRows {regex : Regex} {slots : List Slot} {limit : Nat} {text : Array Char}
    {value : Value} (read : readRows regex slots limit text = .ok value) :
    ∃ rows, value = .list rows ∧ ∀ row ∈ rows, row.IsRow := by
  obtain ⟨found, -, made⟩ := except_bind_eq_ok.mp read
  cases made
  refine ⟨_, rfl, List.forall_mem_map.mpr fun one _ => ⟨_, rfl, ?_⟩⟩
  intro item member
  obtain ⟨slot, -, member⟩ := List.mem_flatMap.mp member
  exact Slot.mem_values member

/-! ### Blocks -/

theorem entriesOf_of_readBlocks {regex : Regex} {mode : Mode} {limit : Nat}
    {readPart : Part → Option (Array Char) → Except Fault Value}
    {holds : Part → Option (Array Char) → Value → Prop}
    (each : ∀ part extent? value, readPart part extent? = .ok value → holds part extent? value)
    {text : Array Char} {values : List Value}
    (read : readBlocks regex mode limit readPart text = .ok values) :
    regex.EntriesOf mode limit holds text values := by
  obtain ⟨blocks, found, made⟩ := except_bind_eq_ok.mp read
  refine ⟨blocks, found, (except_mapM_eq_ok.mp made).imp fun block value made => ?_⟩
  cases mode with
  | body => exact each .body _ value made
  | struct =>
    -- The three parts are read in order, and none of them is left out of the record.
    obtain ⟨head, headRead, made⟩ := except_bind_eq_ok.mp made
    obtain ⟨body, bodyRead, made⟩ := except_bind_eq_ok.mp made
    obtain ⟨tail, tailRead, made⟩ := except_bind_eq_ok.mp made
    cases made
    exact ⟨head, body, tail, rfl, each .head _ _ headRead, each .body _ _ bodyRead,
      each .tail _ _ tailRead⟩

/-! ### Parts -/

namespace PartReader

variable {mode : Mode} {limit : Nat} {extent? : Option (Array Char)} {value : Value}

private theorem extent_cases (extent? : Option (Array Char)) :
    (extent? = none ∨ extent? = some #[]) ∨
      ∃ text, extent? = some text ∧ text.isEmpty = false := by
  cases extent? with
  | none => exact Or.inl (Or.inl rfl)
  | some text =>
    by_cases empty : text = #[]
    · exact Or.inl (Or.inr (congrArg some empty))
    · exact Or.inr ⟨text, rfl, by simpa using empty⟩

private theorem read_nothing (nothing : extent? = none ∨ extent? = some #[]) (reader : PartReader) :
    reader.read mode limit extent? = .ok .null := by
  rcases nothing with rfl | rfl <;> cases reader <;> rfl

/-- A part that is not absent conforms as soon as the list that is read of a filled extent does. -/
private theorem listUnless_of_read (content : Section) (there : content ≠ .absent)
    {reader : PartReader} {holds : List Value → Prop}
    (filled : ∀ text, extent? = some text → text.isEmpty = false →
      ∃ items, value = .list items ∧ holds items)
    (read : reader.read mode limit extent? = .ok value) :
    Value.ListUnless (content.Nothing extent?) holds value := by
  rcases extent_cases extent? with nothing | ⟨text, rfl, some⟩
  -- Nothing to be read, so the value is null.
  · rw [read_nothing nothing] at read
    cases read
    exact ⟨iff_of_true rfl (Or.inr nothing), Or.inl rfl⟩
  -- Something to be read, so the value is a list, which null is not.
  · obtain ⟨items, rfl, holds⟩ := filled text rfl some
    refine ⟨iff_of_false (fun null => nomatch null) ?_, Or.inr ⟨items, rfl, holds⟩⟩
    rintro (absent | missing | empty)
    · exact there absent
    · cases missing
    · cases empty
      cases some

theorem read_conforms {content : Section} {reader : PartReader}
    (built : build content = .ok reader) (read : reader.read mode limit extent? = .ok value) :
    content.Conforms mode limit extent? value := by
  induction content generalizing reader extent? value with
  | absent =>
    cases built
    have null : value = .null := by
      rcases extent_cases extent? with nothing | ⟨text, rfl, filled⟩
      · rw [read_nothing nothing] at read
        exact (Except.ok.inj read).symm
      · simp only [PartReader.read, filled] at read
        exact (Except.ok.inj read).symm
    exact ⟨iff_of_true null (Or.inl rfl), Or.inl null⟩
  | line text =>
    rw [build_line] at built
    obtain ⟨line, -, rfl⟩ := except_map_eq_ok.mp built
    apply listUnless_of_read (.line text) (by simp) _ read
    rintro text rfl filled
    exact isRow_of_readRows ((read_rows mode limit _ _ filled).symm.trans read)
  | lines texts =>
    rw [build_lines] at built
    obtain ⟨lines, -, rfl⟩ := except_map_eq_ok.mp built
    apply listUnless_of_read (.lines texts) (by simp) _ read
    rintro text rfl filled
    exact isRow_of_readRows ((read_rows mode limit _ _ filled).symm.trans read)
  | nested head body tail ih ih' ih'' =>
    obtain ⟨outlines, _, _, _, outlined, rfl, parts⟩ := blocks_of_build built
    apply listUnless_of_read (.nested head body tail) (by simp) _ read
    rintro text rfl filled
    rw [read_blocks mode limit _ _ _ _ filled] at read
    obtain ⟨entries, entriesRead, rfl⟩ := except_map_eq_ok.mp read
    refine ⟨entries, rfl, text, rfl, outlines, outlined, ?_⟩
    apply entriesOf_of_readBlocks _ entriesRead
    -- Each part of a block inside conforms to its own section, by induction.
    intro part extent? value partRead
    cases part with
    | head => exact ih (parts .head) partRead
    | body => exact ih' (parts .body) partRead
    | tail => exact ih'' (parts .tail) partRead

end PartReader

/-- What is captured conforms to the layout of the template, block by block and part by part, in
either mode. -/
theorem Extractor.capture_conforms {template : Template} {limit : Nat} {extractor : Extractor}
    (built : ofTemplate template limit = .ok extractor) {mode : Mode} {report : String}
    {values : List Value} (captured : extractor.capture mode report = .ok values) :
    (template.pattern true).EntriesOf mode limit
      (fun part => (template.layout.part part).Conforms mode limit) report.toList.toArray values := by
  obtain ⟨regex_eq, parts⟩ := parts_of_ofTemplate built
  rw [capture, regex_eq, (ofTemplate_limit built limit).2] at captured
  apply entriesOf_of_readBlocks _ captured
  intro part extent? value partRead
  exact PartReader.read_conforms (parts part) partRead

set_option maxRecDepth 20000 in
/-- A head that is left out, and a body of two blocks with a tail but without a head. -/
theorem Extractor.capture_conforms_nested :
    ∃ template extractor,
      template.layout =
        ⟨.line "? @.top", .nested .absent (.line "&!. #!.+i") (.line "@.end"), .absent⟩ ∧
      ofTemplate template 10 = .ok extractor ∧
      (template.pattern true).EntriesOf .struct 10
        (fun part => (template.layout.part part).Conforms .struct 10)
        "a +1\nend\nb 2\nend".toList.toArray
        [.record [("head", .null),
          ("body", .list [
            .record [("head", .null), ("body", .list [.list [.text "a", .text "+1"]]),
              ("tail", .list [.list []])],
            .record [("head", .null), ("body", .list [.list [.text "b", .text "2"]]),
              ("tail", .list [.list []])]]),
          ("tail", .null)]] := by
  -- The head is optional and not in the report.
  let top : Line := ⟨true, [.literal ⟨.required, false, .single⟩ 't' ['o', 'p']]⟩
  let row : Line := ⟨false, [.misc ⟨.required, true, .single⟩,
    .number ⟨.required, true, .single⟩ .positive .integer]⟩
  let bottom : Line := ⟨false, [.literal ⟨.required, false, .single⟩ 'e' ['n', 'd']]⟩
  have head : Line.parse "? @.top" = .ok top := by decide +kernel
  have body : Line.parse "&!. #!.+i" = .ok row := by decide +kernel
  have tail : Line.parse "@.end" = .ok bottom := by decide +kernel
  obtain ⟨template, extractor, layout, built, made⟩ := exists_ofTemplate (.line head)
    (.nested .absent (.line body) (.line tail) (by decide)) .absent (by decide) 10
  refine ⟨template, extractor, layout, built, capture_conforms built ?_⟩
  rw [made]
  cbv

end Gleaner
