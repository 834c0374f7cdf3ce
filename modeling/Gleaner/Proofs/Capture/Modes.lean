import Gleaner.Proofs.Layout.Bodies

/-!
# What is captured of bodies is part of what is captured of blocks

A capture of records reads the head, the body and the tail of every block, a capture of bodies reads
the bodies alone. Both search for blocks with the same patterns and the same budgets, and find the
same extents. So a capture of records that succeeds leaves nothing for the other to fail on, and the
bodies can be taken out of the records: directly, or record by record where the body is a block.
-/

namespace Gleaner

/-- What is captured of a section in a capture of bodies, taken from what a capture of records has
for it: the bodies of the records, if it is a block. -/
def Section.bodiesOf? : Section → Value → Option Value
  | .nested _ body _, .list records =>
    (records.mapM fun record : Value => (record.part? .body).bind body.bodiesOf?).map .list
  | .nested _ _ _, .null => some .null
  | .nested _ _ _, _ => none
  | _, value => some value

/-- The body of a record of a block whose body is the given section. -/
def Section.bodyOf? (body : Section) (record : Value) : Option Value :=
  (record.part? .body).bind body.bodiesOf?

/-- Blocks whose bodies agree in both modes agree as a whole. -/
theorem readBlocks_bodies {regex : Regex} {limit : Nat} {text : Array Char} {body : Section}
    {readers : Part → PartReader}
    (agree : ∀ extent? value, (readers .body).read .struct limit extent? = .ok value →
      ∃ bodies, body.bodiesOf? value = some bodies ∧
        (readers .body).read .body limit extent? = .ok bodies)
    {records : List Value}
    (read : readBlocks regex .struct limit (fun part => (readers part).read .struct limit) text =
      .ok records) :
    ∃ bodies, records.mapM body.bodyOf? = some bodies ∧
      readBlocks regex .body limit (fun part => (readers part).read .body limit) text =
        .ok bodies := by
  obtain ⟨blocks, found, each⟩ := bodies_of_readBlocks read
  have both : ∃ bodies,
      List.Forall₂ (fun record value => body.bodyOf? record = some value) records bodies ∧
      List.Forall₂ (fun block value =>
        (readers .body).read .body limit (block.group? text (.part .body)) = .ok value)
        blocks bodies := by
    clear found read
    -- Block by block: the record was made from it, and the body can be made from it.
    induction each with
    | nil => exact ⟨[], .nil, .nil⟩
    | @cons block record blocks records one _ ih =>
      obtain ⟨field, fieldOf, fieldRead⟩ := one
      obtain ⟨value, taken, bodyRead⟩ := agree _ field fieldRead
      obtain ⟨values, others, othersRead⟩ := ih
      have recordOf : body.bodyOf? record = some value := by
        rw [Section.bodyOf?, show record.part? .body = some field from fieldOf]
        exact taken
      exact ⟨value :: values, .cons recordOf others, .cons bodyRead othersRead⟩
  obtain ⟨bodies, taken, bodiesRead⟩ := both
  refine ⟨bodies, option_mapM_eq_some.mpr taken, ?_⟩
  exact except_bind_eq_ok.mpr ⟨blocks, found, except_mapM_eq_ok.mpr bodiesRead⟩

/-- A part that is not a block is read alike in both modes. -/
private theorem PartReader.read_ofLines (lines : List Line) (limit : Nat)
    (text? : Option (Array Char)) :
    (ofLines lines).read .struct limit text? = (ofLines lines).read .body limit text? := by
  cases text? with
  | none => rfl
  | some text => simp only [ofLines, read]

/-- A part that can be read into records can be read into bodies. -/
theorem PartReader.read_bodies {content : Section} {reader : PartReader}
    (built : build content = .ok reader) {limit : Nat} {text? : Option (Array Char)} {value : Value}
    (read : reader.read .struct limit text? = .ok value) :
    ∃ bodies, content.bodiesOf? value = some bodies ∧
      reader.read .body limit text? = .ok bodies := by
  induction content generalizing reader text? value with
  | absent =>
    cases built
    refine ⟨value, rfl, ?_⟩
    cases text? with
    | none => exact read
    | some text => simpa only [PartReader.read] using read
  | line text =>
    rw [build_line] at built
    obtain ⟨line, -, rfl⟩ := except_map_eq_ok.mp built
    exact ⟨value, rfl, read_ofLines [line] limit text? ▸ read⟩
  | lines texts =>
    rw [build_lines] at built
    obtain ⟨lines, -, rfl⟩ := except_map_eq_ok.mp built
    exact ⟨value, rfl, read_ofLines lines limit text? ▸ read⟩
  | nested head body tail _ ih _ =>
    obtain ⟨outlines, headReader, bodyReader, tailReader, -, rfl, parts⟩ := blocks_of_build built
    rcases filled_or_null text? with ⟨text, rfl, filled⟩ | missing
    · rw [read_blocks _ _ _ _ _ _ filled] at read
      obtain ⟨records, recordsRead, rfl⟩ := except_map_eq_ok.mp read
      obtain ⟨bodies, taken, bodiesRead⟩ :=
        readBlocks_bodies (fun extent? value found => ih (parts .body) found) recordsRead
      refine ⟨.list bodies, ?_, ?_⟩
      · exact Option.map_eq_some_iff.mpr ⟨bodies, taken, rfl⟩
      · rw [read_blocks _ _ _ _ _ _ filled]
        exact except_map_eq_ok.mpr ⟨bodies, bodiesRead, rfl⟩
    · -- A part that is not there is null in the record and stays so.
      rw [missing] at read
      cases read
      exact ⟨.null, rfl, missing _ _ _⟩

/-- A capture of bodies finds the bodies of the records that a capture of records has found. -/
theorem Extractor.capture_body_of_struct {template : Template} {limit : Nat} {extractor : Extractor}
    (built : ofTemplate template limit = .ok extractor) {report : String} {records : List Value}
    (captured : extractor.capture .struct report = .ok records) :
    ∃ bodies, records.mapM template.layout.body.bodyOf? = some bodies ∧
      extractor.capture .body report = .ok bodies ∧ bodies.length = records.length := by
  obtain ⟨-, parts⟩ := parts_of_ofTemplate built
  obtain ⟨bodies, taken, bodiesRead⟩ := readBlocks_bodies
    (fun extent? value found => PartReader.read_bodies (parts .body) found) captured
  exact ⟨bodies, taken, bodiesRead, (option_mapM_eq_some.mp taken).length_eq.symm⟩

set_option maxRecDepth 20000 in
/-- Two blocks in the body of a block: their bodies are what is captured without the records. -/
theorem Extractor.capture_body_of_struct_nested :
    ∃ template extractor records,
      template.layout =
        ⟨.line "@.top", .nested .absent (.line "&!. #!.+i") (.line "@.end"), .absent⟩ ∧
      ofTemplate template 10 = .ok extractor ∧
      extractor.capture .struct "top\na +1\nend\nb 2\nend" = .ok records ∧
      ∃ bodies, records.mapM template.layout.body.bodyOf? = some bodies ∧
        extractor.capture .body "top\na +1\nend\nb 2\nend" = .ok bodies ∧
        bodies.length = records.length := by
  -- Two lines around a block, which ends with a line of its own.
  let top : Line := ⟨false, [.literal ⟨.required, false, .single⟩ 't' ['o', 'p']]⟩
  let row : Line := ⟨false, [.misc ⟨.required, true, .single⟩,
    .number ⟨.required, true, .single⟩ .positive .integer]⟩
  let bottom : Line := ⟨false, [.literal ⟨.required, false, .single⟩ 'e' ['n', 'd']]⟩
  have head : Line.parse "@.top" = .ok top := by decide +kernel
  have body : Line.parse "&!. #!.+i" = .ok row := by decide +kernel
  have tail : Line.parse "@.end" = .ok bottom := by decide +kernel
  obtain ⟨template, extractor, layout, built, made⟩ := exists_ofTemplate (.line head)
    (.nested .absent (.line body) (.line tail) (by decide)) .absent (by decide) 10
  have captured : extractor.capture .struct "top\na +1\nend\nb 2\nend" =
      .ok [.record [("head", .list [.list []]),
        ("body", .list [
          .record [("head", .null), ("body", .list [.list [.text "a", .text "+1"]]),
            ("tail", .list [.list []])],
          .record [("head", .null), ("body", .list [.list [.text "b", .text "2"]]),
            ("tail", .list [.list []])]]),
        ("tail", .null)]] := by
    rw [made]
    cbv
  exact ⟨template, extractor, _, layout, built, captured, capture_body_of_struct built captured⟩

end Gleaner
