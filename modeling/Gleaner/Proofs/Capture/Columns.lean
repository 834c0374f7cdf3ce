import Gleaner.Proofs.Capture.Schema
import Gleaner.Proofs.Layout.Alike
import Gleaner.Proofs.Line.Columns

/-!
# Values belong to their tokens

Wherever a row stands in what is captured, in a part of the report's blocks or in a part of a block
inside a block, it is a row of the lines that the layout has in this place: its values are those of
the tokens that are kept, in their order, and stand in a part of the report that these lines take up.
-/

namespace Gleaner

/-- The value of a part in what is captured of a block. A capture of bodies has nothing but these. -/
def Mode.partOf? : Mode → Part → Value → Option Value
  | .body, .body, entry => some entry
  | .body, .head, _ | .body, .tail, _ => none
  | .struct, part, entry => entry.part? part

/-- A row among the values of a section, and the written lines that it belongs to. -/
inductive Section.RowIn (mode : Mode) : Section → Value → List String → Value → Prop where
  | line {text : String} {rows : List Value} {row : Value} (member : row ∈ rows) :
    RowIn mode (.line text) (.list rows) [text] row
  | lines {texts : List String} {rows : List Value} {row : Value} (member : row ∈ rows) :
    RowIn mode (.lines texts) (.list rows) texts row
  | nested (part : Part) {head body tail : Section} {entries : List Value} {entry value row : Value}
    {texts : List String} (member : entry ∈ entries) (found : mode.partOf? part entry = some value)
    (inside : RowIn mode (Layout.part ⟨head, body, tail⟩ part) value texts row) :
    RowIn mode (.nested head body tail) (.list entries) texts row

/-- A row of some written lines, read from a part of a text. Groups have 64-bit numbers, and there
must be enough of them. -/
def RowFrom (texts : List String) (text : List Char) (row : Value) : Prop :=
  ∃ lines, parseLines texts = .ok lines ∧
    ((Line.kept lines).length ≤ UInt64.size →
      ∃ word items, word <:+: text ∧ row = .list items ∧ Line.Row lines word items)

theorem RowFrom.mono {texts : List String} {text text' : List Char} {row : Value}
    (rowFrom : RowFrom texts text row) (part : text <:+: text') : RowFrom texts text' row := by
  obtain ⟨lines, parsed, read⟩ := rowFrom
  refine ⟨lines, parsed, fun enough => ?_⟩
  obtain ⟨word, items, inside, same, row⟩ := read enough
  exact ⟨word, items, inside.trans part, same, row⟩

theorem isInfix_between (text : Array Char) (start stop : Nat) :
    between text start stop <:+: text.toList := by
  rw [between, Array.toList_extract, List.extract_eq_take_drop]
  exact (List.take_prefix _ _).isInfix.trans (List.drop_suffix _ _).isInfix

theorem Match.isInfix_of_group? (found : Match) {text extent : Array Char} {name : GroupName}
    (captured : found.group? text name = some extent) : extent.toList <:+: text.toList := by
  obtain ⟨capture, -, rfl⟩ := Option.map_eq_some_iff.mp captured
  exact isInfix_between text _ _

/-- In a block, what holds of all parts holds of each. -/
theorem Mode.EntryOf.of_partOf? {mode : Mode} {holds : Part → Value → Prop} {entry value : Value}
    {part : Part} (entryOf : mode.EntryOf holds entry) (found : mode.partOf? part entry = some value) :
    holds part value := by
  cases mode with
  -- Nothing but the body is captured in this mode.
  | body =>
    cases part with
    | body =>
      cases found
      exact entryOf
    | head | tail => cases found
  | struct =>
    obtain ⟨head, body, tail, rfl, ofHead, ofBody, ofTail⟩ := entryOf
    cases part with
    | head =>
      cases found
      exact ofHead
    | body =>
      cases found
      exact ofBody
    | tail =>
      cases found
      exact ofTail

theorem rowFrom_of_readRows {texts : List String} {lines : List Line}
    (parsed : parseLines texts = .ok lines) {limit : Nat} {text : Array Char} {rows : List Value}
    (read : readRows (Line.sequence true 0 lines).regex (Line.sequence true 0 lines).slots limit text =
      .ok (.list rows)) {row : Value} (member : row ∈ rows) : RowFrom texts text.toList row := by
  refine ⟨lines, parsed, fun enough => ?_⟩
  obtain ⟨found, searched, returned⟩ := except_bind_eq_ok.mp read
  cases returned
  obtain ⟨one, inFound, rfl⟩ := List.mem_map.mp member
  obtain ⟨first, -, -⟩ := (Regex.finds_of_findAll searched).of_mem inFound
  -- With enough numbers the groups of the lines have different names, so nothing is mixed up.
  have nodup : ((Line.sequence true 0 lines).slots.map Slot.name).Nodup :=
    Line.nodup_names_sequence (by decide) enough
  have row := Line.row_of_mem (ne_nil_of_parseLines parsed) nodup
    (List.mem_of_mem_head? first.preferred) first.stop_le
  exact ⟨_, _, isInfix_between text _ _, rfl, row⟩

namespace PartReader

variable {mode : Mode} {limit : Nat} {extent? : Option (Array Char)} {value row : Value}
  {texts : List String}

theorem rowFrom_of_read_lines {reader : PartReader} (built : build (.lines texts) = .ok reader)
    {rows : List Value} (read : reader.read mode limit extent? = .ok (.list rows))
    (member : row ∈ rows) : ∃ extent ∈ extent?, RowFrom texts extent.toList row := by
  rw [build_lines] at built
  obtain ⟨lines, parsed, rfl⟩ := except_map_eq_ok.mp built
  rcases filled_or_null extent? with ⟨extent, rfl, filled⟩ | null
  · rw [ofLines, read_rows mode limit _ _ filled] at read
    exact ⟨extent, rfl, rowFrom_of_readRows parsed read member⟩
  · cases (null mode limit _).symm.trans read

/-- A row in a part of a block is read from the extent of this part, and so from the block's text. -/
theorem rowFrom_of_readBlocks {regex : Regex}
    {readPart : Part → Option (Array Char) → Except Fault Value} {text : Array Char}
    {entries : List Value} (read : readBlocks regex mode limit readPart text = .ok entries)
    {entry : Value} (member : entry ∈ entries) {part : Part}
    (found : mode.partOf? part entry = some value)
    (inPart : ∀ {extent?}, readPart part extent? = .ok value →
      ∃ extent ∈ extent?, RowFrom texts extent.toList row) : RowFrom texts text.toList row := by
  obtain ⟨blocks, -, each⟩ := entriesOf_of_readBlocks (fun _ _ _ partRead => partRead) read
  obtain ⟨block, -, entryOf⟩ := exists_of_mem_right each member
  obtain ⟨extent, captured, rowFrom⟩ := inPart (entryOf.of_partOf? found)
  exact rowFrom.mono (block.isInfix_of_group? captured)

/-- A row in a section is a row of its lines, read from the extent of the section. -/
theorem rowFrom_of_read {content : Section} {reader : PartReader}
    (built : build content = .ok reader) (read : reader.read mode limit extent? = .ok value)
    (rowIn : content.RowIn mode value texts row) :
    ∃ extent ∈ extent?, RowFrom texts extent.toList row := by
  induction rowIn generalizing reader extent? with
  | line member =>
    rw [(Section.Alike.single _).build_eq] at built
    exact rowFrom_of_read_lines built read member
  | lines member => exact rowFrom_of_read_lines built read member
  | nested part member found inside ih =>
    -- What has a row in it is not null, so there is an extent, and blocks were found in it.
    obtain ⟨outlines, head, body, tail, -, rfl, parts⟩ := blocks_of_build built
    rcases filled_or_null extent? with ⟨extent, rfl, filled⟩ | null
    · rw [read_blocks mode limit _ _ _ _ filled] at read
      obtain ⟨_, blocksRead, same⟩ := except_map_eq_ok.mp read
      cases same
      exact ⟨extent, rfl, rowFrom_of_readBlocks blocksRead member found (ih (parts part))⟩
    · cases (null mode limit _).symm.trans read

end PartReader

/-- Every row that is captured, at whatever depth, is a row of the lines that stand in its place in the
layout, read from a part of the report. So all rows of lines without repeated captures have the same
width, and every text of a row is part of the report. The lines may keep as many tokens as there are
64-bit numbers for their groups. -/
theorem Extractor.capture_rows_of_tokens {template : Template} {limit : Nat} {extractor : Extractor}
    (built : ofTemplate template limit = .ok extractor) {mode : Mode} {report : String}
    {values : List Value} (captured : extractor.capture mode report = .ok values)
    {texts : List String} {row : Value}
    (rowIn : template.toSection.RowIn mode (.list values) texts row) :
    ∃ lines, parseLines texts = .ok lines ∧
      ((Line.kept lines).length ≤ UInt64.size →
        ∃ word items, word <:+: report.toList ∧ row = .list items ∧ Line.Row lines word items ∧
          ((∀ token ∈ Line.kept lines, token.quantity = .single) →
            items.length = (Line.kept lines).length) ∧
          ∀ text, .text text ∈ items → text.toList <:+: report.toList) := by
  obtain ⟨-, parts⟩ := parts_of_ofTemplate built
  -- A report is read like the extent of a part that is a block.
  have rowFrom : RowFrom texts report.toList row := by
    cases rowIn with
    | nested part member found inside =>
      exact PartReader.rowFrom_of_readBlocks captured member found fun partRead =>
        PartReader.rowFrom_of_read (parts part) partRead inside
  obtain ⟨lines, parsed, read⟩ := rowFrom
  refine ⟨lines, parsed, fun enough => ?_⟩
  obtain ⟨word, items, inside, same, row⟩ := read enough
  -- The other two conclusions follow from the shape of the row alone.
  exact ⟨word, items, inside, same, row, row.length_eq, fun text member =>
    (row.isInfix member).trans inside⟩

set_option maxRecDepth 20000 in
/-- A row of two lines in a block inside a block, of which the optional one is missing. -/
theorem Extractor.capture_rows_of_tokens_missing :
    ∃ template extractor values,
      template.layout =
        ⟨.absent, .nested .absent (.lines ["? @!.kg", "&!. #!++i"]) .absent, .absent⟩ ∧
      ofTemplate template 10 = .ok extractor ∧
      extractor.capture .body "kg\na 1 2\nb 3" = .ok values ∧
      template.toSection.RowIn .body (.list values) ["? @!.kg", "&!. #!++i"]
        (.list [.null, .text "b", .text "3"]) ∧
      ∃ lines word, parseLines ["? @!.kg", "&!. #!++i"] = .ok lines ∧
        (Line.kept lines).length ≤ UInt64.size ∧
        word <:+: "kg\na 1 2\nb 3".toList ∧ Line.Row lines word [.null, .text "b", .text "3"] := by
  let unit : Line := ⟨true, [.literal ⟨.required, true, .single⟩ 'k' ['g']]⟩
  let row : Line := ⟨false, [.misc ⟨.required, true, .single⟩,
    .number ⟨.required, true, .oneOrMore⟩ .positive .integer]⟩
  have parsed : parseLines ["? @!.kg", "&!. #!++i"] = .ok [unit, row] := by decide +kernel
  obtain ⟨template, extractor, layout, built, made⟩ := exists_ofTemplate .absent
    (.nested .absent (.lines parsed) .absent (by decide)) .absent (by decide) 10
  -- The second row has no unit before it.
  have captured : extractor.capture .body "kg\na 1 2\nb 3" =
      .ok [.list [.list [.list [.text "kg", .text "a", .text "1", .text "2"],
        .list [.null, .text "b", .text "3"]]]] := by
    rw [made]
    cbv
  have rowIn : template.toSection.RowIn .body
      (.list [.list [.list [.list [.text "kg", .text "a", .text "1", .text "2"],
        .list [.null, .text "b", .text "3"]]]]) ["? @!.kg", "&!. #!++i"]
      (.list [.null, .text "b", .text "3"]) := by
    rw [Template.toSection, layout]
    refine .nested .body List.mem_cons_self rfl (.nested .body List.mem_cons_self rfl ?_)
    exact .lines (List.mem_cons_of_mem _ List.mem_cons_self)
  obtain ⟨lines, parsed', read⟩ := capture_rows_of_tokens built captured rowIn
  cases parsed.symm.trans parsed'
  have enough : (Line.kept [unit, row]).length ≤ UInt64.size := by decide
  obtain ⟨word, items, inside, same, isRow, -, -⟩ := read enough
  cases same
  exact ⟨template, extractor, _, layout, built, captured, rowIn, _, word, parsed, enough, inside,
    isRow⟩

end Gleaner
