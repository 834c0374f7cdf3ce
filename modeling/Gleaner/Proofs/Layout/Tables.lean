import Gleaner.Proofs.Layout.Runs
import Gleaner.Proofs.Line.Tokens
import Gleaner.Proofs.Token.Fields

/-!
# Printed tables are read back

A table is printed row by row, with the numerals of a row on a line of their own. A template whose
body is one repeated numeral and which has neither head nor tail finds the tables of a report and
gives back their numerals as they are written, whatever gaps and margins were printed, as long as
two tables are kept apart by at least one line that is no row.
-/

namespace Gleaner

/-- A line with the numerals of a row, gaps between them and margins around them. -/
structure RowWritten (kind : NumberKind) (sign : Sign) (row : List (List Char)) (word : List Char) :
    Prop where
  numerals : ∀ numeral ∈ row, numeral ∈ Numeral.language kind sign
  written : ∃ margin text margin', word = margin ++ text ++ margin' ∧ margin ∈ gaps ∧
    margin' ∈ gaps ∧ Spaced row text

/-- The lines of a report with some tables: before, between and behind them there are lines that are
no rows, at least one of them between two tables. -/
inductive TablesWritten (kind : NumberKind) (sign : Sign) :
    List (List (List (List Char))) → List (List Char) → Prop where
  | done : TablesWritten kind sign [] []
  | other {tables : List (List (List (List Char)))} {word : List Char} {lines : List (List Char)}
    (noRow : ∀ row, ¬RowWritten kind sign row word) (rest : TablesWritten kind sign tables lines) :
    TablesWritten kind sign tables (word :: lines)
  | table {table : List (List (List Char))} {tables : List (List (List (List Char)))}
    {rows lines : List (List Char)} (some : table ≠ [])
    (written : List.Forall₂ (RowWritten kind sign) table rows)
    (apart : ∀ word ∈ lines.head?, ∀ row, ¬RowWritten kind sign row word)
    (rest : TablesWritten kind sign tables lines) :
    TablesWritten kind sign (table :: tables) (rows ++ lines)

/-- A table as a value: a list of rows, which are lists of numerals as they are written. -/
def Value.ofTable (table : List (List (List Char))) : Value :=
  .list (table.map fun row => .list (row.map fun numeral => .text (String.ofList numeral)))

/-! ### Rows -/

namespace RowWritten

variable {kind : NumberKind} {sign : Sign} {row : List (List Char)} {word : List Char}

theorem fields (written : RowWritten kind sign row word) : blankFields word = row := by
  obtain ⟨numerals, margin, text, margin', rfl, before, behind, spaced⟩ := written
  rw [blankFields_append_gap behind, blankFields_gap_append before]
  exact blankFields_spaced spaced fun numeral member => Numeral.solid_of_mem (numerals numeral member)

theorem ne_nil (written : RowWritten kind sign row word) : word ≠ [] := by
  rintro rfl
  have fields := written.fields
  obtain ⟨-, margin, text, margin', -, -, -, spaced⟩ := written
  rw [← fields] at spaced
  cases spaced

end RowWritten

/-- The line that matches a row of numerals. -/
def Line.ofNumerals (kind : NumberKind) (sign : Sign) : Line :=
  ⟨false, [.number ⟨.required, true, .oneOrMore⟩ sign kind]⟩

namespace Line

variable {kind : NumberKind} {sign : Sign}

theorem parse_ofNumerals (kind : NumberKind) (sign : Sign) :
    parse (String.ofList ['#', '!', '+', sign.code, kind.code]) = .ok (ofNumerals kind sign) := by
  cases kind <;> cases sign <;> decide +kernel

theorem feedless_ofNumerals (kind : NumberKind) (sign : Sign) : (ofNumerals kind sign).Feedless := by
  simp [Feedless, ofNumerals, Token.literal?]

private theorem not_isWordChar_of_mem_gaps {gap : List Char} (gaps : gap ∈ gaps) :
    ∀ c ∈ gap, ¬isWordChar c := by
  intro c member
  rcases gaps c member with rfl | rfl <;> decide

/-- The line of a row fits the lines on which a row is written. -/
theorem fits_ofNumerals {word : List Char} :
    (ofNumerals kind sign).Fits word ↔ ∃ row, RowWritten kind sign row word := by
  constructor
  · rintro ⟨margin, rest, rfl, before, reading⟩
    cases reading with
    | last here behind apart =>
      obtain ⟨row, spaced, numerals⟩ := mem_spaced.mp here
      exact ⟨row, numerals, margin, _, _, (List.append_assoc _ _ _).symm, before, behind, spaced⟩
  · rintro ⟨row, numerals, margin, text, margin', rfl, before, behind, spaced⟩
    refine ⟨margin, text ++ margin', List.append_assoc _ _ _, before, ?_⟩
    apply Reading.last (mem_spaced.mpr ⟨row, spaced, numerals⟩) behind
    -- Beside the numerals there are only margins, so they stand apart from everything else.
    exact ⟨fun _ _ c last => not_isWordChar_of_mem_gaps before c (List.mem_of_getLast? last),
      fun _ _ c first => not_isWordChar_of_mem_gaps behind c (List.mem_of_mem_head? first)⟩

theorem matchesAlone_ofNumerals {word : List Char} (noFeed : '\n' ∉ word) :
    ((ofNumerals kind sign).pattern false 0).regex.matchesAlone word = true ↔
      ∃ row, RowWritten kind sign row word := by
  rw [matchesAlone_pattern rfl false 0 noFeed, fits_ofNumerals]

theorem rowWritten_iff {row : List (List Char)} {word : List Char} (noFeed : '\n' ∉ word) :
    RowWritten kind sign row word ↔
      ((ofNumerals kind sign).pattern false 0).regex.matchesAlone word = true ∧
        blankFields word = row := by
  rw [matchesAlone_ofNumerals noFeed]
  constructor
  · exact fun written => ⟨⟨row, written⟩, written.fields⟩
  · rintro ⟨⟨row', written⟩, rfl⟩
    rwa [written.fields]

/-- The one capture of a row is the line without its margins. -/
theorem captures_ofNumerals {word : List Char} (noFeed : '\n' ∉ word) {way : Way}
    (member : way ∈ ((ofNumerals kind sign).pattern true 0).regex.ways word.toArray 0) :
    ∃ start stop, way.captures = [⟨.slot 0, start, stop⟩] ∧
      blankFields (word.toArray.extract start stop).toList = blankFields word := by
  have ended : way.stop = word.toArray.size :=
    ((feedless_ofNumerals kind sign).lineWise_pattern rfl true 0).whole noFeed way member
  obtain ⟨start, stop, before, tokens, behind⟩ := tokensAt_of_mem member
  obtain ⟨reads, captured⟩ := tokensAt_singleton.mp tokens
  refine ⟨start, stop, captured, ?_⟩
  have inside : stop ≤ word.toArray.size := ended ▸ behind.forward
  -- What is left of the line on either side of the capture are its margins.
  have margins := Spacing.separator_denotes .optional
  have lead := margins.mem_of_reads before (Nat.le_trans reads.forward inside)
  have trail := margins.mem_of_reads behind (Nat.le_of_eq ended)
  rw [ended] at trail
  have parts := congrArg Array.toList (extract_parts reads.forward inside)
  rw [← blankFields_gap_append lead, ← blankFields_append_gap trail]
  exact congrArg blankFields parts

/-- The row of a line on which numerals are written is these numerals. -/
theorem row_ofNumerals {row : List (List Char)} {word : List Char} (noFeed : '\n' ∉ word)
    (written : RowWritten kind sign row word) {value : Value}
    (rowOf : (ofNumerals kind sign).RowOf word value) :
    value = .list (row.map fun numeral => .text (String.ofList numeral)) := by
  obtain ⟨budget, room, stop, captures, found, rfl⟩ := rowOf.matched
  have answers := Regex.matchAt_answers ((ofNumerals kind sign).pattern true 0).regex word.toArray
    budget room 0
  rw [found] at answers
  -- The one group spans all numerals, and its fields are these numerals.
  obtain ⟨first, last, captured, fields⟩ :=
    captures_ofNumerals noFeed (List.mem_of_mem_head? answers)
  have slots : ((ofNumerals kind sign).pattern true 0).slots = [⟨0, .number, .oneOrMore⟩] := rfl
  cases captured
  rw [slots, List.flatMap_singleton]
  simp only [Slot.values, Match.group?, Slot.name, List.find?_cons, decide_true, Option.map_some,
    Quantity.isRepeated, if_true, fields, written.fields]

end Line

/-! ### Tables -/

/-- The tables of a report are the runs of its lines that are rows. -/
theorem runs_of_tablesWritten {kind : NumberKind} {sign : Sign} {matching : List Char → Bool}
    {tables : List (List (List (List Char)))} {lines : List (List Char)}
    (written : TablesWritten kind sign tables lines)
    (rows : ∀ word ∈ lines, matching word = true ↔ ∃ row, RowWritten kind sign row word) :
    List.Forall₂ (List.Forall₂ (RowWritten kind sign)) tables (matchingRuns matching lines) := by
  induction written with
  | done => exact .nil
  | @other tables word lines noRow _ ih =>
    obtain ⟨here, others⟩ := List.forall_mem_cons.mp rows
    have other : matching word = false := by
      rw [← Bool.not_eq_true, here]
      exact fun ⟨row, written⟩ => noRow row written
    rw [matchingRuns_cons_of_not other]
    exact ih others
  | @table table tables run lines some written apart _ ih =>
    obtain ⟨inRun, others⟩ := List.forall_mem_append.mp rows
    have all : ∀ word ∈ run, matching word = true := by
      intro word member
      obtain ⟨row, -, here⟩ := exists_of_mem_right written member
      exact (inRun word member).mpr ⟨row, here⟩
    have ended : lines.takeWhile matching = [] := by
      cases lines with
      | nil => rfl
      | cons next lines =>
        have other : ¬matching next = true := by
          rw [others next List.mem_cons_self]
          exact fun ⟨row, written⟩ => apart next rfl row written
        exact List.takeWhile_cons_of_neg other
    -- A table has a row, and a row is never an empty line.
    have block : isBlock run = true := by
      cases written with
      | nil => exact absurd rfl some
      | cons first _ => simp [isBlock, first.ne_nil]
    rw [matchingRuns_append all ended, List.filter_cons_of_pos block]
    exact .cons written (ih others)

/-- What is read of the rows of a table is the table. -/
theorem Line.table_ofNumerals {kind : NumberKind} {sign : Sign} {table : List (List (List Char))}
    {run : List (List Char)} (written : List.Forall₂ (RowWritten kind sign) table run)
    (noFeeds : ∀ word ∈ run, '\n' ∉ word) {value : Value}
    (read : (ofNumerals kind sign).RunRead run value) : value = .ofTable table := by
  obtain ⟨rows, rfl, each⟩ := read
  have all : run.filter (· ≠ []) = run := by
    apply List.filter_eq_self.mpr
    intro word member
    obtain ⟨row, -, here⟩ := exists_of_mem_right written member
    simpa using here.ne_nil
  rw [all] at each
  rw [Value.ofTable]
  congr 1
  -- Line by line: the row that is read is the row that was written.
  clear all
  induction written generalizing rows with
  | nil =>
    cases each
    rfl
  | cons here _ ih =>
    cases each with
    | cons first others =>
      obtain ⟨noFeed, noFeeds⟩ := List.forall_mem_cons.mp noFeeds
      rw [List.map_cons, row_ofNumerals noFeed here first, ih noFeeds _ others]

/-! ### Reports -/

/-- A line that is not optional is all that the extractor of a body of this line needs. -/
theorem Extractor.exists_ofTemplate_line {source : String} {line : Line}
    (parsed : Line.parse source = .ok line) (mandatory : line.optional = false) (limit : Nat) :
    ∃ template, Template.make ⟨.absent, .line source, .absent⟩ = .ok template ∧
      ofTemplate template limit = .ok
        ⟨bodyOnly (line.pattern false 0).regex, .absent, .ofLines [line], .absent, limit⟩ := by
  obtain ⟨template, _, layout, built, rfl⟩ := exists_ofTemplate_lines (.line parsed) limit
  have outline : (Line.sequence false 0 [line]).outline = ⟨(line.pattern false 0).regex, false⟩ := by
    rw [← mandatory]
    rfl
  rw [outline] at built
  exact ⟨template, Template.make_eq_ok.mpr layout, built⟩

/-- Table by table: its run is the body of a block, and what is read of the run is the table. -/
theorem values_of_tables {kind : NumberKind} {sign : Sign} {text : Array Char} {limit : Nat}
    {tables : List (List (List (List Char)))} {runs : List (List (List Char))} {blocks : List Match}
    {values : List Value} (written : List.Forall₂ (List.Forall₂ (RowWritten kind sign)) tables runs)
    (found : List.Forall₂
      (Regex.LineWise.RunAt ((Line.ofNumerals kind sign).pattern false 0).regex text) runs blocks)
    (read : List.Forall₂ (fun block value =>
      (PartReader.ofLines [Line.ofNumerals kind sign]).read .body limit
        (block.group? text (.part .body)) = .ok value) blocks values) :
    values = tables.map Value.ofTable := by
  -- On the tables with their runs; blocks and values go along one by one.
  induction written generalizing blocks values with
  | nil =>
    cases found
    cases read
    rfl
  | cons table _ ih =>
    cases found with
    | cons runAt found =>
      cases read with
      | cons first read =>
        have noFeeds := fun word member => (runAt.matching word member).1
        have rows := Line.runRead_of_runAt (Line.feedless_ofNumerals kind sign) rfl runAt first
        rw [List.map_cons, Line.table_ofNumerals table noFeeds rows, ih found read]

/-- A body of repeated numerals, whatever their kind and sign, reads printed tables back. -/
theorem Extractor.capture_printed_tables (kind : NumberKind) (sign : Sign) (limit : Nat) :
    ∃ template extractor,
      Template.make
        ⟨.absent, .line (String.ofList ['#', '!', '+', sign.code, kind.code]), .absent⟩ =
        .ok template ∧
      ofTemplate template limit = .ok extractor ∧
      ∀ tables report, TablesWritten kind sign tables (report.toList.splitOn '\n') →
        ∀ values, extractor.capture .body report = .ok values →
          values = tables.map Value.ofTable := by
  have feedless := Line.feedless_ofNumerals kind sign
  have mandatory : (Line.ofNumerals kind sign).optional = false := rfl
  obtain ⟨template, made, built⟩ :=
    exists_ofTemplate_line (Line.parse_ofNumerals kind sign) mandatory limit
  refine ⟨template, _, made, built, fun tables report written values captured => ?_⟩
  obtain ⟨blocks, found, each⟩ := bodies_of_readBlocks captured
  have runs := (feedless.lineWise_pattern mandatory false 0).runs_of_findAll
    (Line.groupNames_sequence_false 0 [_]) found
  -- The lines that match are the rows, so the runs are the tables.
  have tablesRuns := runs_of_tablesWritten written fun word member =>
    Line.matchesAlone_ofNumerals (not_mem_of_mem_splitOn member)
  apply values_of_tables tablesRuns runs
  apply each.imp
  rintro block value ⟨body, projected, read⟩
  cases projected
  exact read

set_option maxRecDepth 20000 in
/-- Two tables under a title, with a rule between them. -/
theorem Extractor.capture_printed_tables_ruled :
    ∃ template extractor,
      Template.make ⟨.absent, .line "#!+.i", .absent⟩ = .ok template ∧
      ofTemplate template 10 = .ok extractor ∧
      TablesWritten .integer .any [[["1".toList, "-2".toList], ["+3".toList]], [["4".toList]]]
        ("total\n 1\t-2 \n+3\n--\n4".toList.splitOn '\n') ∧
      ∃ values, extractor.capture .body "total\n 1\t-2 \n+3\n--\n4" = .ok values ∧
        values = [.list [.list [.text "1", .text "-2"], .list [.text "+3"]],
          .list [.list [.text "4"]]] := by
  obtain ⟨template, extractor, made, built, reads⟩ :=
    capture_printed_tables .integer .any 10
  have rule (row : List (List Char)) : ¬RowWritten .integer .any row "--".toList := fun written =>
    absurd ((Line.rowWritten_iff (by decide)).mp written).1 (by decide +kernel)
  have title (row : List (List Char)) : ¬RowWritten .integer .any row "total".toList :=
    fun written => absurd ((Line.rowWritten_iff (by decide)).mp written).1 (by decide +kernel)
  have first : List.Forall₂ (RowWritten .integer .any) [["1".toList, "-2".toList], ["+3".toList]]
      [" 1\t-2 ".toList, "+3".toList] :=
    .cons ((Line.rowWritten_iff (by decide)).mpr (by decide +kernel))
      (.cons ((Line.rowWritten_iff (by decide)).mpr (by decide +kernel)) .nil)
  have second : List.Forall₂ (RowWritten .integer .any) [["4".toList]] ["4".toList] :=
    .cons ((Line.rowWritten_iff (by decide)).mpr (by decide +kernel)) .nil
  have written : TablesWritten .integer .any
      [[["1".toList, "-2".toList], ["+3".toList]], [["4".toList]]]
      ("total\n 1\t-2 \n+3\n--\n4".toList.splitOn '\n') := by
    have cut : "total\n 1\t-2 \n+3\n--\n4".toList.splitOn '\n' = "total".toList ::
        ([" 1\t-2 ".toList, "+3".toList] ++ "--".toList :: (["4".toList] ++ [])) := by cbv
    rw [cut]
    apply TablesWritten.other title
    apply TablesWritten.table (by decide) first (by simpa using rule)
    apply TablesWritten.other rule
    exact .table (by decide) second (by simp) .done
  -- There is only one template of this layout, so only one extractor.
  obtain ⟨template', made', built'⟩ :=
    exists_ofTemplate_line (Line.parse_ofNumerals .integer .any) rfl 10
  cases made'.symm.trans made
  cases built'.symm.trans built
  have captured : Extractor.capture
      ⟨bodyOnly ((Line.ofNumerals .integer .any).pattern false 0).regex, .absent,
        .ofLines [.ofNumerals .integer .any], .absent, 10⟩ .body "total\n 1\t-2 \n+3\n--\n4" =
      .ok [.list [.list [.text "1", .text "-2"], .list [.text "+3"]],
        .list [.list [.text "4"]]] := by cbv
  exact ⟨template, _, made, built, written, _, captured, reads _ _ written _ captured⟩

end Gleaner
