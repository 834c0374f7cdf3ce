import Gleaner.Proofs.Line.Rows
import Mathlib.Tactic

/-!
# Bodies of one line

A body that is one line, repeated. Whatever stands before and behind it in a block, its extent is a
run of whole lines that match the line alone, and each line that is not empty gives one row. Where
nothing stands before or behind it, the blocks of a report are the longest runs of matching lines,
except for empty lines that stand by themselves.
-/

namespace Gleaner

/-- The part of a captured value that comes from the body. -/
def Mode.bodyOf : Mode → Value → Option Value
  | .body, value => some value
  | .struct, value => value.part? .body

/-- What a body of one line is, and what is captured of it: whole lines that match alone, and one
row for each that is not empty. -/
structure Line.BodyRead (line : Line) (text : Array Char) (start stop : Nat) (body : Value) :
    Prop where
  starts : AtLineStart text start
  ends : AtLineEnd text stop
  matching : ∀ word ∈ (text.extract start stop).toList.splitOn '\n',
    (line.pattern true 0).regex.MatchesAt word.toArray 0
  empty : start = stop → body = .null
  rows : start < stop → ∃ rows, body = .list rows ∧
    List.Forall₂ line.RowOf (((text.extract start stop).toList.splitOn '\n').filter (· ≠ [])) rows

/-! ### The reader of a body -/

/-- The section is the given line and nothing else. -/
def Section.IsLine (content : Section) (source : String) : Prop :=
  content = .line source ∨ content = .lines [source]

theorem Section.IsLine.makes {content : Section} {source : String}
    (isLine : content.IsLine source) {line : Line} (parsed : Line.parse source = .ok line) :
    content.Makes (some ⟨(line.pattern false 0).regex, line.optional⟩) (.ofLines [line]) := by
  rcases isLine with rfl | rfl
  · exact .line parsed
  · exact .lines (parseLines_eq_ok.mpr ⟨List.cons_ne_nil _ _, .cons parsed .nil⟩)

/-- What is captured of the bodies of the blocks that are found. -/
theorem bodies_of_readBlocks {regex : Regex} {mode : Mode} {limit : Nat}
    {readPart : Part → Option (Array Char) → Except Fault Value} {text : Array Char}
    {values : List Value} (read : readBlocks regex mode limit readPart text = .ok values) :
    ∃ blocks, regex.findAll limit text = .ok blocks ∧
      List.Forall₂ (fun block value => ∃ body, mode.bodyOf value = some body ∧
        readPart .body (block.group? text (.part .body)) = .ok body) blocks values := by
  obtain ⟨blocks, found, each⟩ := except_bind_eq_ok.mp read
  refine ⟨blocks, found, (except_mapM_eq_ok.mp each).imp fun block value made => ?_⟩
  -- In a record the body stands under its key, between head and tail.
  cases mode with
  | body => exact ⟨value, rfl, made⟩
  | struct =>
    obtain ⟨head, -, made⟩ := except_bind_eq_ok.mp made
    obtain ⟨body, bodyRead, made⟩ := except_bind_eq_ok.mp made
    obtain ⟨tail, -, made⟩ := except_bind_eq_ok.mp made
    cases made
    exact ⟨body, by simp [Mode.bodyOf, Value.part?, Value.get?, Part.key], bodyRead⟩

/-! ### One row for each line -/

private theorem splitOn_lines {word : List Char} {lines : List (List Char)}
    (feedless : ∀ one ∈ word :: lines, '\n' ∉ one) :
    (word ++ followed lines).splitOn '\n' = word :: lines := by
  rw [← intercalate_cons, List.splitOn_intercalate '\n' feedless (List.cons_ne_nil _ _)]

theorem Line.bodyRead {line : Line} (feedless : line.Feedless) (mandatory : line.optional = false)
    {text : Array Char} {start stop : Nat}
    (reads : (Outlines.repeated ⟨(line.pattern false 0).regex, line.optional⟩).regex.Reads text
      start stop) {mode : Mode} {limit : Nat} {body : Value}
    (read : PartReader.read mode limit
      (.rows (line.pattern true 0).regex (line.pattern true 0).slots)
      (some (text.extract start stop)) = .ok body) :
    line.BodyRead text start stop body := by
  have lineWise := feedless.lineWise_pattern mandatory false 0
  obtain ⟨left, word, lines, right, rfl, rfl, rfl, before, behind, matching⟩ :=
    lineWise.lines_of_reads_repeated reads
  have extent := extract_middle left (word ++ followed lines) right
  -- The block was matched without captures and the rows with them, but both mean the same lines.
  have fits : ∀ one ∈ word :: lines, '\n' ∉ one ∧
      (line.pattern true 0).regex.matchesAlone one = true := by
    intro one member
    obtain ⟨noFeed, matches_⟩ := matching one member
    exact ⟨noFeed, (matchesAlone_pattern mandatory true 0 noFeed).mpr
      ((matchesAlone_pattern mandatory false 0 noFeed).mp matches_)⟩
  have split := splitOn_lines fun one member => (matching one member).1
  rw [extent] at read
  refine ⟨?_, ?_, ?_, fun same => ?_, fun differ => ?_⟩
  · rcases List.eq_nil_or_concat left with rfl | ⟨others, last, rfl⟩
    · exact Or.inl rfl
    · have feed := before last (by simp)
      exact Or.inr (by simp [feed])
  · cases right with
    | nil => exact Or.inl (by simp)
    | cons c rest =>
      have feed := behind c rfl
      exact Or.inr (by simp [feed])
  · rw [extent, List.toList_toArray, split]
    exact fun one member => of_decide_eq_true (fits one member).2
  · have blank : word ++ followed lines = [] := List.eq_nil_of_length_eq_zero (by omega)
    rw [blank] at read
    exact (Except.ok.inj read).symm
  · have some : (word ++ followed lines).toArray.isEmpty = false := by
      simpa using List.length_pos_iff.mp (show 0 < (word ++ followed lines).length by omega)
    simp only [PartReader.read, some, Bool.false_eq_true, if_false] at read
    rw [extent, List.toList_toArray, split]
    exact rowOf_of_readRows feedless mandatory fits read

/-- A body of one line gives one row for each of its lines that is not empty, whatever stands
before and behind it. -/
theorem Extractor.capture_one_row_per_line {template : Template} {limit : Nat}
    {extractor : Extractor} (built : ofTemplate template limit = .ok extractor) {source : String}
    (isLine : template.layout.body.IsLine source) {line : Line}
    (parsed : Line.parse source = .ok line) (mandatory : line.optional = false)
    (feedless : line.Feedless) {mode : Mode} {report : String} {values : List Value}
    (captured : extractor.capture mode report = .ok values) :
    ∃ blocks, extractor.regex.findAll extractor.limit report.toList.toArray = .ok blocks ∧
      List.Forall₂ (fun block value => ∃ start stop body,
        block.capture? (.part .body) = some ⟨.part .body, start, stop⟩ ∧
        mode.bodyOf value = some body ∧
        line.BodyRead report.toList.toArray start stop body) blocks values := by
  obtain ⟨regex_eq, parts⟩ := parts_of_ofTemplate built
  obtain ⟨blocks, found, each⟩ := bodies_of_readBlocks captured
  refine ⟨blocks, found, ?_⟩
  have finds := Regex.finds_of_findAll found
  rw [regex_eq] at finds
  obtain ⟨-, bodied, -⟩ := Outlines.ofParts_eq_ok.mp template.outlines_eq
  rw [(isLine.makes parsed).outline] at bodied
  have outline_eq : _ = template.outlines.body := Option.some.inj (Except.ok.inj bodied)
  refine List.forall₂_iff_zip.mpr ⟨each.length_eq, fun {block value} member => ?_⟩
  -- The search tells where the body is, and the reader what is captured there.
  obtain ⟨body, bodyOf, read⟩ := (List.forall₂_iff_zip.mp each).2 member
  obtain ⟨-, start, stop, -, -, -, reads, taken, -, -⟩ :=
    template.nameless.parts_of_finds finds (List.of_mem_zip member).1
  refine ⟨start, stop, body, taken, bodyOf, ?_⟩
  rw [← outline_eq] at reads
  have group : block.group? report.toList.toArray (.part .body) =
      some (report.toList.toArray.extract start stop) := by
    change (block.capture? (.part .body)).map _ = _
    rw [taken]
    rfl
  rw [group] at read
  rw [← Except.ok.inj (((isLine.makes parsed).build).symm.trans (parts .body))] at read
  exact Line.bodyRead feedless mandatory reads read

set_option maxRecDepth 20000 in
/-- Two rows between a head of one line and a tail that is a block itself. -/
theorem Extractor.capture_one_row_per_line_between :
    ∃ template extractor line,
      template.layout =
        ⟨.line "@.top", .lines ["&!. #!.+i"], .nested .absent (.line "@.end") .absent⟩ ∧
      ofTemplate template 10 = .ok extractor ∧ Line.parse "&!. #!.+i" = .ok line ∧
      ∃ blocks,
        extractor.regex.findAll extractor.limit "top\na +1\nb 2\nend".toList.toArray = .ok blocks ∧
        List.Forall₂ (fun block value => ∃ start stop body,
          block.capture? (.part .body) = some ⟨.part .body, start, stop⟩ ∧
          Mode.struct.bodyOf value = some body ∧
          line.BodyRead "top\na +1\nb 2\nend".toList.toArray start stop body) blocks
          [.record [("head", .list [.list []]),
            ("body", .list [.list [.text "a", .text "+1"], .list [.text "b", .text "2"]]),
            ("tail", .list [.record [("head", .null), ("body", .list [.list []]),
              ("tail", .null)]])]] := by
  let top : Line := ⟨false, [.literal ⟨.required, false, .single⟩ 't' ['o', 'p']]⟩
  let row : Line := ⟨false, [.misc ⟨.required, true, .single⟩,
    .number ⟨.required, true, .single⟩ .positive .integer]⟩
  let bottom : Line := ⟨false, [.literal ⟨.required, false, .single⟩ 'e' ['n', 'd']]⟩
  have head : Line.parse "@.top" = .ok top := by decide +kernel
  have parsed : Line.parse "&!. #!.+i" = .ok row := by decide +kernel
  have tail : Line.parse "@.end" = .ok bottom := by decide +kernel
  obtain ⟨template, extractor, layout, built, made⟩ := exists_ofTemplate (.line head)
    (Section.IsLine.makes (Or.inr rfl) parsed) (.nested .absent (.line tail) .absent (by decide))
    (by decide) 10
  have captured : extractor.capture .struct "top\na +1\nb 2\nend" = .ok [.record
      [("head", .list [.list []]),
        ("body", .list [.list [.text "a", .text "+1"], .list [.text "b", .text "2"]]),
        ("tail", .list [.record [("head", .null), ("body", .list [.list []]),
          ("tail", .null)]])]] := by
    rw [made]
    cbv
  have feedless : row.Feedless := by simp [Line.Feedless, row, Token.literal?]
  have isLine : template.layout.body.IsLine "&!. #!.+i" := by
    rw [layout]
    exact Or.inr rfl
  exact ⟨template, extractor, row, layout, built, parsed,
    capture_one_row_per_line built isLine parsed rfl feedless captured⟩

end Gleaner
