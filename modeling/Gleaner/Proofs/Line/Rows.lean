import Gleaner.Capture.Extractor
import Gleaner.Proofs.Layout.Framing
import Gleaner.Proofs.Line.Runs

/-!
# The rows of a run of lines

A text of lines that each match the pattern of a line is read row by row: every line that is not
empty gives one row, and the row is the one that the line gives when it is matched alone. Empty
lines match too, but their matches are empty and leave no row.
-/

namespace Gleaner

/-- The row that the pattern of a line gives for a text that it matches as a whole, and the only
row that is read from it. -/
structure Line.RowOf (line : Line) (word : List Char) (row : Value) : Prop where
  matched : ∃ budget room stop captures,
    (line.pattern true 0).regex.matchAt word.toArray budget room 0 = .matched stop captures ∧
    row = .list ((line.pattern true 0).slots.flatMap fun slot =>
      slot.values ⟨0, stop, captures⟩ word.toArray)
  read : ∀ limit value,
    readRows (line.pattern true 0).regex (line.pattern true 0).slots limit word.toArray =
      .ok value → value = .list [row]

/-! ### Matches of single lines -/

/-- A match of a line is the match of the line taken alone, moved to where it stands. -/
def Regex.MatchOf (regex : Regex) (text : Array Char) (word : List Char) (found : Match) : Prop :=
  ∃ left right way, text = (left ++ word ++ right).toArray ∧
    (regex.ways word.toArray 0).head? = some way ∧
    found = ⟨left.length, left.length + way.stop, way.captures.map (Capture.shift left.length)⟩

private theorem extract_shift (left word right : List Char) {start stop : Nat}
    (inside : stop ≤ word.length) :
    (left ++ word ++ right).toArray.extract (left.length + start) (left.length + stop) =
      word.toArray.extract start stop := by
  apply Array.ext_getElem?
  intro i
  simp only [Array.getElem?_extract, List.size_toArray, List.length_append,
    List.getElem?_toArray]
  -- Inside the extent both sides have the same character, outside they have none.
  by_cases within : i < min stop word.length - start
  · have here : start + i < word.length := by omega
    rw [if_pos within, if_pos (by omega)]
    simp [List.getElem?_append, Nat.add_assoc, here]
  · rw [if_neg within, if_neg (by omega)]

theorem extract_middle (left word right : List Char) :
    (left ++ word ++ right).toArray.extract left.length (left.length + word.length) =
      word.toArray := by
  have moved : (left ++ word ++ right).toArray.extract (left.length + 0)
      (left.length + word.length) = word.toArray.extract 0 word.length :=
    extract_shift left word right (Nat.le_refl _)
  rw [Nat.add_zero] at moved
  rw [moved, ← List.size_toArray, Array.extract_size]

theorem Regex.MatchOf.values {regex : Regex} {text : Array Char} {word : List Char} {found : Match}
    (matchOf : regex.MatchOf text word found) {way : Way}
    (first : (regex.ways word.toArray 0).head? = some way) (slot : Slot) :
    slot.values found text = slot.values ⟨0, way.stop, way.captures⟩ word.toArray := by
  obtain ⟨left, right, way', rfl, first', rfl⟩ := matchOf
  cases Option.some.inj (first.symm.trans first')
  have member := List.mem_of_mem_head? first
  have stop_le : way.stop ≤ word.length := by
    have within := (Regex.within_ways word.toArray regex 0 way member).2
    rw [List.size_toArray] at within
    omega
  have covers := Regex.covers_ways word.toArray regex member
  -- Captures lie inside the line, and there both texts are the same.
  have group : Match.group? ⟨left.length, left.length + way.stop,
        way.captures.map (Capture.shift left.length)⟩ (left ++ word ++ right).toArray slot.name =
      Match.group? ⟨0, way.stop, way.captures⟩ word.toArray slot.name := by
    simp only [Match.group?, List.find?_map, Option.map_map]
    refine Option.map_congr fun capture found => ?_
    have inside := covers capture (List.mem_of_find?_eq_some found)
    exact extract_shift left word right (Nat.le_trans inside stop_le)
  simp only [Slot.values, group]

/-! ### Matches of all lines -/

namespace Regex.LineWise

variable {regex : Regex} {left word right : List Char}

/-- The match of one line, before those of the lines behind it. -/
private theorem finds_line (lineWise : regex.LineWise) (line : LineIn left word right)
    (matching : regex.matchesAlone word = true) {rest : List Match}
    (others : regex.Finds (left ++ word ++ right).toArray (left.length + word.length + 1) rest) :
    ∃ here, regex.Finds (left ++ word ++ right).toArray left.length (here ++ rest) ∧
      List.Forall₂ (regex.MatchOf (left ++ word ++ right).toArray) ([word].filter (· ≠ [])) here := by
  obtain ⟨way, more, alone⟩ := List.exists_cons_of_ne_nil (matchesAlone_iff.mp matching)
  have preferred : (regex.ways word.toArray 0).head? = some way := by rw [alone, List.head?_cons]
  have stop_eq : way.stop = word.length :=
    lineWise.whole line.feedless way (List.mem_of_mem_head? preferred)
  let first : Match :=
    ⟨left.length, left.length + way.stop, way.captures.map (Capture.shift left.length)⟩
  have found : regex.FirstFrom (left ++ word ++ right).toArray left.length first := by
    refine ⟨Nat.le_refl _, by simp [first],
      fun place from_ before => absurd from_ (Nat.not_le.mpr before), ?_⟩
    change (regex.ways _ left.length).head? = _
    rw [lineWise.alone line, alone, List.map_cons, List.head?_cons]
    rfl
  -- The match of an empty line is passed over, and the line feed behind it with it.
  by_cases blank : word = []
  · have empty : first.stop = first.start := by simp [first, stop_eq, blank]
    refine ⟨[], .empty found empty ?_, by simp [blank]⟩
    rw [empty]
    simpa [blank] using others
  · have some := List.length_pos_iff.mpr blank
    refine ⟨[first], .found found (by simp only [first]; omega) ?_, ?_⟩
    · refine others.extend (by simp only [first]; omega) fun place from_ before => ?_
      simp only [first] at from_
      exact lineWise.ways_inside line (by omega) (by omega)
    · rw [List.filter_cons_of_pos (by simpa using blank), List.filter_nil]
      exact .cons ⟨left, right, way, rfl, preferred, rfl⟩ .nil

/-- Where every line matches, the lines that are not empty are found one after the other. -/
theorem finds_lines (lineWise : regex.LineWise) {lines : List (List Char)}
    (line : LineIn left word (followed lines))
    (matching : ∀ one ∈ word :: lines, '\n' ∉ one ∧ regex.matchesAlone one = true) :
    ∃ found, regex.Finds (left ++ word ++ followed lines).toArray left.length found ∧
      List.Forall₂ (regex.MatchOf (left ++ word ++ followed lines).toArray)
        ((word :: lines).filter (· ≠ [])) found := by
  have here := (matching word List.mem_cons_self).2
  -- On the lines that follow, since each search begins where the last match has ended.
  induction lines generalizing left word with
  | nil =>
    -- Behind the last line no place is left.
    have ended : regex.Finds (left ++ word ++ followed []).toArray
        (left.length + word.length + 1) [] := by
      refine .nothing fun place from_ inside => ?_
      simp at inside
      omega
    obtain ⟨found, finds, each⟩ := lineWise.finds_line line here ended
    rw [List.append_nil] at finds
    exact ⟨found, finds, each⟩
  | cons next rest ih =>
    have others := fun one member => matching one (List.mem_cons_of_mem _ member)
    have next_ := others next List.mem_cons_self
    have nextIn : LineIn (left ++ word ++ ['\n']) next (followed rest) := .next next_.1
    obtain ⟨found, finds, each⟩ := ih nextIn others next_.2
    -- What stands before the next line is all of this one and the line feed.
    have text_eq : left ++ word ++ ['\n'] ++ next ++ followed rest =
        left ++ word ++ followed (next :: rest) := by simp
    have place : (left ++ word ++ ['\n']).length = left.length + word.length + 1 := by
      simp [Nat.add_assoc]
    rw [text_eq, place] at finds
    rw [text_eq] at each
    obtain ⟨first, all, first_each⟩ := lineWise.finds_line line here finds
    have split : (word :: next :: rest).filter (· ≠ []) =
        [word].filter (· ≠ []) ++ (next :: rest).filter (· ≠ []) := List.filter_append [word] _
    rw [split]
    exact ⟨first ++ found, all, List.rel_append first_each each⟩

end Regex.LineWise

/-! ### Rows -/

namespace Line

/-- A line matches alone where it fits, whatever is kept of it. -/
theorem matchesAlone_pattern {line : Line} (mandatory : line.optional = false)
    (allowCapture : Bool) (start : Nat) {word : List Char} (noFeed : '\n' ∉ word) :
    (line.pattern allowCapture start).regex.matchesAlone word = true ↔ line.Fits word := by
  rw [Regex.matchesAlone_iff, Regex.ways_ne_nil_iff, pattern, mandatory]
  exact exists_reads_alone line allowCapture start noFeed

/-- The preferred match of a line taken alone, as a row. -/
private def IsRow (line : Line) (word : List Char) (row : Value) : Prop :=
  ∃ way, ((line.pattern true 0).regex.ways word.toArray 0).head? = some way ∧
    row = .list ((line.pattern true 0).slots.flatMap fun slot =>
      slot.values ⟨0, way.stop, way.captures⟩ word.toArray)

private theorem IsRow.unique {line : Line} {word : List Char} {row row' : Value}
    (isRow : line.IsRow word row) (isRow' : line.IsRow word row') : row = row' := by
  obtain ⟨way, first, rfl⟩ := isRow
  obtain ⟨way', first', rfl⟩ := isRow'
  cases Option.some.inj (first.symm.trans first')
  rfl

private theorem isRow_of_readRows {line : Line} (feedless : line.Feedless)
    (mandatory : line.optional = false) {word : List Char} {lines : List (List Char)}
    (matching : ∀ one ∈ word :: lines,
      '\n' ∉ one ∧ (line.pattern true 0).regex.matchesAlone one = true)
    {limit : Nat} {value : Value}
    (read : readRows (line.pattern true 0).regex (line.pattern true 0).slots limit
      (word ++ followed lines).toArray = .ok value) :
    ∃ rows, value = .list rows ∧
      List.Forall₂ line.IsRow ((word :: lines).filter (· ≠ [])) rows := by
  have lineWise := feedless.lineWise_pattern mandatory true 0
  have whole : LineIn [] word (followed lines) :=
    ⟨by simp, (matching word List.mem_cons_self).1, eq_feed_of_followed lines⟩
  obtain ⟨found, searched, returned⟩ := except_bind_eq_ok.mp read
  obtain ⟨found', finds, each⟩ := lineWise.finds_lines whole matching
  rw [List.nil_append, List.length_nil] at finds
  rw [List.nil_append] at each
  -- The search has found the matches that the lines give.
  cases (Regex.finds_of_findAll searched).unique finds
  cases returned
  refine ⟨_, rfl, List.forall₂_map_right_iff.mpr (each.imp fun word one matchOf => ?_)⟩
  -- A row depends on its own line only, wherever this line stands.
  obtain ⟨left, right, way, -, first, -⟩ := id matchOf
  refine ⟨way, first, ?_⟩
  simp only [matchOf.values first]

private theorem IsRow.rowOf {line : Line} (feedless : line.Feedless)
    (mandatory : line.optional = false) {word : List Char} (noFeed : '\n' ∉ word)
    (nonempty : word ≠ []) {row : Value} (isRow : line.IsRow word row) : line.RowOf word row where
  matched := by
    -- Some budget is enough for the preferred match.
    obtain ⟨way, first, row_eq⟩ := isRow
    obtain ⟨budget, room, found⟩ := Regex.exists_matchAt first
    exact ⟨budget, room, way.stop, way.captures, found, row_eq⟩
  read limit value read := by
    -- The line matches alone, so that it is the only row of itself.
    have matching : (line.pattern true 0).regex.matchesAlone word = true := by
      obtain ⟨way, first, -⟩ := isRow
      exact Regex.matchesAlone_iff.mpr (List.ne_nil_of_mem (List.mem_of_mem_head? first))
    have all : ∀ one ∈ [word], '\n' ∉ one ∧
        (line.pattern true 0).regex.matchesAlone one = true := by
      simpa using ⟨noFeed, matching⟩
    obtain ⟨rows, rfl, each⟩ := isRow_of_readRows feedless mandatory all
      (by simpa using read)
    rw [List.filter_cons_of_pos (by simpa using nonempty), List.filter_nil] at each
    cases each with
    | cons same rest =>
      cases rest
      rw [same.unique isRow]

/-- From lines that all match, one row is read for each line that is not empty, and it is the row
of the line taken alone. -/
theorem rowOf_of_readRows {line : Line} (feedless : line.Feedless)
    (mandatory : line.optional = false) {word : List Char} {lines : List (List Char)}
    (matching : ∀ one ∈ word :: lines,
      '\n' ∉ one ∧ (line.pattern true 0).regex.matchesAlone one = true)
    {limit : Nat} {value : Value}
    (read : readRows (line.pattern true 0).regex (line.pattern true 0).slots limit
      (word ++ followed lines).toArray = .ok value) :
    ∃ rows, value = .list rows ∧
      List.Forall₂ line.RowOf ((word :: lines).filter (· ≠ [])) rows := by
  obtain ⟨rows, rfl, each⟩ := isRow_of_readRows feedless mandatory matching read
  refine ⟨rows, rfl, ?_⟩
  -- Pair by pair, as a row is known together with the line that it comes from.
  refine List.forall₂_iff_zip.mpr ⟨each.length_eq, fun {word row} member => ?_⟩
  obtain ⟨inLines, nonempty⟩ := List.mem_filter.mp (List.of_mem_zip member).1
  exact ((List.forall₂_iff_zip.mp each).2 member).rowOf feedless mandatory (matching word inLines).1
    (by simpa using nonempty)

end Line

end Gleaner
