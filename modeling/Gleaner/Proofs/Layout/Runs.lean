import Gleaner.Proofs.Layout.Bodies

/-!
# The blocks of a report are its runs of matching lines

With a body of one line and neither head nor tail, the lines of a report that match the line alone
are all captured: each longest run of them is a block, and the block has one row for each line of
the run that is not empty. Only an empty line that stands by itself makes no block, since the match
of it is empty.
-/

namespace Gleaner

/-- An empty line by itself makes no block. -/
def isBlock (run : List (List Char)) : Bool :=
  run ≠ [] ∧ run ≠ [[]]

/-- The longest runs of lines that pass a test, without the empty lines that stand by themselves. -/
def matchingRuns (matching : List Char → Bool) (lines : List (List Char)) :
    List (List (List Char)) :=
  (lines.splitOnP fun word => !matching word).filter isBlock

theorem matchingRuns_cons_of_not {matching : List Char → Bool} {word : List Char}
    (other : matching word = false) (lines : List (List Char)) :
    matchingRuns matching (word :: lines) = matchingRuns matching lines := by
  rw [matchingRuns, List.splitOnP_cons_eq_if_modifyHead, if_pos (by simp [other]),
    List.filter_cons_of_neg (by simp [isBlock])]
  rfl

theorem matchingRuns_append {matching : List Char → Bool} {run rest : List (List Char)}
    (all : ∀ word ∈ run, matching word = true) (ended : rest.takeWhile matching = []) :
    matchingRuns matching (run ++ rest) =
      [run].filter isBlock ++ matchingRuns matching rest := by
  have inRun : ∀ word ∈ run, (!matching word) = false := fun word member => by
    simp [all word member]
  -- A run ends with the text or before a line that does not match.
  cases rest with
  | nil =>
    rw [List.append_nil, matchingRuns, List.splitOnP_eq_singleton inRun]
    simp [matchingRuns, isBlock]
  | cons next rest =>
    have other : matching next = false := by simpa using ended
    rw [matchingRuns_cons_of_not other, matchingRuns,
      List.splitOnP_append_cons_of_forall_mem inRun next (by simp [other])]
    exact List.filter_append [run] _

/-! ### Blocks -/

/-- The pattern of a block that is nothing but its body. -/
abbrev bodyOnly (regex : Regex) : Regex :=
  Outlines.regex ⟨none, ⟨regex, false⟩, none⟩ true

private theorem ways_bodyOnly (regex : Regex) (text : Array Char) (pos : Nat) :
    (bodyOnly regex).ways text pos =
      ((Outlines.repeated ⟨regex, false⟩).regex.ways text pos).map
        (Way.closing (.part .body) pos) := by
  have shape : (bodyOnly regex).ways text pos = Way.chain [.stay pos] fun start =>
      Way.chain (((Outlines.repeated ⟨regex, false⟩).regex.ways text start).map
        (Way.closing (.part .body) start)) fun stop => [.stay stop] := rfl
  rw [shape, Way.chain_stay, Way.chain_stay_right]

namespace Regex.LineWise

variable {regex : Regex} {left word : List Char} {lines : List (List Char)}

/-- What is found of a run of lines: a block that is not empty and consists of them. -/
structure RunAt (regex : Regex) (text : Array Char) (run : List (List Char))
    (block : Match) : Prop where
  captures : block.captures = [⟨.part .body, block.start, block.stop⟩]
  extent : text.extract block.start block.stop = (['\n'].intercalate run).toArray
  nonempty : ['\n'].intercalate run ≠ []
  lines : run ≠ []
  matching : ∀ word ∈ run, '\n' ∉ word ∧ regex.matchesAlone word = true

private theorem ways_bodyOnly_eq_nil {text : Array Char} {pos : Nat}
    (none : regex.ways text pos = []) : (bodyOnly regex).ways text pos = [] := by
  rw [ways_bodyOnly, Outlines.repeated, ways_append, none]
  rfl

private theorem firstFrom_run (lineWise : regex.LineWise) (nameless : regex.groupNames = [])
    (feedless : ∀ line ∈ lines, '\n' ∉ line) (line : LineIn left word (followed lines))
    (matching : regex.matchesAlone word = true) :
    let stop := left.length + word.length + (followed (lines.takeWhile regex.matchesAlone)).length
    (bodyOnly regex).FirstFrom (left ++ word ++ followed lines).toArray left.length
      ⟨left.length, stop, [⟨.part .body, left.length, stop⟩]⟩ := by
  refine ⟨Nat.le_refl _, by simp, fun place from_ before => absurd from_ (Nat.not_le.mpr before), ?_⟩
  change ((bodyOnly regex).ways _ left.length).head? = _
  rw [ways_bodyOnly, List.head?_map, lineWise.head?_repeated nameless feedless line matching]
  rfl

/-- Behind a run, the search goes on with the next line. An empty line at its end is matched once
more, but this match is empty. -/
private theorem finds_behind_run (lineWise : regex.LineWise) (nameless : regex.groupNames = [])
    (feedless : ∀ line ∈ lines, '\n' ∉ line) (line : LineIn left word (followed lines))
    (matching : regex.matchesAlone word = true)
    (last : lines.takeWhile regex.matchesAlone = []) {rest : List Match}
    (others : (bodyOnly regex).Finds (left ++ word ++ followed lines).toArray
      (left.length + word.length + 1) rest) :
    (bodyOnly regex).Finds (left ++ word ++ followed lines).toArray (left.length + word.length)
      rest := by
  by_cases blank : word = []
  -- The empty line was the end of the run, and matches there once more.
  · subst blank
    have first := lineWise.firstFrom_run nameless feedless line matching
    simp only [last, followed_nil, List.length_nil, Nat.add_zero] at first
    exact .empty first rfl others
  -- Inside a line no match begins, so the search passes to the next one.
  · have some := List.length_pos_iff.mpr blank
    refine others.extend (Nat.le_succ _) fun place from_ before => ?_
    exact ways_bodyOnly_eq_nil (lineWise.ways_inside line (by omega) (by omega))

private theorem exists_last {run : List (List Char)} {behind : List Char}
    (feed : ∀ c, behind.head? = some c → c = '\n') (line : LineIn left word (followed run ++ behind))
    (matching : ∀ one ∈ word :: run, '\n' ∉ one ∧ regex.matchesAlone one = true) :
    ∃ left' last, left ++ word ++ followed run = left' ++ last ∧ LineIn left' last behind ∧
      regex.matchesAlone last = true := by
  -- On the lines of the run behind the first; `left` grows by one line each time.
  induction run generalizing left word with
  | nil => exact ⟨left, word, by simp, line, (matching word List.mem_cons_self).2⟩
  | cons next rest ih =>
    have others := fun one member => matching one (List.mem_cons_of_mem _ member)
    have nextIn : LineIn (left ++ word ++ ['\n']) next (followed rest ++ behind) := by
      refine ⟨by simp, (others next List.mem_cons_self).1, fun c first => ?_⟩
      cases rest with
      | nil => exact feed c first
      | cons => simpa using first.symm
    obtain ⟨left', last, same, lastIn, matches_⟩ := ih nextIn others
    exact ⟨left', last, by simpa using same, lastIn, matches_⟩

/-- From a line on, what is found are the runs of matching lines. -/
def FindsRuns (regex : Regex) (left word : List Char) (lines : List (List Char)) : Prop :=
  ∃ found, (bodyOnly regex).Finds (left ++ word ++ followed lines).toArray left.length found ∧
    List.Forall₂ (RunAt regex (left ++ word ++ followed lines).toArray)
      (matchingRuns regex.matchesAlone (word :: lines)) found

/-- Behind a line, what is found are the runs of the lines that follow it. -/
private theorem finds_next
    (next : ∀ first rest, lines = first :: rest → FindsRuns regex (left ++ word ++ ['\n']) first rest) :
    ∃ found, (bodyOnly regex).Finds (left ++ word ++ followed lines).toArray
        (left.length + word.length + 1) found ∧
      List.Forall₂ (RunAt regex (left ++ word ++ followed lines).toArray)
        (matchingRuns regex.matchesAlone lines) found := by
  cases lines with
  | nil =>
    -- Behind the last line there is no place left to search at.
    refine ⟨[], .nothing fun place from_ inside => ?_, .nil⟩
    simp at inside
    omega
  | cons first rest =>
    have text_eq : left ++ word ++ ['\n'] ++ first ++ followed rest =
        left ++ word ++ followed (first :: rest) := by simp
    have place : (left ++ word ++ ['\n']).length = left.length + word.length + 1 := by
      simp [Nat.add_assoc]
    have found := next first rest rfl
    rwa [FindsRuns, text_eq, place] at found

/-- A run of matching lines is found, and then what stands behind it. -/
private theorem findsRuns_of_matching (lineWise : regex.LineWise) (nameless : regex.groupNames = [])
    {run rest : List (List Char)} (feedless : ∀ line ∈ run ++ rest, '\n' ∉ line)
    (line : LineIn left word (followed (run ++ rest)))
    (matching : ∀ one ∈ word :: run, regex.matchesAlone one = true)
    (ended : rest.takeWhile regex.matchesAlone = [])
    (next : ∀ left first others, rest = first :: others → LineIn left first (followed others) →
      FindsRuns regex left first others) :
    FindsRuns regex left word (run ++ rest) := by
  have inRun : ∀ one ∈ word :: run, '\n' ∉ one ∧ regex.matchesAlone one = true := by
    intro one member
    refine ⟨?_, matching one member⟩
    rcases List.mem_cons.mp member with rfl | member
    · exact line.feedless
    · exact feedless one (List.mem_append_left _ member)
  have behind : ∀ one ∈ rest, '\n' ∉ one := fun one member =>
    feedless one (List.mem_append_right _ member)
  obtain ⟨left', last, same, lastIn, matches_⟩ :=
    exists_last (eq_feed_of_followed rest) (by rwa [← followed_append]) inRun
  have text_eq : left ++ word ++ followed (run ++ rest) = left' ++ last ++ followed rest := by
    rw [followed_append, ← List.append_assoc, same]
  have nextRuns : ∀ first others, rest = first :: others →
      FindsRuns regex (left' ++ last ++ ['\n']) first others := by
    rintro first others rfl
    exact next _ first others rfl (.next (behind first List.mem_cons_self))
  -- The search goes on behind the last line of the run, and finds the runs of the rest.
  obtain ⟨found, finds, each⟩ := finds_next nextRuns
  have others := lineWise.finds_behind_run nameless behind lastIn matches_ ended finds
  have stop_eq := congrArg List.length same
  simp only [List.length_append] at stop_eq
  have taken : (run ++ rest).takeWhile regex.matchesAlone = run := by
    rw [List.takeWhile_append_of_pos fun one member =>
      matching one (List.mem_cons_of_mem _ member), ended, List.append_nil]
  have first := lineWise.firstFrom_run nameless feedless line (matching word List.mem_cons_self)
  simp only [taken] at first
  have runs : matchingRuns regex.matchesAlone (word :: (run ++ rest)) =
      [word :: run].filter isBlock ++ matchingRuns regex.matchesAlone rest :=
    matchingRuns_append matching ended
  rw [← text_eq, ← stop_eq] at finds others
  rw [← text_eq] at each
  rw [FindsRuns, runs]
  -- A run of one empty line has an empty match, which is not reported.
  by_cases block : isBlock (word :: run) = true
  · have nonempty : word ++ followed run ≠ [] := by
      intro none
      obtain ⟨blank, rest⟩ := List.append_eq_nil_iff.mp none
      cases run with
      | nil => simp [isBlock, blank] at block
      | cons => cases rest
    have moved := List.length_pos_iff.mpr nonempty
    rw [List.length_append] at moved
    refine ⟨_ :: found, .found first (by simp only; omega) others, ?_⟩
    rw [List.filter_cons_of_pos block, List.filter_nil]
    refine .cons ⟨rfl, ?_, by rwa [intercalate_cons], List.cons_ne_nil _ _, inRun⟩ each
    have extent := extract_middle left (word ++ followed run) (followed rest)
    simpa [intercalate_cons, Nat.add_assoc] using extent
  · have blank : word = [] ∧ run = [] := by simpa [isBlock] using block
    obtain ⟨rfl, rfl⟩ := blank
    exact ⟨found, .empty first rfl finds, by simpa [isBlock] using each⟩

/-- The blocks of a text are its runs of matching lines. -/
theorem findsRuns (lineWise : regex.LineWise) (nameless : regex.groupNames = [])
    (feedless : ∀ line ∈ lines, '\n' ∉ line) (line : LineIn left word (followed lines)) :
    FindsRuns regex left word lines := by
  -- On the number of lines: a run leaves fewer of them.
  induction count : lines.length using Nat.strong_induction_on generalizing left word lines with
  | _ n ih =>
    have shorter : ∀ rest : List (List Char), rest.length ≤ n → (∀ line ∈ rest, '\n' ∉ line) →
        ∀ left first others, rest = first :: others → LineIn left first (followed others) →
          FindsRuns regex left first others := by
      rintro _ fewer feedless left first others rfl line
      exact ih others.length fewer
        (fun one member => feedless one (List.mem_cons_of_mem _ member)) line rfl
    by_cases matching : regex.matchesAlone word = true
    · have parts : lines.takeWhile regex.matchesAlone ++ lines.dropWhile regex.matchesAlone =
          lines := List.takeWhile_append_dropWhile
      have behind : (lines.dropWhile regex.matchesAlone).takeWhile regex.matchesAlone = [] := by
        have stopped := List.head?_dropWhile_not regex.matchesAlone lines
        cases rest : lines.dropWhile regex.matchesAlone with
        | nil => rfl
        | cons first others =>
          rw [rest] at stopped
          simpa using stopped
      rw [← parts] at line ⊢
      refine lineWise.findsRuns_of_matching nameless (by rwa [parts]) line ?_ behind
        (shorter _ ?_ ?_)
      · intro one member
        rcases List.mem_cons.mp member with rfl | member
        · exact matching
        · exact List.mem_takeWhile_imp member
      · rw [← count]
        exact (List.dropWhile_suffix _).length_le
      · exact fun one member => feedless one ((List.dropWhile_suffix _).subset member)
    · -- A line that does not match is passed over up to the next line.
      have none : regex.ways word.toArray 0 = [] := by simpa [matchesAlone_iff] using matching
      have nextRuns : ∀ first rest, lines = first :: rest →
          FindsRuns regex (left ++ word ++ ['\n']) first rest := by
        rintro first rest rfl
        exact shorter _ (Nat.le_of_eq count) feedless _ first rest rfl
          (.next (feedless first List.mem_cons_self))
      obtain ⟨found, finds, each⟩ := finds_next nextRuns
      rw [← matchingRuns_cons_of_not (by simpa using matching)] at each
      refine ⟨found, finds.extend (by omega) fun place from_ before => ?_, each⟩
      by_cases start : place = left.length
      · rw [start]
        exact ways_bodyOnly_eq_nil (by rw [lineWise.alone line, none]; rfl)
      · exact ways_bodyOnly_eq_nil (lineWise.ways_inside line (by omega) (by omega))

end Regex.LineWise

/-! ### Reports -/

/-- What is captured of a run of lines: one row for each that is not empty. -/
def Line.RunRead (line : Line) (run : List (List Char)) (value : Value) : Prop :=
  ∃ rows, value = .list rows ∧ List.Forall₂ line.RowOf (run.filter (· ≠ [])) rows

theorem not_mem_of_mem_splitOn {text word : List Char} (member : word ∈ text.splitOn '\n') :
    '\n' ∉ word := by
  induction text generalizing word with
  | nil => simp_all
  | cons c rest ih =>
    obtain ⟨first, others, cut⟩ := List.exists_cons_of_ne_nil (List.splitOn_ne_nil '\n' rest)
    rw [List.splitOn_cons_eq_if_modifyHead, cut] at member
    rw [cut] at ih
    -- A line feed begins a new line, and any other character belongs to the first one.
    split at member
    next =>
      rcases List.mem_cons.mp member with rfl | member
      · exact List.not_mem_nil
      · exact ih member
    next other =>
      rcases List.mem_cons.mp member with rfl | member
      · have same : '\n' ≠ c := fun feed => other (by rw [← feed]; rfl)
        exact List.not_mem_cons_of_ne_of_not_mem same (ih List.mem_cons_self)
      · exact ih (List.mem_cons_of_mem _ member)

/-- The blocks that are found with a body of one line are the runs of matching lines. -/
theorem Regex.LineWise.runs_of_findAll {regex : Regex} (lineWise : regex.LineWise)
    (nameless : regex.groupNames = []) {limit : Nat} {text : List Char} {blocks : List Match}
    (found : (bodyOnly regex).findAll limit text.toArray = .ok blocks) :
    List.Forall₂ (RunAt regex text.toArray)
      (matchingRuns regex.matchesAlone (text.splitOn '\n')) blocks := by
  -- The text is cut into its lines; the first one begins the search.
  obtain ⟨word, lines, cut⟩ := List.exists_cons_of_ne_nil (List.splitOn_ne_nil '\n' text)
  have noFeeds : ∀ one ∈ word :: lines, '\n' ∉ one := fun one member =>
    not_mem_of_mem_splitOn (cut ▸ member)
  have text_eq : text = word ++ followed lines := by
    rw [← intercalate_cons, ← cut, List.intercalate_splitOn]
  obtain ⟨noFeed, others⟩ := List.forall_mem_cons.mp noFeeds
  obtain ⟨blocks', finds, runs⟩ := lineWise.findsRuns nameless others
    (⟨by simp, noFeed, eq_feed_of_followed lines⟩ : LineIn [] word _)
  rw [List.nil_append, ← text_eq] at finds runs
  -- What the search finds is unique, so its blocks are the runs.
  cases (finds_of_findAll found).unique finds
  rwa [cut]

theorem matchingRuns_congr {matching matching' : List Char → Bool} {lines : List (List Char)}
    (same : ∀ word ∈ lines, matching word = matching' word) :
    matchingRuns matching lines = matchingRuns matching' lines := by
  have cut : (lines.splitOnP fun word => !matching word) =
      lines.splitOnP fun word => !matching' word := by
    induction lines with
    | nil => rfl
    | cons word rest ih =>
      rw [List.splitOnP_cons_eq_if_modifyHead, List.splitOnP_cons_eq_if_modifyHead,
        same word List.mem_cons_self, ih fun one member => same one (List.mem_cons_of_mem _ member)]
  rw [matchingRuns, cut, matchingRuns]

/-- What is read of a run that was found: a row for each line of it that is not empty. -/
theorem Line.runRead_of_runAt {line : Line} (feedless : line.Feedless)
    (mandatory : line.optional = false) {text : Array Char} {run : List (List Char)} {block : Match}
    (runAt : Regex.LineWise.RunAt (line.pattern false 0).regex text run block) {mode : Mode}
    {limit : Nat} {value : Value}
    (read : (PartReader.ofLines [line]).read mode limit (block.group? text (.part .body)) =
      .ok value) : line.RunRead run value := by
  have group : block.group? text (.part .body) = some (['\n'].intercalate run).toArray := by
    simp only [Match.group?, runAt.captures, List.find?_cons, decide_true, Option.map_some,
      runAt.extent]
  have filled : (['\n'].intercalate run).toArray.isEmpty = false := by simpa using runAt.nonempty
  rw [group, PartReader.ofLines, PartReader.read_rows _ _ _ _ filled] at read
  obtain ⟨first, rest, rfl⟩ := List.exists_cons_of_ne_nil runAt.lines
  rw [intercalate_cons] at read
  -- Each line of the run matches alone, with captures as well as without.
  apply rowOf_of_readRows feedless mandatory _ read
  intro word member
  obtain ⟨noFeed, matches_⟩ := runAt.matching word member
  refine ⟨noFeed, (matchesAlone_pattern mandatory true 0 noFeed).mpr ?_⟩
  exact (matchesAlone_pattern mandatory false 0 noFeed).mp matches_

private theorem forall₂_trans {α β γ : Type} {R : α → β → Prop} {S : β → γ → Prop}
    {T : α → γ → Prop} (both : ∀ {one two three}, R one two → S two three → T one three)
    {first : List α} {second : List β} {third : List γ} (left : List.Forall₂ R first second)
    (right : List.Forall₂ S second third) : List.Forall₂ T first third := by
  induction left generalizing third with
  | nil =>
    cases right
    exact .nil
  | cons here _ ih =>
    cases right with
    | cons there others => exact .cons (both here there) (ih others)

/-- The template of a body of one line has nothing before or behind the body. -/
private theorem Template.outlines_of_line {template : Template} {source : String}
    (layout : template.layout = ⟨.absent, .line source, .absent⟩) {line : Line}
    (parsed : Line.parse source = .ok line) :
    template.outlines = ⟨none, ⟨(line.pattern false 0).regex, line.optional⟩, none⟩ := by
  obtain ⟨headed, bodied, tailed⟩ := Outlines.ofParts_eq_ok.mp template.outlines_eq
  rw [layout] at headed bodied tailed
  rw [(Section.Makes.line parsed).outline] at bodied
  -- The template is taken apart, so that its parts can be told from the layout's.
  rcases same : template.outlines with ⟨head, body, tail⟩
  rw [same] at headed bodied tailed
  cases headed
  cases bodied
  cases tailed
  rfl

/-- The values of a report are those of its runs of matching lines, in order, and have one row for
each line that is not empty: the row of the line taken alone. -/
theorem Extractor.capture_eq_runs {template : Template} {source : String}
    (layout : template.layout = ⟨.absent, .line source, .absent⟩) {limit : Nat}
    {extractor : Extractor} (built : ofTemplate template limit = .ok extractor) {line : Line}
    (parsed : Line.parse source = .ok line) (mandatory : line.optional = false)
    (feedless : line.Feedless) {report : String} {values : List Value}
    (captured : extractor.capture .body report = .ok values) :
    List.Forall₂ line.RunRead
      (matchingRuns (line.pattern true 0).regex.matchesAlone (report.toList.splitOn '\n'))
      values := by
  obtain ⟨regex_eq, parts⟩ := parts_of_ofTemplate built
  obtain ⟨blocks, found, each⟩ := bodies_of_readBlocks captured
  rw [regex_eq, Template.pattern, Template.outlines_of_line layout parsed, mandatory] at found
  have runs := (feedless.lineWise_pattern mandatory false 0).runs_of_findAll
    (Line.groupNames_sequence_false 0 [line]) found
  -- A line matches alone with captures as it does without.
  have alike : ∀ word ∈ report.toList.splitOn '\n',
      (line.pattern true 0).regex.matchesAlone word =
        (line.pattern false 0).regex.matchesAlone word := by
    intro word member
    have noFeed := not_mem_of_mem_splitOn member
    rw [Bool.eq_iff_iff, Line.matchesAlone_pattern mandatory true 0 noFeed,
      Line.matchesAlone_pattern mandatory false 0 noFeed]
  have isLine : template.layout.body.IsLine source := by rw [layout]; exact Or.inl rfl
  have reader := Except.ok.inj (((isLine.makes parsed).build).symm.trans (parts .body))
  rw [matchingRuns_congr alike]
  -- One block for each run, one value for each block.
  refine forall₂_trans ?_ runs each
  intro run block value runAt bodyRead
  obtain ⟨body, bodyOf, read⟩ := bodyRead
  cases bodyOf
  rw [← reader] at read
  exact Line.runRead_of_runAt feedless mandatory runAt read

set_option maxRecDepth 20000 in
/-- Two runs, and between them a line that does not match. -/
theorem Extractor.capture_eq_runs_apart :
    ∃ template extractor line,
      template.layout = ⟨.absent, .line "&!.", .absent⟩ ∧
      ofTemplate template 10 = .ok extractor ∧ Line.parse "&!." = .ok line ∧
      List.Forall₂ line.RunRead
        (matchingRuns (line.pattern true 0).regex.matchesAlone ("x\ny\n\nz".toList.splitOn '\n'))
        [.list [.list [.text "x"], .list [.text "y"]], .list [.list [.text "z"]]] := by
  let line : Line := ⟨false, [.misc ⟨.required, true, .single⟩]⟩
  have parsed : Line.parse "&!." = .ok line := by decide +kernel
  obtain ⟨template, extractor, layout, built, made⟩ := exists_ofTemplate_lines (.line parsed) 10
  have captured : extractor.capture .body "x\ny\n\nz" =
      .ok [.list [.list [.text "x"], .list [.text "y"]], .list [.list [.text "z"]]] := by
    rw [made]
    cbv
  have feedless : line.Feedless := by simp [Line.Feedless, line, Token.literal?]
  exact ⟨template, extractor, line, layout, built, parsed,
    capture_eq_runs layout built parsed rfl feedless captured⟩

end Gleaner
