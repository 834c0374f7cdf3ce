import Gleaner.Proofs.Layout.Bodies
import Gleaner.Proofs.Line.Sequences

/-!
# Rows cover the lines of their part

A part of a block is matched twice: as a piece of the whole block, and then row by row as a text of
its own. A head or a tail is one pass of its lines, and the preferred pass goes as far as the one
that the block needed, so the first row covers it all. A body is any number of passes, and here the
second match may take the lines for other rounds than the first did and leave some over. It cannot
if the lines of the body are rigid: then every pass reads as many lines as there are, in both
matches. Nor can it if they are resumable: then the rounds may differ, but wherever a row has ended,
the next one can begin with the line that follows.
-/

namespace Gleaner

/-- Every line of a text that is not empty lies in one of the matches. -/
def CoversLines (text : Array Char) (found : List Match) : Prop :=
  ∀ start stop, PhysicalLine text start stop → start < stop →
    ∃ row ∈ found, row.start ≤ start ∧ stop ≤ row.stop

/-! ### Heads and tails -/

private theorem Regex.Finds.eq_cons {regex : Regex} {text : Array Char} {way : Way}
    {found : List Match} (finds : regex.Finds text 0 found)
    (preferred : (regex.ways text 0).head? = some way) (moved : 0 < way.stop) :
    ∃ rest, found = ⟨0, way.stop, way.captures⟩ :: rest := by
  -- No match can begin before the text does, so the first one is the preferred way there.
  have first : regex.FirstFrom text 0 ⟨0, way.stop, way.captures⟩ :=
    ⟨Nat.le_refl _, Nat.zero_le _, fun place _ before => absurd before (Nat.not_lt_zero place),
      preferred⟩
  cases finds with
  | nothing none => exact absurd none (not_noneFrom first)
  | empty found empty others =>
    cases found.unique first
    -- An empty match would have been passed over.
    simp only at empty
    omega
  | found found moved' others =>
    cases found.unique first
    exact ⟨_, rfl⟩

/-- One pass over some lines is covered by the first row. -/
theorem Line.coversLines_of_reads {lines : List Line} (feedless : ∀ line ∈ lines, line.Feedless)
    {text : Array Char} {first last : Nat}
    (reads : (sequence false 0 lines).regex.Reads text first last) {found : List Match}
    (finds : (sequence true 0 lines).regex.Finds (text.extract first last) 0 found) :
    CoversLines (text.extract first last) found := by
  intro start stop line moved
  have inside := line.inside
  rw [Array.size_extract] at inside
  have again : (sequence true 0 lines).regex.Reads (text.extract first last) 0 (last - first) := by
    have cut : (sequence true 0 lines).regex.Reads (text.extract first last) (first - first)
        (last - first) := reads_sequence_extract feedless (Nat.le_refl _) (Nat.le_refl _) reads
    rwa [Nat.sub_self] at cut
  obtain ⟨way, more, ways⟩ :=
    List.exists_cons_of_ne_nil (Regex.ways_ne_nil_iff.mpr ⟨_, again⟩)
  have preferred : ((sequence true 0 lines).regex.ways (text.extract first last) 0).head? =
      some way := by rw [ways, List.head?_cons]
  -- The second match may go another way, but not less far.
  have far : last - first ≤ way.stop :=
    (far_sequence feedless true 0).ahead (Nat.le_refl _) (Or.inl (Or.inl rfl)) again preferred
  obtain ⟨rest, rfl⟩ := finds.eq_cons preferred (by omega)
  exact ⟨_, List.mem_cons_self, Nat.zero_le _, by simp only; omega⟩

/-! ### Bodies -/

/-- Passes of a pattern, with a joint between each two. -/
inductive Regex.Passes (regex : Regex) (text : Array Char) : Nat → Nat → Prop where
  | one {start stop : Nat} (reads : regex.Reads text start stop) : Passes regex text start stop
  | more {start middle next stop : Nat} (reads : regex.Reads text start middle)
      (joint : lineJoint.Reads text middle next) (others : Passes regex text next stop) :
      Passes regex text start stop

namespace Regex

variable {regex : Regex} {text : Array Char}

namespace Passes

theorem exists_reads {start stop : Nat} (passes : regex.Passes text start stop) :
    ∃ middle, regex.Reads text start middle := by
  cases passes with
  | one reads => exact ⟨_, reads⟩
  | more reads => exact ⟨_, reads⟩

theorem forward {start stop : Nat} (passes : regex.Passes text start stop) : start ≤ stop := by
  induction passes with
  | one reads => exact reads.forward
  | more reads joint _ ih => exact Nat.le_trans reads.forward (Nat.le_trans joint.forward ih)

/-- A repeated pattern passes its joints between the rounds. -/
theorem of_repeated {optional : Bool} {start stop : Nat}
    (reads : (Outlines.repeated ⟨regex, optional⟩).regex.Reads text start stop) :
    regex.Passes text start stop := by
  obtain ⟨middle, here, others⟩ := reads_append.mp reads
  clear reads
  -- On the text behind the first pass: every round makes it shorter.
  induction rest : stop - middle using Nat.strong_induction_on generalizing start middle with
  | _ n ih =>
    rcases reads_star.mp others with rfl | ⟨middle', round, moved, others⟩
    · exact .one here
    · obtain ⟨next, joint, again⟩ := reads_append.mp (reads_group.mp round)
      have forward := others.forward
      exact .more here joint (ih (stop - middle') (by omega) middle' again others rfl)

end Passes

/-! ### Bodies with one way to be read -/

/-- The pattern does not begin again where it has ended, and has only one end. -/
structure Single (regex : Regex) (text : Array Char) : Prop where
  unique : ∀ {start stop stop' : Nat}, regex.Reads text start stop →
    regex.Reads text start stop' → stop = stop'
  behind : ∀ {start middle stop : Nat}, regex.Reads text start middle →
    ¬regex.Reads text middle stop

theorem Single.moved (single : regex.Single text) {start stop : Nat}
    (reads : regex.Reads text start stop) : start < stop := by
  rcases Nat.lt_or_eq_of_le reads.forward with less | rfl
  · exact less
  · exact absurd reads (single.behind reads)

theorem Single.firstFrom (single : regex.Single text) {start stop : Nat}
    (reads : regex.Reads text start stop) :
    ∃ captures, regex.FirstFrom text start ⟨start, stop, captures⟩ := by
  obtain ⟨way, more, ways⟩ := List.exists_cons_of_ne_nil (ways_ne_nil_iff.mpr ⟨stop, reads⟩)
  have same : stop = way.stop := single.unique reads ⟨way, by simp [ways], rfl⟩
  have within := (within_ways text regex start way (by simp [ways])).2
  have moved := single.moved reads
  refine ⟨way.captures, Nat.le_refl _, by simp only; omega,
    fun place from_ before => absurd from_ (Nat.not_le.mpr before), ?_⟩
  rw [ways, same]
  rfl

/-- The passes are found one after the other, and no line is left over. -/
theorem Single.finds (single : regex.Single text) {start stop : Nat}
    (passes : regex.Passes text start stop) (ended : text.size ≤ stop) :
    ∃ found, regex.Finds text start found ∧
      ∀ first last, PhysicalLine text first last → start ≤ first → first < last →
        ∃ row ∈ found, row.start ≤ first ∧ last ≤ row.stop := by
  induction passes with
  | one reads =>
    obtain ⟨captures, first⟩ := single.firstFrom reads
    refine ⟨[_], .found first (single.moved reads) (.nothing fun place from_ inside => ?_), ?_⟩
    · simp only at from_
      rw [show place = _ from Nat.le_antisymm (Nat.le_trans inside ended) from_]
      exact ways_eq_nil_iff.mpr fun _ => single.behind reads
    · intro first last line from_ moved
      exact ⟨_, List.mem_cons_self, from_, Nat.le_trans line.inside ended⟩
  | @more start middle next stop reads joint others ih =>
    -- Without a line feed the next pass would begin where the last one has ended.
    obtain ⟨feed, rfl⟩ : text[middle]? = some '\n' ∧ next = middle + 1 := by
      rcases reads_lineJoint.mp joint with feed | rfl
      · exact feed
      · obtain ⟨_, again⟩ := others.exists_reads
        exact absurd again (single.behind reads)
    obtain ⟨captures, first⟩ := single.firstFrom reads
    obtain ⟨found, finds, covers⟩ := ih ended
    refine ⟨_ :: found, .found first (single.moved reads) (finds.extend (Nat.le_succ _) ?_), ?_⟩
    · intro place from_ before
      rw [show place = middle by simp only at from_ before; omega]
      exact ways_eq_nil_iff.mpr fun _ => single.behind reads
    · intro first last line from_ moved
      rcases line.before_or_behind (Or.inr (Or.inr feed)) with late | early
      · have behind := line.behind_joint moved late joint
        obtain ⟨row, member, covered⟩ := covers first last line behind moved
        exact ⟨row, List.mem_cons_of_mem _ member, covered⟩
      · exact ⟨_, List.mem_cons_self, from_, early⟩

/-! ### Bodies that can be taken up at each line -/

/-- Rows cover all lines if a row can begin with each of them: one that begins further left ends on
a line boundary, which is not inside the line. -/
theorem Finds.coversLines (framed : regex.Framed) (far : regex.Far)
    (begins : ∀ first last, PhysicalLine text first last → first < last →
      ∃ stop, last ≤ stop ∧ regex.Reads text first stop)
    {pos : Nat} {found : List Match} (finds : regex.Finds text pos found) {first last : Nat}
    (line : PhysicalLine text first last) (moved : first < last) (ahead : pos ≤ first) :
    ∃ row ∈ found, row.start ≤ first ∧ last ≤ row.stop := by
  obtain ⟨stop, beyond, reads⟩ := begins first last line moved
  have ways := ways_ne_nil_iff.mpr ⟨stop, reads⟩
  -- A row that begins with the line goes as far as the reading that is known.
  have reaches : ∀ {pos : Nat} {row : Match}, regex.FirstFrom text pos row →
      row.start = first → last ≤ row.stop := by
    rintro pos row row_first rfl
    exact Nat.le_trans beyond
      (far.ahead (Nat.le_refl _) (Or.inl line.starts) reads row_first.preferred)
  induction finds with
  | nothing none => exact absurd (none first ahead (Nat.le_trans line.forward line.inside)) ways
  | empty row empty _ ih =>
    rcases Nat.lt_or_eq_of_le (row.start_le ahead ways) with less | same
    · exact ih (by omega)
    · have := reaches row same
      omega
  | @found pos next rest row moved' _ ih =>
    rcases Nat.lt_or_eq_of_le (row.start_le ahead ways) with less | same
    · have linked := framed.linked ⟨_, List.mem_of_mem_head? row.preferred, rfl⟩
      have boundary : AtLineBoundary text next.stop :=
        (linked.resolve_left (Nat.ne_of_lt moved')).2
      rcases line.before_or_behind boundary with late | early
      · obtain ⟨row, member, covered⟩ := ih late
        exact ⟨row, List.mem_cons_of_mem _ member, covered⟩
      · exact ⟨next, List.mem_cons_self, Nat.le_of_lt less, early⟩
    · exact ⟨next, List.mem_cons_self, Nat.le_of_eq same, reaches row same⟩

end Regex

namespace Line

variable {lines : List Line}

theorem Rigid.single (rigid : Rigid lines) (feedless : ∀ line ∈ lines, line.Feedless)
    (nonempty : lines ≠ []) (allow : Bool) (group : Nat) (text : Array Char) :
    (sequence allow group lines).regex.Single text where
  unique reads reads' := reads_unique feedless rigid.mandatory rigid.apart reads reads'
  behind reads reads' := by
    -- Two rounds meet only if the last line of one and the first of the next do.
    obtain ⟨first, rest, rfl⟩ := List.exists_cons_of_ne_nil nonempty
    have lastIn := List.getLast?_eq_some_getLast nonempty
    obtain ⟨_, _, ended⟩ := reads_last lastIn reads
    obtain ⟨_, begun⟩ := reads_first reads'
    have member := List.getLast_mem nonempty
    refine (rigid.around first rfl _ lastIn).not_meet ?_ ?_ ?_ ?_ ended begun
    · exact feedless _ member
    · exact feedless first List.mem_cons_self
    · exact rigid.mandatory _ member
    · exact rigid.mandatory first List.mem_cons_self

theorem passes_extract (feedless : ∀ line ∈ lines, line.Feedless) {text : Array Char}
    {first last start stop : Nat} (after : first ≤ start) (before : stop ≤ last)
    (passes : (sequence false 0 lines).regex.Passes text start stop) :
    (sequence true 0 lines).regex.Passes (text.extract first last) (start - first)
      (stop - first) := by
  induction passes with
  | one reads => exact .one (reads_sequence_extract feedless after before reads)
  -- A round, its joint and what follows keep their places inside the part.
  | more reads joint others ih =>
    have le := reads.forward
    have le' := joint.forward
    have le'' := others.forward
    exact .more (reads_sequence_extract feedless after (by omega) reads)
      (reads_lineJoint_extract (by omega) (by omega) joint) (ih (by omega) before)

/-- The whole of an extent is passed over when the extent stands alone. -/
theorem passes_of_repeated (feedless : ∀ line ∈ lines, line.Feedless) {optional : Bool}
    {text : Array Char} {first last : Nat}
    (reads : (Outlines.repeated ⟨(sequence false 0 lines).regex, optional⟩).regex.Reads text first
      last) :
    ∃ stop, (text.extract first last).size ≤ stop ∧
      (sequence true 0 lines).regex.Passes (text.extract first last) 0 stop := by
  have passes := passes_extract feedless (Nat.le_refl first) (Nat.le_refl last) (.of_repeated reads)
  rw [Nat.sub_self] at passes
  refine ⟨last - first, ?_, passes⟩
  rw [Array.size_extract]
  omega

/-- Any number of passes over rigid lines is covered by as many rows. -/
theorem Rigid.coversLines_of_passes (rigid : Rigid lines)
    (feedless : ∀ line ∈ lines, line.Feedless) (nonempty : lines ≠ []) {text : Array Char}
    {stop : Nat} (ended : text.size ≤ stop)
    (passes : (sequence true 0 lines).regex.Passes text 0 stop) {found : List Match}
    (finds : (sequence true 0 lines).regex.Finds text 0 found) : CoversLines text found := by
  obtain ⟨found', finds', covers⟩ := (rigid.single feedless nonempty true 0 text).finds passes ended
  cases finds.unique finds'
  exact fun first last line moved => covers first last line (Nat.zero_le _) moved

theorem Resumable.exists_reads (resumable : Resumable lines)
    (feedless : ∀ line ∈ lines, line.Feedless) {allow : Bool} {group : Nat} {text : Array Char}
    {start stop first last : Nat} (passes : (sequence allow group lines).regex.Passes text start stop)
    (line : PhysicalLine text first last) (moved : first < last) (behind : start ≤ first)
    (before : last ≤ stop) :
    ∃ stop', last ≤ stop' ∧ (sequence allow group lines).regex.Reads text first stop' := by
  induction passes with
  | one reads =>
    exact ⟨_, before, resumable.reads_from feedless reads line moved behind before⟩
  | @more start middle next stop reads joint _ ih =>
    by_cases early : last ≤ middle
    · exact ⟨middle, early, resumable.reads_from feedless reads line moved behind early⟩
    · -- The line is not in this pass, so it lies behind its end and behind the joint.
      have late : middle ≤ first := by
        rcases (framed_sequence allow group lines).linked reads with rfl | ⟨-, boundary⟩
        · exact behind
        · exact (line.before_or_behind boundary).resolve_right early
      exact ih (line.behind_joint moved late joint) before

/-- Any number of passes over resumable lines is covered by some rows, though not by as many. -/
theorem Resumable.coversLines_of_passes (resumable : Resumable lines)
    (feedless : ∀ line ∈ lines, line.Feedless) {text : Array Char} {stop : Nat}
    (ended : text.size ≤ stop) (passes : (sequence true 0 lines).regex.Passes text 0 stop)
    {found : List Match} (finds : (sequence true 0 lines).regex.Finds text 0 found) :
    CoversLines text found := by
  intro first last line moved
  refine finds.coversLines (framed_sequence true 0 lines) (far_sequence feedless true 0) ?_ line
    moved (Nat.zero_le _)
  exact fun first last line moved => resumable.exists_reads feedless passes line moved
    (Nat.zero_le _) (Nat.le_trans line.inside ended)

end Line

/-! ### Parts -/

private theorem PartAt.reads {text : Array Char} {part : Part} {outline : Outline}
    {start stop : Nat} {capture : Capture}
    (at_ : PartAt text part (some outline) start stop (some capture)) :
    outline.regex.Reads text capture.start capture.stop := by
  cases at_ with
  | found reads => exact reads

/-- The rows of a part cover its lines: those of a head and a tail always, those of a body if its
lines are rigid or resumable. -/
theorem Extractor.rows_cover_lines {template : Template} {limit : Nat} {extractor : Extractor}
    (built : ofTemplate template limit = .ok extractor) {text : Array Char} {blocks : List Match}
    (found : extractor.regex.findAll extractor.limit text = .ok blocks) {block : Match}
    (member : block ∈ blocks) {part : Part} {capture : Capture}
    (taken : block.capture? (.part part) = some capture) {sources : List String}
    (content : template.layout.part part = .lines sources) {lines : List Line}
    (parsed : parseLines sources = .ok lines) (feedless : ∀ line ∈ lines, line.Feedless)
    (repeats : part = .body → Line.Rigid lines ∨ Line.Resumable lines) :
    ∃ regex slots, extractor.part part = .rows regex slots ∧
      ∀ limit rows, regex.findAll limit (text.extract capture.start capture.stop) = .ok rows →
        CoversLines (text.extract capture.start capture.stop) rows := by
  obtain ⟨regex_eq, readers⟩ := parts_of_ofTemplate built
  have reader := readers part
  rw [content, PartReader.build_lines, parsed] at reader
  refine ⟨_, _, (Except.ok.inj reader).symm, fun limit rows searched => ?_⟩
  have rowsFound := Regex.finds_of_findAll searched
  have finds := Regex.finds_of_findAll found
  rw [regex_eq] at finds
  obtain ⟨headed, bodied, tailed⟩ := Outlines.ofParts_eq_ok.mp template.outlines_eq
  -- In the block the lines are matched without their captures, as the outline has them.
  have outlined := Section.outline_lines parsed
  obtain ⟨headStop, bodyStart, bodyStop, tailStart, head, -, body, captured, -, tail⟩ :=
    template.nameless.parts_of_finds finds member
  cases part with
  | head =>
    change template.layout.head = _ at content
    rw [content, outlined] at headed
    rw [taken, ← Except.ok.inj headed] at head
    exact Line.coversLines_of_reads feedless head.reads rowsFound
  | body =>
    change template.layout.body = _ at content
    rw [content, outlined] at bodied
    rw [← Option.some.inj (Except.ok.inj bodied)] at body
    cases captured.symm.trans taken
    obtain ⟨stop, ended, passes⟩ := Line.passes_of_repeated feedless body
    rcases repeats rfl with rigid | resumable
    · exact rigid.coversLines_of_passes feedless (ne_nil_of_parseLines parsed) ended passes rowsFound
    · exact resumable.coversLines_of_passes feedless ended passes rowsFound
  | tail =>
    change template.layout.tail = _ at content
    rw [content, outlined] at tailed
    rw [taken, ← Except.ok.inj tailed] at tail
    exact Line.coversLines_of_reads feedless tail.reads rowsFound

set_option maxRecDepth 20000 in
/-- Two passes over a body of two lines, and what their rows cover. -/
theorem Extractor.rows_cover_lines_twice :
    ∃ template extractor block regex slots rows,
      template.layout = ⟨.absent, .lines ["@!.a", "#!.+i"], .absent⟩ ∧
      ofTemplate template 10 = .ok extractor ∧
      extractor.regex.findAll extractor.limit "a\n1\na\n2".toList.toArray = .ok [block] ∧
      block.capture? (.part .body) = some ⟨.part .body, 0, 7⟩ ∧
      extractor.part .body = .rows regex slots ∧
      regex.findAll 10 ("a\n1\na\n2".toList.toArray.extract 0 7) = .ok rows ∧
      CoversLines ("a\n1\na\n2".toList.toArray.extract 0 7) rows := by
  let letter : Line := ⟨false, [.literal ⟨.required, true, .single⟩ 'a' []]⟩
  let digit : Line := ⟨false, [.number ⟨.required, true, .single⟩ .positive .integer]⟩
  let lines := [letter, digit]
  have parsed : parseLines ["@!.a", "#!.+i"] = .ok lines := by decide +kernel
  obtain ⟨template, extractor, layout, built, made⟩ := exists_ofTemplate_lines (.lines parsed) 10
  -- One block, and in it two rounds of two lines each.
  have found : extractor.regex.findAll extractor.limit "a\n1\na\n2".toList.toArray =
      .ok [⟨0, 7, [⟨.part .body, 0, 7⟩]⟩] := by
    rw [made]
    cbv
  have searched : (Line.sequence true 0 lines).regex.findAll 10
      ("a\n1\na\n2".toList.toArray.extract 0 7) =
        .ok [⟨0, 3, [⟨.slot 1, 2, 3⟩, ⟨.slot 0, 0, 1⟩]⟩,
          ⟨4, 7, [⟨.slot 1, 6, 7⟩, ⟨.slot 0, 4, 5⟩]⟩] := by cbv
  have feedless : ∀ line ∈ lines, line.Feedless := by
    simp [lines, letter, digit, Line.Feedless, Token.literal?]
  -- The literal does not match an empty line, so no two neighbours both do.
  have blank : ¬letter.Fits [] := by
    rw [← Line.matchesAlone_pattern rfl true 0 List.not_mem_nil, Regex.matchesAlone_iff, not_not]
    decide +kernel
  have rigid : Line.Rigid lines := by
    refine ⟨by simp [lines, letter, digit], ?_, ?_⟩
    · exact .cons_cons (fun both => blank both.1) (.singleton digit)
    · rintro _ ⟨⟩ _ ⟨⟩ both
      exact blank both.2
  obtain ⟨regex, slots, reader, covers⟩ := rows_cover_lines built found List.mem_cons_self
    (show Match.capture? ⟨0, 7, [⟨.part .body, 0, 7⟩]⟩ (.part .body) = _ from rfl)
    (show template.layout.part .body = _ by rw [layout]; rfl) parsed feedless fun _ => Or.inl rigid
  rw [made] at reader
  cases reader
  exact ⟨template, extractor, _, _, _, _, layout, built, found, rfl, by rw [made]; rfl, searched,
    covers 10 _ searched⟩

/-! ### Bodies that leave a line over -/

/-- A capture that succeeds, although the rows of the body leave one of its lines over. -/
structure Extractor.LeavesLine (extractor : Extractor) (report : String) (values : List Value)
    (block : Match) (rows : List Match) : Prop where
  captured : extractor.capture .body report = .ok values
  found : extractor.regex.findAll extractor.limit report.toList.toArray = .ok [block]
  searched : ∃ regex slots capture, extractor.part .body = .rows regex slots ∧
    block.capture? (.part .body) = some capture ∧
    regex.findAll extractor.limit
      (report.toList.toArray.extract capture.start capture.stop) = .ok rows ∧
    ¬CoversLines (report.toList.toArray.extract capture.start capture.stop) rows

set_option maxRecDepth 20000 in
/-- The rows of a body leave a line over where two neighbours match the same empty line, and where
the first line of a round is optional. -/
theorem Extractor.rows_leave_line :
    (∃ template extractor values block rows,
      template.layout = ⟨.absent, .lines ["~!", "~!"], .absent⟩ ∧
      ofTemplate template 10 = .ok extractor ∧
      extractor.LeavesLine "x\n\ny\nz" values block rows) ∧
    ∃ template extractor values block rows,
      template.layout = ⟨.absent, .lines ["? &!.", "&!.", "&!."], .absent⟩ ∧
      ofTemplate template 10 = .ok extractor ∧
      extractor.LeavesLine "a\nb\nc\nd\ne\nf" values block rows := by
  constructor
  · let free : Line := ⟨false, [.anything true]⟩
    have parsed : parseLines ["~!", "~!"] = .ok [free, free] := by decide +kernel
    obtain ⟨template, _, layout, built, rfl⟩ := exists_ofTemplate_lines (.lines parsed) 10
    -- The last line is left over: both rounds end before it.
    have last : PhysicalLine ("x\n\ny\nz".toList.toArray.extract 0 6) 5 6 :=
      ⟨by decide, by decide, Or.inr (by decide), Or.inl (by decide), by decide +kernel⟩
    refine ⟨template, _, [.list [.list [.text "x", .text ""], .list [.text "", .text "y"]]],
      ⟨0, 6, [⟨.part .body, 0, 6⟩]⟩, [⟨0, 2, [⟨.slot 1, 2, 2⟩, ⟨.slot 0, 0, 1⟩]⟩,
        ⟨2, 4, [⟨.slot 1, 3, 4⟩, ⟨.slot 0, 2, 2⟩]⟩], layout, built, by cbv, by cbv, _, _,
      ⟨.part .body, 0, 6⟩, rfl, rfl, by cbv, fun covers => ?_⟩
    obtain ⟨row, member, -, behind⟩ := covers 5 6 last (by decide)
    simp only [List.mem_cons, List.not_mem_nil, or_false] at member
    rcases member with rfl | rfl <;> simp at behind
  · let word : Line := ⟨false, [.misc ⟨.required, true, .single⟩]⟩
    let maybe : Line := { word with optional := true }
    have parsed : parseLines ["? &!.", "&!.", "&!."] = .ok [maybe, word, word] := by decide +kernel
    obtain ⟨template, _, layout, built, rfl⟩ := exists_ofTemplate_lines (.lines parsed) 10
    -- The second row begins at the line feed, skips its optional line there and ends a line early.
    have last : PhysicalLine ("a\nb\nc\nd\ne\nf".toList.toArray.extract 0 11) 10 11 :=
      ⟨by decide, by decide, Or.inr (by decide), Or.inl (by decide), by decide +kernel⟩
    refine ⟨template, _, [.list [.list [.text "a", .text "b", .text "c"],
        .list [.null, .text "d", .text "e"]]],
      ⟨0, 11, [⟨.part .body, 0, 11⟩]⟩,
      [⟨0, 5, [⟨.slot 2, 4, 5⟩, ⟨.slot 1, 2, 3⟩, ⟨.slot 0, 0, 1⟩]⟩,
        ⟨5, 9, [⟨.slot 2, 8, 9⟩, ⟨.slot 1, 6, 7⟩]⟩], layout, built, by cbv, by cbv, _, _,
      ⟨.part .body, 0, 11⟩, rfl, rfl, by cbv, fun covers => ?_⟩
    obtain ⟨row, member, -, behind⟩ := covers 10 11 last (by decide)
    simp only [List.mem_cons, List.not_mem_nil, or_false] at member
    rcases member with rfl | rfl <;> simp at behind

end Gleaner
