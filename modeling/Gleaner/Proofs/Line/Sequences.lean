import Gleaner.Proofs.Line.Runs
import Mathlib.Data.List.Pairwise

/-!
# Sequences of lines

Four facts about the pattern of a sequence of lines. What it reads, it reads in the same way once
the extent has been cut out of its text (`reads_extract`). Its preferred way goes as far as any
other: an optional line is rather taken than left and a line feed rather read than not, and since
everything ends on line boundaries, a way that is ahead is never overtaken (`Far`). And where no line
is optional and no two neighbours match an empty line, it reads one line for each of its own, so
that there is only one end (`reads_unique`). Where every line but the last is optional, it can begin
with any of the lines that it reads (`reads_from`).
-/

namespace Gleaner

/-! ### Going far -/

/-- From places no further left, the preferred way ends no further left than any other. -/
structure Regex.Far (regex : Regex) : Prop where
  ahead : ∀ {text : Array Char} {start start' stop : Nat} {way : Way}, start ≤ start' →
    AtLineBoundary text start' → regex.Reads text start stop →
      (regex.ways text start').head? = some way → stop ≤ way.stop

/-- A step that prefers to go further, and goes no further than to the next line boundary. -/
structure Regex.Steady (regex : Regex) : Prop where
  framed : regex.Framed
  sorted : ∀ text pos, (regex.ways text pos).Pairwise fun one other => other.stop ≤ one.stop
  behind : ∀ {text : Array Char} {start stop pos : Nat}, regex.Reads text start stop →
    start < pos → AtLineBoundary text pos → stop ≤ pos

/-- The first way of a chain continues the first way that can be continued. -/
theorem Way.exists_of_head?_chain {first : List Way} {rest : Nat → List Way} {way : Way}
    (head : (chain first rest).head? = some way) :
    ∃ earlier begun later next, first = earlier ++ begun :: later ∧
      (∀ other ∈ earlier, rest other.stop = []) ∧ (rest begun.stop).head? = some next ∧
      way = begun.after next := by
  induction first with
  | nil => cases head
  | cons begun others ih =>
    cases next : (rest begun.stop).head? with
    | some next =>
      rw [head?_chain_cons next] at head
      exact ⟨[], begun, others, _, rfl, by simp, next, (Option.some.inj head).symm⟩
    | none =>
      -- This way cannot be continued, so the first one is among the others.
      have none := List.head?_eq_none_iff.mp next
      rw [chain_cons, none, List.map_nil, List.nil_append] at head
      obtain ⟨earlier, begun', later, next', rfl, failed, found, rfl⟩ := ih head
      refine ⟨begun :: earlier, begun', later, next', rfl, ?_, found, rfl⟩
      simpa [none] using failed

theorem Regex.far_empty : Regex.empty.Far where
  ahead ahead _ reads head := by
    cases head
    rw [reads_empty.mp reads]
    exact ahead

/-- A step is taken where something can follow it, and then the rest goes far. -/
theorem Regex.Steady.append_far {first second : Regex} (steady : first.Steady) (far : second.Far) :
    (first ++ second).Far := by
  refine ⟨fun {text start start' stop way} ahead boundary reads head => ?_⟩
  obtain ⟨middle, readsFirst, readsSecond⟩ := reads_append.mp reads
  obtain ⟨earlier, begun, later, next, ways, failed, found, rfl⟩ :=
    Way.exists_of_head?_chain head
  have begunIn : begun ∈ first.ways text start' := by simp [ways]
  have forward := (within_ways text first start' begun begunIn).1
  have ahead' : middle ≤ begun.stop := by
    rcases Nat.lt_or_eq_of_le ahead with less | rfl
    · exact Nat.le_trans (steady.behind readsFirst less boundary) forward
    · -- From the same place: what is preferred to the way that is continued cannot be.
      obtain ⟨other, otherIn, rfl⟩ := readsFirst
      have sorted := steady.sorted text start
      rw [ways] at otherIn sorted
      rcases List.mem_append.mp otherIn with inEarlier | inLater
      · exact absurd readsSecond (ways_eq_nil_iff.mp (failed other inEarlier) stop)
      · rcases List.mem_cons.mp inLater with rfl | inLater
        · exact Nat.le_refl _
        · have pairs := (List.pairwise_append.mp sorted).2.1
          exact (List.pairwise_cons.mp pairs).1 other inLater
  -- The step ends on a boundary, since it began on one or has read up to one.
  have boundary' : AtLineBoundary text begun.stop := by
    rcases steady.framed.linked ⟨begun, begunIn, rfl⟩ with same | both
    · rwa [← same]
    · exact both.2
  rw [Way.stop_after]
  exact far.ahead ahead' boundary' readsSecond found

theorem Regex.Steady.far {regex : Regex} (steady : regex.Steady) : regex.Far where
  ahead {text _ start' stop _} ahead boundary reads head := by
    have same : (regex ++ Regex.empty).ways text start' = regex.ways text start' :=
      Way.chain_stay_right _
    exact (steady.append_far far_empty).ahead ahead boundary
      (reads_append.mpr ⟨stop, reads, reads_empty.mpr rfl⟩) (by rwa [same])

theorem steady_lineJoint : lineJoint.Steady where
  framed := framed_lineJoint
  sorted text pos := by
    simp only [lineJoint, Regex.ways]
    split <;> simp
  behind reads before _ := by
    rcases reads_lineJoint.mp reads with ⟨-, rfl⟩ | rfl
    · exact before
    · exact Nat.le_of_lt before

theorem Regex.Steady.optional {body : Regex} (steady : body.Steady) :
    (Regex.optional body).Steady where
  framed := steady.framed.optional
  sorted text pos := by
    refine List.pairwise_append.mpr ⟨steady.sorted text pos, List.pairwise_singleton _ _, ?_⟩
    -- To read the body is never to end before the place where it is left out.
    intro one inBody other stays
    rw [List.mem_singleton.mp stays]
    exact (within_ways text body pos one inBody).1
  behind reads before boundary := by
    rcases reads_optional.mp reads with there | rfl
    · exact steady.behind there before boundary
    · exact Nat.le_of_lt before

theorem Regex.LineWise.steady {regex : Regex} (lineWise : regex.LineWise) : regex.Steady where
  framed := by
    refine ⟨fun reads => ?_⟩
    obtain ⟨left, word, right, rfl, line, rfl, rfl, -⟩ := lineWise.line_of_reads reads
    refine Or.inr ⟨Or.inl (lineWise.starts reads), Or.inr ?_⟩
    cases right with
    | nil => exact Or.inl (by simp)
    | cons c rest =>
      have feed := line.behind c rfl
      exact Or.inr (by simp [feed])
  sorted text pos := by
    apply List.pairwise_of_forall_mem_list
    intro one inWays other inWays'
    obtain ⟨left, word, right, rfl, rfl, line⟩ := exists_lineIn (lineWise.starts ⟨one, inWays, rfl⟩)
    rw [lineWise.stop_eq line inWays, lineWise.stop_eq line inWays']
  behind {text start stop pos} reads before boundary := by
    obtain ⟨left, word, right, rfl, line, rfl, rfl, -⟩ := lineWise.line_of_reads reads
    -- A boundary inside the line would need a line feed in it.
    by_contra beyond
    obtain ⟨i, rfl⟩ : ∃ i, pos = left.length + (i + 1) := ⟨pos - left.length - 1, by omega⟩
    have inWord : ∀ j, j < word.length →
        (left ++ word ++ right).toArray[left.length + j]? ≠ some '\n' := by
      intro j inside feed
      rw [List.getElem?_toArray] at feed
      simp only [List.append_assoc, List.getElem?_append_right (Nat.le_add_right _ _),
        Nat.add_sub_cancel_left, List.getElem?_append_left inside] at feed
      exact line.feedless (List.mem_of_getElem? feed)
    rcases boundary with (zero | feed) | (ended | feed)
    · omega
    · exact inWord i (by omega) feed
    · simp only [List.size_toArray, List.length_append] at ended
      omega
    · exact inWord (i + 1) (by omega) feed

namespace Line

theorem Feedless.steady_pattern {line : Line} (feedless : line.Feedless) (allowCapture : Bool)
    (start : Nat) : (line.pattern allowCapture start).regex.Steady := by
  have whole := (feedless.lineWise allowCapture start).steady
  simp only [pattern]
  split
  next => exact Regex.Steady.optional ⟨whole.framed.group _, whole.sorted, whole.behind⟩
  next => exact whole

/-- The preferred way of a sequence of lines goes as far as any other. -/
theorem far_sequence {lines : List Line} (feedless : ∀ line ∈ lines, line.Feedless)
    (allowCapture : Bool) (start : Nat) : (sequence allowCapture start lines).regex.Far := by
  induction lines generalizing start with
  | nil => exact Regex.far_empty
  | cons line rest ih =>
    have first := (feedless line List.mem_cons_self).steady_pattern allowCapture start
    cases rest with
    | nil => exact first.far
    | cons second rest =>
      exact first.append_far (steady_lineJoint.append_far
        (ih (fun one member => feedless one (List.mem_cons_of_mem _ member)) _))

end Line

/-! ### Cutting out -/

/-- A line that lies in an extent is a line of the extent. -/
private theorem LineIn.extract {left word right : List Char} (line : LineIn left word right)
    {first last : Nat} (after : first ≤ left.length) (before : left.length + word.length ≤ last) :
    ∃ left' right', (left ++ word ++ right).toArray.extract first last =
        (left' ++ word ++ right').toArray ∧ left'.length = left.length - first ∧
      LineIn left' word right' := by
  -- What stands before and behind the line is cut down to the extent.
  refine ⟨left.drop first, right.take (last - (left.length + word.length)), ?_, by simp, ?_,
    line.feedless, ?_⟩
  · apply Array.toList_inj.mp
    rw [Array.toList_extract, List.extract_eq_take_drop]
    simp only [List.append_assoc]
    rw [List.drop_append_of_le_length after, List.take_append, List.take_append,
      List.take_of_length_le (by simp; omega), List.take_of_length_le (by simp; omega)]
    congr 3
    simp
    omega
  · intro c found
    refine line.before c ?_
    rw [List.getLast?_drop] at found
    split at found
    · cases found
    · exact found
  · intro c found
    refine line.behind c ?_
    rw [List.head?_take] at found
    split at found
    · cases found
    · exact found

namespace Line

/-- A line reads alike in a text and in an extent that is cut out of it. -/
theorem reads_pattern_extract {line : Line} (feedless : line.Feedless) {allow allow' : Bool}
    {group group' : Nat} {text : Array Char} {first last start stop : Nat} (after : first ≤ start)
    (before : stop ≤ last) (reads : (line.pattern allow group).regex.Reads text start stop) :
    (line.pattern allow' group').regex.Reads (text.extract first last) (start - first)
      (stop - first) := by
  -- Both patterns read a line where the line fits, whatever they keep of it.
  have whole : ∀ {start stop}, first ≤ start → stop ≤ last →
      (wholeRegex (placeTokens allow group line.tokens)).Reads text start stop →
        (wholeRegex (placeTokens allow' group' line.tokens)).Reads (text.extract first last)
          (start - first) (stop - first) := by
    intro start stop after before reads
    obtain ⟨left, word, right, rfl, lineIn, rfl, rfl, ways⟩ :=
      (feedless.lineWise allow group).line_of_reads reads
    obtain ⟨left', right', extent, length, lineIn'⟩ := lineIn.extract after before
    have fits := (exists_reads_alone line allow group lineIn.feedless).mp
      (Regex.ways_ne_nil_iff.mp ways)
    have ways' := Regex.ways_ne_nil_iff.mpr
      ((exists_reads_alone line allow' group' lineIn.feedless).mpr fits)
    have reads' := (feedless.lineWise allow' group').reads_line lineIn' ways'
    rw [← extent, length] at reads'
    rwa [show left.length + word.length - first = left.length - first + word.length by omega]
  simp only [pattern] at reads ⊢
  split at reads
  next optional =>
    rw [if_pos optional, Regex.reads_optional, Regex.reads_group] at *
    rcases reads with there | rfl
    · exact Or.inl (whole after before there)
    · exact Or.inr rfl
  next mandatory =>
    rw [if_neg mandatory]
    exact whole after before reads

theorem reads_lineJoint_extract {text : Array Char} {first last start stop : Nat}
    (after : first ≤ start) (before : stop ≤ last) (reads : lineJoint.Reads text start stop) :
    lineJoint.Reads (text.extract first last) (start - first) (stop - first) := by
  rcases reads_lineJoint.mp reads with ⟨feed, rfl⟩ | rfl
  · refine reads_lineJoint.mpr (Or.inl ⟨?_, by omega⟩)
    have inside := (Array.getElem?_eq_some_iff.mp feed).1
    rw [Array.getElem?_extract, if_pos (by omega), Nat.add_sub_cancel' after]
    exact feed
  · exact reads_lineJoint.mpr (Or.inr rfl)

theorem reads_sequence_extract {lines : List Line} (feedless : ∀ line ∈ lines, line.Feedless)
    {allow allow' : Bool} {group group' : Nat} {text : Array Char} {first last start stop : Nat}
    (after : first ≤ start) (before : stop ≤ last)
    (reads : (sequence allow group lines).regex.Reads text start stop) :
    (sequence allow' group' lines).regex.Reads (text.extract first last) (start - first)
      (stop - first) := by
  induction lines generalizing group group' start with
  | nil =>
    rw [Regex.reads_empty.mp reads]
    exact Regex.reads_empty.mpr rfl
  | cons line rest ih =>
    have here := feedless line List.mem_cons_self
    cases rest with
    | nil => exact reads_pattern_extract here after before reads
    | cons second rest =>
      -- The three parts are read in the extent one by one.
      obtain ⟨middle, reads, others⟩ := Regex.reads_append.mp reads
      obtain ⟨middle', joint, others⟩ := Regex.reads_append.mp others
      have le := reads.forward
      have le' := joint.forward
      have le'' := others.forward
      refine Regex.reads_append.mpr ⟨_, reads_pattern_extract here after (by omega) reads,
        Regex.reads_append.mpr ⟨_, reads_lineJoint_extract (by omega) (by omega) joint, ?_⟩⟩
      exact ih (fun one member => feedless one (List.mem_cons_of_mem _ member)) (by omega) others

end Line

/-! ### One line for each -/

/-- Not both of two lines match an empty line. -/
def Line.NotBothBlank (one other : Line) : Prop :=
  ¬(one.Fits [] ∧ other.Fits [])

/-- No line is optional, and of two neighbours at most one matches an empty line, where the last
line and the first are neighbours, too. -/
structure Line.Rigid (lines : List Line) : Prop where
  mandatory : ∀ line ∈ lines, line.optional = false
  apart : lines.IsChain NotBothBlank
  around : ∀ first ∈ lines.head?, ∀ last ∈ lines.getLast?, last.NotBothBlank first

theorem Regex.LineWise.reads_unique {regex : Regex} (lineWise : regex.LineWise) {text : Array Char}
    {start stop stop' : Nat} (reads : regex.Reads text start stop)
    (reads' : regex.Reads text start stop') : stop = stop' := by
  obtain ⟨left, word, right, rfl, rfl, line⟩ := exists_lineIn (lineWise.starts reads)
  obtain ⟨way, member, rfl⟩ := reads
  obtain ⟨way', member', rfl⟩ := reads'
  rw [lineWise.stop_eq line member, lineWise.stop_eq line member']

/-- Two lines that meet without a line feed between them are the same empty line. -/
theorem Regex.LineWise.blank_of_meet {first second : Regex} (lineWise : first.LineWise)
    (lineWise' : second.LineWise) {text : Array Char} {start middle stop : Nat}
    (reads : first.Reads text start middle) (reads' : second.Reads text middle stop) :
    first.ways #[] 0 ≠ [] ∧ second.ways #[] 0 ≠ [] := by
  obtain ⟨left, word, right, rfl, line, rfl, rfl, ways⟩ := lineWise.line_of_reads reads
  -- From the end of a line that is not empty no line can begin.
  have blank : word = [] := by
    by_contra some
    have moved := List.length_pos_iff.mpr some
    have none := lineWise'.ways_inside line (show left.length < _ by omega) (Nat.le_refl _)
    exact ways_eq_nil_iff.mp none stop reads'
  subst blank
  refine ⟨ways, fun none => ?_⟩
  have alone := lineWise'.alone line
  rw [none] at alone
  exact ways_eq_nil_iff.mp alone stop reads'

namespace Line

theorem fits_of_ways {line : Line} (mandatory : line.optional = false) {allowCapture : Bool}
    {start : Nat} {word : List Char} (noFeed : '\n' ∉ word)
    (ways : (line.pattern allowCapture start).regex.ways word.toArray 0 ≠ []) : line.Fits word := by
  rw [pattern, mandatory] at ways
  exact (exists_reads_alone line allowCapture start noFeed).mp (Regex.ways_ne_nil_iff.mp ways)

/-- Two lines that do not both match an empty line cannot meet. -/
theorem NotBothBlank.not_meet {one other : Line} (apart : one.NotBothBlank other)
    (feedless : one.Feedless) (feedless' : other.Feedless) (mandatory : one.optional = false)
    (mandatory' : other.optional = false) {allow allow' : Bool} {group group' : Nat}
    {text : Array Char} {start middle stop : Nat}
    (reads : (one.pattern allow group).regex.Reads text start middle) :
    ¬(other.pattern allow' group').regex.Reads text middle stop := by
  intro reads'
  have lineWise := feedless.lineWise_pattern mandatory allow group
  have lineWise' := feedless'.lineWise_pattern mandatory' allow' group'
  -- Where they meet there is one empty line, which both would have to match.
  obtain ⟨blank, blank'⟩ := lineWise.blank_of_meet lineWise' reads reads'
  exact apart ⟨fits_of_ways mandatory List.not_mem_nil blank,
    fits_of_ways mandatory' List.not_mem_nil blank'⟩

section Rigid

variable {lines : List Line} {allow : Bool} {group : Nat} {text : Array Char} {start stop : Nat}

theorem reads_first {first : Line} {rest : List Line}
    (reads : (sequence allow group (first :: rest)).regex.Reads text start stop) :
    ∃ middle, (first.pattern allow group).regex.Reads text start middle := by
  cases rest with
  | nil => exact ⟨stop, reads⟩
  | cons second rest =>
    obtain ⟨middle, reads, -⟩ := Regex.reads_append.mp reads
    exact ⟨middle, reads⟩

theorem reads_last {last : Line} (isLast : last ∈ lines.getLast?)
    (reads : (sequence allow group lines).regex.Reads text start stop) :
    ∃ middle group', (last.pattern allow group').regex.Reads text middle stop := by
  induction lines generalizing group start with
  | nil => cases isLast
  | cons line rest ih =>
    cases rest with
    | nil =>
      cases isLast
      exact ⟨start, group, reads⟩
    | cons second rest =>
      -- The last line is still to come behind the joint.
      obtain ⟨middle, -, others⟩ := Regex.reads_append.mp reads
      obtain ⟨middle', -, others⟩ := Regex.reads_append.mp others
      exact ih (by simpa using isLast) others

/-- Between two lines of a sequence there is a line feed. -/
theorem reads_cons_cons {first second : Line} {rest : List Line}
    (feedless : ∀ line ∈ first :: second :: rest, line.Feedless)
    (mandatory : ∀ line ∈ first :: second :: rest, line.optional = false)
    (apart : first.NotBothBlank second)
    (reads : (sequence allow group (first :: second :: rest)).regex.Reads text start stop) :
    ∃ middle, (first.pattern allow group).regex.Reads text start middle ∧
      text[middle]? = some '\n' ∧
      (sequence allow (first.pattern allow group).nextGroup (second :: rest)).regex.Reads text
        (middle + 1) stop := by
  obtain ⟨middle, here, others⟩ := Regex.reads_append.mp reads
  obtain ⟨middle', joint, behind⟩ := Regex.reads_append.mp others
  rcases reads_lineJoint.mp joint with ⟨feed, rfl⟩ | rfl
  · exact ⟨middle, here, feed, behind⟩
  -- Without the line feed the two lines would meet.
  · obtain ⟨_, next⟩ := reads_first behind
    refine absurd next (apart.not_meet ?_ ?_ ?_ ?_ here)
    · exact feedless first List.mem_cons_self
    · exact feedless second (by simp)
    · exact mandatory first List.mem_cons_self
    · exact mandatory second (by simp)

/-- A rigid sequence has only one end. -/
theorem reads_unique (feedless : ∀ line ∈ lines, line.Feedless)
    (mandatory : ∀ line ∈ lines, line.optional = false) (apart : lines.IsChain NotBothBlank)
    {stop' : Nat} (reads : (sequence allow group lines).regex.Reads text start stop)
    (reads' : (sequence allow group lines).regex.Reads text start stop') : stop = stop' := by
  induction lines generalizing group start with
  | nil => rw [Regex.reads_empty.mp reads, Regex.reads_empty.mp reads']
  | cons line rest ih =>
    have lineWise := (feedless line List.mem_cons_self).lineWise_pattern
      (mandatory line List.mem_cons_self) allow group
    cases rest with
    | nil => exact lineWise.reads_unique reads reads'
    | cons second rest =>
      obtain ⟨next, apart⟩ := List.isChain_cons_cons.mp apart
      obtain ⟨middle, here, -, others⟩ := reads_cons_cons feedless mandatory next reads
      obtain ⟨middle', here', -, others'⟩ := reads_cons_cons feedless mandatory next reads'
      -- The first line ends at one place only, and the others begin behind it.
      cases lineWise.reads_unique here here'
      exact ih (fun one member => feedless one (List.mem_cons_of_mem _ member))
        (fun one member => mandatory one (List.mem_cons_of_mem _ member)) apart others others'

end Rigid

end Line

/-! ### Beginning with any line -/

namespace PhysicalLine

variable {text : Array Char} {first last : Nat}

theorem getElem?_ne_feed (line : PhysicalLine text first last) {pos : Nat} (behind : first ≤ pos)
    (before : pos < last) : text[pos]? ≠ some '\n' := by
  intro feed
  refine line.feedless (Array.mem_of_getElem? (i := pos - first) ?_)
  rw [Array.getElem?_extract, if_pos (by have := line.inside; omega), Nat.add_sub_cancel' behind]
  exact feed

/-- No line boundary lies inside a line. -/
theorem before_or_behind (line : PhysicalLine text first last) {pos : Nat}
    (boundary : AtLineBoundary text pos) : pos ≤ first ∨ last ≤ pos := by
  by_contra inside
  have behind : first < pos := by omega
  have before : pos < last := by omega
  rcases boundary with (zero | feed) | (ended | feed)
  · omega
  · exact line.getElem?_ne_feed (by omega) (by omega : pos - 1 < last) feed
  · have := line.inside
    omega
  · exact line.getElem?_ne_feed (Nat.le_of_lt behind) before feed

/-- A joint before a line that is not empty ends before it, too. -/
theorem behind_joint (line : PhysicalLine text first last) (moved : first < last)
    {start stop : Nat} (behind : start ≤ first) (joint : lineJoint.Reads text start stop) :
    stop ≤ first := by
  rcases reads_lineJoint.mp joint with ⟨feed, rfl⟩ | rfl
  · rcases Nat.lt_or_eq_of_le behind with less | rfl
    · exact less
    · exact absurd feed (line.getElem?_ne_feed (Nat.le_refl _) moved)
  · exact behind

end PhysicalLine

namespace Line

/-- Every line but the last is optional, so that a pass over the lines can begin with any of them. -/
def Resumable (lines : List Line) : Prop :=
  ∀ line ∈ lines.dropLast, line.optional = true

theorem reads_optional_pattern {line : Line} (optional : line.optional = true) (allow : Bool)
    (group : Nat) (text : Array Char) (pos : Nat) :
    (line.pattern allow group).regex.Reads text pos pos := by
  simp only [pattern, optional, if_true]
  exact Regex.reads_optional.mpr (Or.inr rfl)

/-- A pass over resumable lines can be taken up with any line that it reads. -/
theorem Resumable.reads_from {lines : List Line} (resumable : Resumable lines)
    (feedless : ∀ line ∈ lines, line.Feedless) {allow : Bool} {group : Nat} {text : Array Char}
    {start stop first last : Nat} (reads : (sequence allow group lines).regex.Reads text start stop)
    (line : PhysicalLine text first last) (moved : first < last) (behind : start ≤ first)
    (before : last ≤ stop) : (sequence allow group lines).regex.Reads text first stop := by
  induction lines generalizing group start with
  | nil =>
    have := Regex.reads_empty.mp reads
    omega
  | cons one rest ih =>
    have steady := (feedless one List.mem_cons_self).steady_pattern allow group
    rcases Nat.lt_or_eq_of_le behind with less | rfl
    · cases rest with
      | nil =>
        -- The only line would have been read before this one.
        have := steady.behind reads less (Or.inl line.starts)
        omega
      | cons second rest =>
        obtain ⟨middle, here, others⟩ := Regex.reads_append.mp reads
        obtain ⟨middle', joint, others⟩ := Regex.reads_append.mp others
        have behind' := line.behind_joint moved (steady.behind here less (Or.inl line.starts)) joint
        have reads' := ih (fun other member => resumable other (by simp [member]))
          (fun other member => feedless other (List.mem_cons_of_mem _ member)) others behind'
        -- The first line and the joint behind it are left out.
        refine Regex.reads_append.mpr ⟨first, ?_,
          Regex.reads_append.mpr ⟨first, reads_lineJoint.mpr (Or.inr rfl), reads'⟩⟩
        exact reads_optional_pattern (resumable one (by simp)) allow group text first
    · exact reads

end Line

end Gleaner
