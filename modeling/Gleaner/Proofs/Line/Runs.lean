import Gleaner.Layout.Basic
import Gleaner.Proofs.Line.Meaning
import Mathlib.Data.List.TakeWhile

/-!
# Runs of lines

A pattern that reads one whole line at a time, and reads it alike wherever the line stands, is known
from the lines of a text taken alone. Repeated with joints between the rounds it reads as many
consecutive lines as it can: an empty line gives no second round, since such a round would read
nothing, and every other round has to pass a line feed.
-/

namespace Gleaner

/-- The pattern reads one whole line, wherever it stands, as if it stood alone. -/
structure Regex.LineWise (regex : Regex) : Prop where
  alone : ∀ {left word right : List Char}, LineIn left word right →
    regex.ways (left ++ word ++ right).toArray left.length =
      (regex.ways word.toArray 0).map (Way.shift left.length)
  starts : ∀ {text : Array Char} {start stop : Nat}, regex.Reads text start stop →
    AtLineStart text start
  whole : ∀ {word : List Char}, '\n' ∉ word → ∀ way ∈ regex.ways word.toArray 0,
    way.stop = word.length

theorem Line.Feedless.lineWise {line : Line} (feedless : line.Feedless) (allowCapture : Bool)
    (start : Nat) : (wholeRegex (placeTokens allowCapture start line.tokens)).LineWise where
  alone lineIn := ways_alone lineIn (feedless.inLine allowCapture start)
  starts reads := (reads_wholeRegex.mp reads).1
  whole {word} noFeed way member := by
    obtain ⟨-, -, ends⟩ := reads_wholeRegex.mp ⟨way, member, rfl⟩
    rcases ends with ended | feed
    · simpa using ended
    · rw [List.getElem?_toArray] at feed
      exact absurd (List.mem_of_getElem? feed) noFeed

theorem Line.Feedless.lineWise_pattern {line : Line} (feedless : line.Feedless)
    (mandatory : line.optional = false) (allowCapture : Bool) (start : Nat) :
    (line.pattern allowCapture start).regex.LineWise := by
  simp only [Line.pattern, mandatory]
  exact feedless.lineWise allowCapture start

/-! ### One line -/

/-- A line of a text begins here, so there is one that does. -/
theorem exists_lineIn {text : Array Char} {pos : Nat} (starts : AtLineStart text pos) :
    ∃ left word right, text = (left ++ word ++ right).toArray ∧ pos = left.length ∧
      LineIn left word right := by
  have inside : pos ≤ text.size := by
    rcases starts with rfl | feed
    · exact Nat.zero_le _
    · have := (Array.getElem?_eq_some_iff.mp feed).1
      omega
  have size : (text.toList.take pos).length = pos := by simp [inside]
  -- The line reaches to the next line feed, or to the end of the text.
  refine ⟨text.toList.take pos, (text.toList.drop pos).takeWhile (· ≠ '\n'),
    (text.toList.drop pos).dropWhile (· ≠ '\n'), ?_, size.symm, ?_, ?_, ?_⟩
  · rw [List.append_assoc, List.takeWhile_append_dropWhile, List.take_append_drop]
  · intro c last
    rcases starts with rfl | feed
    · simp at last
    · rw [List.getLast?_eq_getElem?, size, List.getElem?_take] at last
      split at last
      · rw [Array.getElem?_toList, feed] at last
        exact (Option.some.inj last).symm
      · cases last
  · intro member
    simpa using List.mem_takeWhile_imp member
  · intro c first
    have stopped := List.head?_dropWhile_not (· ≠ '\n') (text.toList.drop pos)
    rw [first] at stopped
    simpa using stopped

namespace Regex.LineWise

variable {regex : Regex} {left word right : List Char}

theorem stop_eq (lineWise : regex.LineWise) (line : LineIn left word right) {way : Way}
    (member : way ∈ regex.ways (left ++ word ++ right).toArray left.length) :
    way.stop = left.length + word.length := by
  rw [lineWise.alone line] at member
  obtain ⟨inner, inAlone, rfl⟩ := List.mem_map.mp member
  rw [Way.stop_shift, lineWise.whole line.feedless inner inAlone]

/-- Nothing is read from the midst of a line, nor from the end of a line that is not empty. -/
theorem ways_inside (lineWise : regex.LineWise) (line : LineIn left word right) {pos : Nat}
    (behind : left.length < pos) (before : pos ≤ left.length + word.length) :
    regex.ways (left ++ word ++ right).toArray pos = [] := by
  refine ways_eq_nil_iff.mpr fun stop reads => ?_
  rcases lineWise.starts reads with zero | feed
  · omega
  · obtain ⟨i, rfl⟩ : ∃ i, pos = left.length + i + 1 := ⟨pos - left.length - 1, by omega⟩
    have inWord : (left ++ word ++ right).toArray[left.length + i]? = word[i]? := by
      simp [List.getElem?_append, show i < word.length by omega]
    rw [Nat.add_sub_cancel, inWord] at feed
    exact line.feedless (List.mem_of_getElem? feed)

theorem reads_line (lineWise : regex.LineWise) (line : LineIn left word right)
    (ways : regex.ways word.toArray 0 ≠ []) :
    regex.Reads (left ++ word ++ right).toArray left.length (left.length + word.length) := by
  have some : regex.ways (left ++ word ++ right).toArray left.length ≠ [] := by
    rw [lineWise.alone line]
    simpa using ways
  obtain ⟨way, member⟩ := List.exists_mem_of_ne_nil _ some
  exact ⟨way, member, lineWise.stop_eq line member⟩

/-- What is read from a line start is the line. -/
theorem line_of_reads (lineWise : regex.LineWise) {text : Array Char} {start stop : Nat}
    (reads : regex.Reads text start stop) :
    ∃ left word right, text = (left ++ word ++ right).toArray ∧ LineIn left word right ∧
      start = left.length ∧ stop = left.length + word.length ∧ regex.ways word.toArray 0 ≠ [] := by
  obtain ⟨left, word, right, rfl, rfl, line⟩ := exists_lineIn (lineWise.starts reads)
  obtain ⟨way, member, rfl⟩ := reads
  refine ⟨left, word, right, rfl, line, rfl, lineWise.stop_eq line member, ?_⟩
  rw [lineWise.alone line] at member
  intro none
  rw [none] at member
  cases member

end Regex.LineWise

/-! ### Consecutive lines -/

/-- The pattern matches a line that stands alone. -/
def Regex.matchesAlone (regex : Regex) (word : List Char) : Bool :=
  decide (regex.MatchesAt word.toArray 0)

theorem Regex.matchesAlone_iff {regex : Regex} {word : List Char} :
    regex.matchesAlone word = true ↔ regex.ways word.toArray 0 ≠ [] := by
  rw [matchesAlone, decide_eq_true_iff, matchesAt_iff]

/-- Lines as they stand behind another one. -/
def followed (lines : List (List Char)) : List Char :=
  lines.flatMap ('\n' :: ·)

@[simp] theorem followed_nil : followed [] = [] := rfl

@[simp] theorem followed_cons (line : List Char) (lines : List (List Char)) :
    followed (line :: lines) = '\n' :: (line ++ followed lines) := rfl

@[simp] theorem followed_append (lines lines' : List (List Char)) :
    followed (lines ++ lines') = followed lines ++ followed lines' :=
  List.flatMap_append

/-- A text is its first line and what follows it. -/
theorem intercalate_cons (line : List Char) (lines : List (List Char)) :
    ['\n'].intercalate (line :: lines) = line ++ followed lines := by
  induction lines generalizing line with
  | nil => simp
  | cons next rest ih => simp [List.intercalate_cons_cons, ih]

theorem eq_feed_of_followed (lines : List (List Char)) (c : Char)
    (first : (followed lines).head? = some c) : c = '\n' := by
  cases lines with
  | nil => cases first
  | cons => simpa using first.symm

/-- The line behind another one. -/
theorem LineIn.next {left word next : List Char} {rest : List (List Char)}
    (feedless : '\n' ∉ next) : LineIn (left ++ word ++ ['\n']) next (followed rest) where
  before c last := by simpa using last.symm
  feedless := feedless
  behind := eq_feed_of_followed rest

namespace Regex.LineWise

variable {regex : Regex} {left word right : List Char}

private abbrev round (regex : Regex) : Regex :=
  group .bundle (lineJoint ++ regex)

/-- From the end of a line, a round that reads something reads a line feed first. -/
private theorem ways_round (lineWise : regex.LineWise) (line : LineIn left word right) :
    ((round regex).ways (left ++ word ++ right).toArray (left.length + word.length)).filter
        (fun way => way.stop ≠ left.length + word.length) =
      if right = [] then []
      else regex.ways (left ++ word ++ right).toArray (left.length + word.length + 1) := by
  -- Without a line feed only an empty line can be read here, which is no round.
  have here : (regex.ways (left ++ word ++ right).toArray (left.length + word.length)).filter
      (fun way => way.stop ≠ left.length + word.length) = [] := by
    rw [List.filter_eq_nil_iff]
    intro way member
    by_cases blank : word = []
    · subst blank
      simpa using lineWise.stop_eq line (by simpa using member)
    · have some := List.length_pos_iff.mpr blank
      rw [lineWise.ways_inside line (by omega) (Nat.le_refl _)] at member
      cases member
  have feed : (left ++ word ++ right).toArray[left.length + word.length]? = right.head? := by
    cases right <;> simp
  have step : (round regex).ways (left ++ word ++ right).toArray (left.length + word.length) =
      Way.chain (lineJoint.ways (left ++ word ++ right).toArray (left.length + word.length))
        (regex.ways (left ++ word ++ right).toArray) := rfl
  rw [step]
  simp only [lineJoint, ways, feed]
  cases right with
  | nil => simpa using here
  | cons c rest =>
    have isFeed : (List.head? (c :: rest)).any CharSet.lineBreak.has = true := by
      simp [line.behind c rfl, CharSet.has]
    rw [if_pos isFeed, Way.chain_append, Way.chain_stay, Way.chain_stay, List.filter_append, here,
      List.append_nil, if_neg (List.cons_ne_nil c rest), List.filter_eq_self]
    intro way member
    have forward := (within_ways _ regex _ way member).1
    simp only [ne_eq, decide_not, Bool.not_eq_true', decide_eq_false_iff_not]
    omega

/-- The preferred number of further lines is the greatest: all that follow and match. -/
theorem head?_star (lineWise : regex.LineWise) (nameless : regex.groupNames = [])
    {lines : List (List Char)} (feedless : ∀ line ∈ lines, '\n' ∉ line)
    (line : LineIn left word (followed lines)) :
    ((star .greedy (group .bundle (lineJoint ++ regex))).ways
        (left ++ word ++ followed lines).toArray (left.length + word.length)).head? =
      some (.stay (left.length + word.length +
        (followed (lines.takeWhile regex.matchesAlone)).length)) := by
  -- On the lines that follow: the first of them is read if it matches, and ends the run if not.
  induction lines generalizing left word with
  | nil =>
    rw [ways_star, lineWise.ways_round line]
    simp [Greed.order]
  | cons next rest ih =>
    have nextIn : LineIn (left ++ word ++ ['\n']) next (followed rest) :=
      .next (feedless next List.mem_cons_self)
    have text_eq : left ++ word ++ followed (next :: rest) =
        left ++ word ++ ['\n'] ++ next ++ followed rest := by simp
    have place : left.length + word.length + 1 = (left ++ word ++ ['\n']).length := by
      simp [Nat.add_assoc]
    rw [ways_star, lineWise.ways_round line, if_neg (by simp), text_eq, place,
      lineWise.alone nextIn]
    by_cases matching : regex.matchesAlone next = true
    · obtain ⟨first, more, alone⟩ := List.exists_cons_of_ne_nil (matchesAlone_iff.mp matching)
      have member : first ∈ regex.ways next.toArray 0 := by simp [alone]
      have whole := lineWise.whole nextIn.feedless first member
      have uncaptured := captures_eq_nil nameless member
      have others := ih (fun line member => feedless line (List.mem_cons_of_mem _ member)) nextIn
      rw [alone, List.map_cons, Greed.order, List.head?_append,
        Way.head?_chain_cons (by rw [Way.stop_shift, whole]; exact others)]
      simp [matching, Way.after, Way.stay, Way.shift, uncaptured]
      omega
    · have none : regex.ways next.toArray 0 = [] := by
        simpa [matchesAlone_iff] using matching
      simp [none, matching, Greed.order]

/-- Whatever number of further lines is read, these are lines that match alone. -/
private theorem lines_of_reads_star (lineWise : regex.LineWise) (line : LineIn left word right)
    {stop : Nat} (reads : (star .greedy (round regex)).Reads (left ++ word ++ right).toArray
      (left.length + word.length) stop) :
    ∃ lines right', right = followed lines ++ right' ∧
      stop = left.length + word.length + (followed lines).length ∧
      (∀ line ∈ lines, '\n' ∉ line ∧ regex.matchesAlone line = true) ∧
      ∀ c, right'.head? = some c → c = '\n' := by
  -- On the text between here and the end: every round that counts makes it shorter.
  induction rest : stop - (left.length + word.length) using Nat.strong_induction_on
    generalizing left word right with
  | _ n ih =>
    rcases reads_star.mp reads with rfl | ⟨middle, ⟨way, inRound, rfl⟩, moved, others⟩
    · exact ⟨[], right, rfl, by simp, by simp, line.behind⟩
    · have counted : way ∈ ((round regex).ways (left ++ word ++ right).toArray
          (left.length + word.length)).filter fun way => way.stop ≠ left.length + word.length :=
        List.mem_filter.mpr ⟨inRound, decide_eq_true (Nat.ne_of_gt moved)⟩
      rw [lineWise.ways_round line] at counted
      split at counted
      · cases counted
      · rename_i some
        obtain ⟨c, behind, rfl⟩ := List.exists_cons_of_ne_nil some
        have feed := line.behind c rfl
        subst feed
        obtain ⟨left', next, right', text_eq, nextIn, start, stopped, ways⟩ :=
          lineWise.line_of_reads ⟨way, counted, rfl⟩
        -- The line that was read begins behind the line feed, so both cuts are the same.
        have parts : left ++ word ++ ['\n'] ++ behind = left' ++ (next ++ right') := by
          simpa using text_eq
        have cut : left ++ word ++ ['\n'] = left' ∧ behind = next ++ right' :=
          List.append_inj parts (by simp; omega)
        obtain ⟨rfl, rfl⟩ := cut
        rw [text_eq, stopped] at others
        have forward := others.forward
        simp only [List.length_append, List.length_singleton] at stopped forward
        obtain ⟨lines, right, rfl, stop_eq, matching, ended⟩ :=
          ih _ (by simp only [List.length_append, List.length_singleton]; omega) nextIn others rfl
        refine ⟨next :: lines, right, by simp, ?_, ?_, ended⟩
        · rw [stop_eq]
          simp
          omega
        · intro line member
          rcases List.mem_cons.mp member with rfl | member
          · exact ⟨nextIn.feedless, matchesAlone_iff.mpr ways⟩
          · exact matching line member

/-- A repeated line reads consecutive lines that match alone, and all of each. -/
theorem lines_of_reads_repeated (lineWise : regex.LineWise) {optional : Bool} {text : Array Char}
    {start stop : Nat} (reads : (Outlines.repeated ⟨regex, optional⟩).regex.Reads text start stop) :
    ∃ left word lines right, text = (left ++ (word ++ followed lines) ++ right).toArray ∧
      start = left.length ∧ stop = left.length + (word ++ followed lines).length ∧
      (∀ c, left.getLast? = some c → c = '\n') ∧ (∀ c, right.head? = some c → c = '\n') ∧
      ∀ line ∈ word :: lines, '\n' ∉ line ∧ regex.matchesAlone line = true := by
  -- The first line is read before the rounds begin.
  obtain ⟨middle, first, others⟩ := reads_append.mp reads
  obtain ⟨left, word, right, rfl, line, rfl, rfl, ways⟩ := lineWise.line_of_reads first
  obtain ⟨lines, right, rfl, rfl, matching, ended⟩ := lineWise.lines_of_reads_star line others
  refine ⟨left, word, lines, right, by simp, rfl, by simp [Nat.add_assoc], line.before, ended, ?_⟩
  intro one member
  rcases List.mem_cons.mp member with rfl | member
  · exact ⟨line.feedless, matchesAlone_iff.mpr ways⟩
  · exact matching one member

/-- From a line that matches, a repeated line prefers to read all of the run of matching lines. -/
theorem head?_repeated (lineWise : regex.LineWise) (nameless : regex.groupNames = [])
    {optional : Bool} {lines : List (List Char)} (feedless : ∀ line ∈ lines, '\n' ∉ line)
    (line : LineIn left word (followed lines)) (matching : regex.matchesAlone word = true) :
    ((Outlines.repeated ⟨regex, optional⟩).regex.ways (left ++ word ++ followed lines).toArray
        left.length).head? =
      some (.stay (left.length + word.length +
        (followed (lines.takeWhile regex.matchesAlone)).length)) := by
  -- The first line has a way, and the preferred rounds go on from its end.
  obtain ⟨first, more, alone⟩ := List.exists_cons_of_ne_nil (matchesAlone_iff.mp matching)
  have member : first ∈ regex.ways word.toArray 0 := by simp [alone]
  have whole := lineWise.whole line.feedless first member
  have uncaptured := captures_eq_nil nameless member
  have others := lineWise.head?_star nameless feedless line
  rw [Outlines.repeated, ways_append, lineWise.alone line, alone, List.map_cons,
    Way.head?_chain_cons (by rw [Way.stop_shift, whole]; exact others)]
  simp [Way.after, Way.stay, Way.shift, uncaptured]

end Regex.LineWise

end Gleaner
