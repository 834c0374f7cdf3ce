import Gleaner.Proofs.Line.Boundary

/-!
# A line alone

Inside one physical line, a pattern that reads no line feeds cannot tell the rest of the text from
nothing at all: before and behind the line there is a line feed or the end of the text, and the only
things it asks about its neighbours are answered alike by both. So its ways in the text are its ways
in the line taken alone, moved to where the line stands, in the same order and with the same
captures.
-/

namespace Gleaner

/-! ### Moving ways -/

/-- A capture in a text that stands behind `offset` other characters. -/
def Capture.shift (offset : Nat) (capture : Capture) : Capture :=
  ⟨capture.name, offset + capture.start, offset + capture.stop⟩

namespace Way

/-- A way in a text that stands behind `offset` other characters. -/
def shift (offset : Nat) (way : Way) : Way :=
  ⟨offset + way.stop, way.captures.map (Capture.shift offset)⟩

@[simp] theorem shift_stay (offset pos : Nat) : (stay pos).shift offset = stay (offset + pos) := rfl

@[simp] theorem stop_shift (offset : Nat) (way : Way) :
    (way.shift offset).stop = offset + way.stop := rfl

theorem shift_after (offset : Nat) (first second : Way) :
    (first.after second).shift offset = (first.shift offset).after (second.shift offset) := by
  simp [shift, after]

theorem shift_closing (offset : Nat) (name : GroupName) (start : Nat) (way : Way) :
    (way.closing name start).shift offset = (way.shift offset).closing name (offset + start) := rfl

theorem map_shift_chain {offset : Nat} {first : List Way} {rest rest' : Nat → List Way}
    (same : ∀ way ∈ first, rest' (offset + way.stop) = (rest way.stop).map (shift offset)) :
    (chain first rest).map (shift offset) = chain (first.map (shift offset)) rest' := by
  induction first with
  | nil => rfl
  | cons way ways ih =>
    rw [chain_cons, List.map_append, ih fun other member => same other (List.mem_cons_of_mem _ member),
      List.map_cons, chain_cons, stop_shift, same way List.mem_cons_self]
    congr 1
    rw [List.map_map, List.map_map]
    exact List.map_congr_left fun next _ => shift_after offset way next

theorem filter_map_shift (offset pos : Nat) (ways : List Way) :
    (ways.map (shift offset)).filter (fun way => way.stop ≠ offset + pos) =
      (ways.filter fun way => way.stop ≠ pos).map (shift offset) := by
  rw [List.filter_map]
  congr 1
  apply List.filter_congr
  intro way _
  simp

end Way

theorem Greed.map_shift_order (greed : Greed) (offset : Nat) (more : List Way) (here : Way) :
    (greed.order more here).map (Way.shift offset) =
      greed.order (more.map (Way.shift offset)) (here.shift offset) := by
  cases greed <;> simp [order]

/-! ### Patterns that stay in a line -/

/-- A piece of text that is a whole line between what stands before and behind it. -/
structure LineIn (left word right : List Char) : Prop where
  before : ∀ c, left.getLast? = some c → c = '\n'
  feedless : '\n' ∉ word
  behind : ∀ c, right.head? = some c → c = '\n'

namespace Regex

/-- The pattern reads no line feed, and asks of its neighbours only not to be of a kind that no
line feed is of. -/
def inLine : Regex → Bool
  | empty => true
  | char set => !set.has '\n'
  | look _ wanted set => !wanted && !set.has '\n'
  | textStart | textEnd => false
  | seq first second | alt first second => first.inLine && second.inLine
  | optional body | star _ body | plus _ body | group _ body => body.inLine

@[simp] theorem inLine_append (first second : Regex) :
    (first ++ second).inLine = (first.inLine && second.inLine) := rfl

@[simp] theorem inLine_concat (parts : List Regex) :
    (concat parts).inLine = parts.all inLine := by
  induction parts with
  | nil => rfl
  | cons first rest ih =>
    cases rest with
    | nil => simp [concat]
    | cons second rest => exact congrArg (first.inLine && ·) ih

end Regex

section Alone

variable {left word right : List Char}

private theorem getElem?_line (left word right : List Char) {i : Nat} (inside : i < word.length) :
    (left ++ word ++ right).toArray[left.length + i]? = word.toArray[i]? := by
  simp [List.getElem?_append, inside]

/-- What stands behind a line is as good as nothing for a set without the line feed. -/
private theorem any_behind (line : LineIn left word right) {set : CharSet}
    (other : set.has '\n' = false) :
    (left ++ word ++ right).toArray[left.length + word.length]?.any set.has = false := by
  have behind : (left ++ word ++ right).toArray[left.length + word.length]? = right.head? := by
    cases right <;> simp
  rw [behind]
  cases next : right.head? with
  | none => rfl
  | some c =>
    rw [line.behind c next]
    exact other

private theorem any_before (line : LineIn left word right) {set : CharSet}
    (other : set.has '\n' = false) :
    (Side.before.neighbour? (left ++ word ++ right).toArray left.length).any set.has = false := by
  rcases List.eq_nil_or_concat left with rfl | ⟨before, last, rfl⟩
  · rfl
  · have feed : last = '\n' := line.before last (by simp)
    simp [Side.neighbour?, feed, other]

private theorem any_neighbour (line : LineIn left word right) {set : CharSet}
    (other : set.has '\n' = false) (side : Side) {i : Nat} (inside : i ≤ word.length) :
    (side.neighbour? (left ++ word ++ right).toArray (left.length + i)).any set.has =
      (side.neighbour? word.toArray i).any set.has := by
  cases side with
  | before =>
    cases i with
    | zero => exact any_before line other
    | succ i =>
      -- Behind its first character the line itself gives the neighbour.
      have same := getElem?_line left word right (i := i) (by omega)
      simp only [Side.neighbour?, Nat.add_one_ne_zero, if_false, Nat.add_sub_cancel,
        ← Nat.add_assoc, same]
  | after =>
    simp only [Side.neighbour?]
    by_cases last : i = word.length
    -- At the end of the line there is nothing, or a line feed, which is not in the set.
    · subst last
      rw [any_behind line other]
      simp
    · rw [getElem?_line left word right (by omega)]

private theorem ways_alone_star (greed : Greed) {body : Regex}
    (alone : ∀ {i}, i ≤ word.length →
      body.ways (left ++ word ++ right).toArray (left.length + i) =
        (body.ways word.toArray i).map (Way.shift left.length)) {i : Nat} (inside : i ≤ word.length) :
    (Regex.star greed body).ways (left ++ word ++ right).toArray (left.length + i) =
      ((Regex.star greed body).ways word.toArray i).map (Way.shift left.length) := by
  -- On the characters of the line that are left.
  induction rest : word.length - i using Nat.strong_induction_on generalizing i with
  | _ n ih =>
    rw [Regex.ways_star, Regex.ways_star word.toArray, Greed.map_shift_order, Way.shift_stay,
      alone inside, Way.filter_map_shift]
    congr 1
    refine (Way.map_shift_chain fun way member => ?_).symm
    obtain ⟨inBody, moved⟩ := List.mem_filter.mp member
    have within := Regex.within_ways word.toArray body i way inBody
    have moved : way.stop ≠ i := by simpa using moved
    have bound : i < way.stop ∧ way.stop ≤ word.length := by
      rcases within with ⟨forward, same | bound⟩
      · exact absurd same moved
      · exact ⟨by omega, by simpa using bound⟩
    exact ih (word.length - way.stop) (by omega) bound.2 rfl

/-- The ways of a pattern in a line are its ways in the line taken alone. -/
theorem Regex.ways_alone (line : LineIn left word right) {regex : Regex}
    (inLine : regex.inLine = true) {i : Nat} (inside : i ≤ word.length) :
    regex.ways (left ++ word ++ right).toArray (left.length + i) =
      (regex.ways word.toArray i).map (Way.shift left.length) := by
  have bound : ∀ {regex : Regex} {i : Nat}, i ≤ word.length →
      ∀ way ∈ regex.ways word.toArray i, way.stop ≤ word.length := by
    intro regex i inside way member
    rcases (within_ways word.toArray regex i way member).2 with same | bound
    · omega
    · simpa using bound
  induction regex generalizing i with
  | empty => rfl
  | textStart | textEnd => cases inLine
  | char set =>
    simp only [Regex.inLine, Bool.not_eq_true'] at inLine
    simp only [ways]
    -- At its end the line is followed by a line feed in the text and by nothing when it is alone.
    by_cases last : i = word.length
    · subst last
      rw [any_behind line inLine]
      simp
    · rw [getElem?_line left word right (by omega)]
      split <;> simp [Nat.add_assoc]
  | look side wanted set =>
    simp only [Regex.inLine, Bool.and_eq_true, Bool.not_eq_true'] at inLine
    simp only [ways, any_neighbour line inLine.2 side inside]
    split <;> simp
  | seq first second ih ih' =>
    simp only [Regex.inLine, Bool.and_eq_true] at inLine
    change Way.chain _ _ = List.map _ (Way.chain _ _)
    -- The first part ends inside the line, where the second begins.
    rw [ih inLine.1 inside]
    exact (Way.map_shift_chain fun way member => ih' inLine.2 (bound inside way member)).symm
  | alt first second ih ih' =>
    simp only [Regex.inLine, Bool.and_eq_true] at inLine
    simp only [ways, ih inLine.1 inside, ih' inLine.2 inside, List.map_append]
  | optional body ih =>
    simp only [ways, ih inLine inside, List.map_append, List.map_cons, List.map_nil, Way.shift_stay]
  | star greed body ih => exact ways_alone_star greed (ih inLine) inside
  | plus greed body ih =>
    rw [ways_plus, ways_plus, ih inLine inside]
    exact (Way.map_shift_chain fun way member =>
      ways_alone_star greed (ih inLine) (bound inside way member)).symm
  | group kind body ih =>
    cases kind with
    | plain | bundle => exact ih inLine inside
    | named name =>
      simp only [ways, ih inLine inside, List.map_map]
      exact List.map_congr_left fun way _ => (Way.shift_closing left.length name i way).symm

/-! ### Whole lines -/

private theorem ways_lineStart (line : LineIn left word right) :
    lineStart.ways (left ++ word ++ right).toArray left.length = [.stay left.length] := by
  rcases List.eq_nil_or_concat left with rfl | ⟨before, last, rfl⟩
  · simp [lineStart, Regex.ways, Side.neighbour?]
  · have feed : last = '\n' := line.before last (by simp)
    simp [lineStart, Regex.ways, Side.neighbour?, feed, CharSet.has]

private theorem ways_lineEnd_last (line : LineIn left word right) :
    lineEnd.ways (left ++ word ++ right).toArray (left.length + word.length) =
      [.stay (left.length + word.length)] := by
  cases right with
  | nil => simp [lineEnd, Regex.ways, Side.neighbour?]
  | cons next rest =>
    have feed : next = '\n' := line.behind next rfl
    simp [lineEnd, Regex.ways, Side.neighbour?, feed, CharSet.has]

private theorem ways_lineEnd_inside (line : LineIn left word right) {i : Nat}
    (inside : i < word.length) :
    lineEnd.ways (left ++ word ++ right).toArray (left.length + i) = [] := by
  refine Regex.ways_eq_nil_iff.mpr fun stop reads => ?_
  rcases (reads_lineEnd.mp reads).1 with ended | feed
  · simp only [List.size_toArray, List.length_append] at ended
    omega
  · rw [getElem?_line left word right inside, List.getElem?_toArray] at feed
    exact line.feedless (List.mem_of_getElem? feed)

theorem LineIn.alone (line : LineIn left word right) : LineIn [] word [] :=
  ⟨by simp, line.feedless, by simp⟩

private theorem ways_lineEnd (line : LineIn left word right) {i : Nat} (inside : i ≤ word.length) :
    lineEnd.ways (left ++ word ++ right).toArray (left.length + i) =
      (lineEnd.ways word.toArray i).map (Way.shift left.length) := by
  -- The line taken alone is a line, too, so both sides are answered by the same lemmas.
  have last := ways_lineEnd_last line.alone
  have early := ways_lineEnd_inside line.alone (i := i)
  simp only [List.nil_append, List.append_nil, List.length_nil, Nat.zero_add] at last early
  by_cases ended : i = word.length
  · subst ended
    rw [ways_lineEnd_last line, last]
    rfl
  · rw [ways_lineEnd_inside line (by omega), early (by omega)]
    rfl

namespace Line

theorem ways_wholeRegex (placed : List PlacedToken) (text : Array Char) (pos : Nat) :
    (wholeRegex placed).ways text pos =
      Way.chain (lineStart.ways text pos) fun start =>
        Way.chain ((innerRegex placed).ways text start) (lineEnd.ways text) := by
  have inner : ∀ start, (innerRegex placed).ways text start =
      Way.chain (margin.ways text start) fun pos =>
        Way.chain ((PlacedToken.patternOf false placed).ways text pos)
          ((if placed.isEmpty then .empty else margin : Regex).ways text) := fun _ => rfl
  simp only [inner, Way.chain_assoc]
  rfl

/-- The ways of a whole line are its ways when it is taken alone. -/
theorem ways_alone (line : LineIn left word right) {placed : List PlacedToken}
    (inLine : (innerRegex placed).inLine = true) :
    (wholeRegex placed).ways (left ++ word ++ right).toArray left.length =
      ((wholeRegex placed).ways word.toArray 0).map (Way.shift left.length) := by
  have start := ways_lineStart line.alone
  simp only [List.nil_append, List.append_nil, List.length_nil] at start
  rw [ways_wholeRegex, ways_wholeRegex, ways_lineStart line, start, Way.chain_stay, Way.chain_stay,
    ← Nat.add_zero left.length, Regex.ways_alone line inLine (Nat.zero_le _)]
  -- A way never leaves the line, so the end of the line can be looked at from inside.
  refine (Way.map_shift_chain fun way member => ways_lineEnd line ?_).symm
  rcases (Regex.within_ways word.toArray _ 0 way member).2 with same | bound
  · omega
  · simpa using bound

end Line

end Alone

end Gleaner
