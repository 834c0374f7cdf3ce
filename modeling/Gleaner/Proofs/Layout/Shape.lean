import Gleaner.Proofs.Layout.Outlines
import Gleaner.Proofs.Line.Boundary
import Gleaner.Proofs.Line.Slots

/-!
# The shape of a block

A match of a block is a head, a joint, the repeated body, another joint and a tail, where head and
tail may be missing. Its captures are those of its three parts and no others, since nothing inside
a part is kept. This is read off the ways of the pattern once, so that later proofs need not look
at the pattern of a block again.
-/

namespace Gleaner

/-! ### Names -/

/-- The parts of a block have no named groups. -/
structure Outlines.Nameless (outlines : Outlines) : Prop where
  head : ∀ head ∈ outlines.head, head.regex.groupNames = []
  body : outlines.body.regex.groupNames = []
  tail : ∀ tail ∈ outlines.tail, tail.regex.groupNames = []

namespace Outlines

theorem groupNames_wrap (keep : Bool) (part : Part) {outline : Outline}
    (nameless : outline.regex.groupNames = []) :
    (wrap keep part outline).groupNames = if keep then [.part part] else [] := by
  simp only [wrap]
  cases keep <;> cases outline.optional <;> simp [Regex.groupNames, GroupKind.name?, nameless]

theorem groupNames_repeated {body : Outline} (nameless : body.regex.groupNames = []) :
    (repeated body).regex.groupNames = [] := by
  have joint : lineJoint.groupNames = [] := rfl
  simp [repeated, Regex.groupNames, GroupKind.name?, nameless, joint]

/-- A block has a named group for each of its parts that is not absent, or no named group. -/
theorem Nameless.groupNames_regex {outlines : Outlines} (nameless : outlines.Nameless)
    (keep : Bool) :
    (outlines.regex keep).groupNames =
      if keep then
        (if outlines.head.isSome then [.part .head] else []) ++ .part .body ::
          (if outlines.tail.isSome then [.part .tail] else [])
      else [] := by
  obtain ⟨head, body, tail⟩ := outlines
  have joint : lineJoint.groupNames = [] := rfl
  have ofBody := groupNames_wrap keep .body (groupNames_repeated nameless.body)
  -- Joints have no names, so the names are those of the parts that are there, in their order.
  cases head with
  | none =>
    cases tail with
    | none => cases keep <;> simpa [regex, Regex.groupNames] using ofBody
    | some tail =>
      have ofTail := groupNames_wrap keep .tail (nameless.tail tail rfl)
      cases keep <;> simp_all [regex, Regex.groupNames]
  | some head =>
    have ofHead := groupNames_wrap keep .head (nameless.head head rfl)
    cases tail with
    | none => cases keep <;> simp_all [regex, Regex.groupNames]
    | some tail =>
      have ofTail := groupNames_wrap keep .tail (nameless.tail tail rfl)
      cases keep <;> simp_all [regex]

end Outlines

/-- No template keeps anything inside the parts of its blocks. -/
theorem Template.nameless (template : Template) : template.outlines.Nameless := by
  obtain ⟨head, body, tail⟩ := template.outlines_induction
    (motive := fun outline => outline.regex.groupNames = [])
    (fun lines => Line.groupNames_sequence_false 0 lines)
    fun outlines head body tail => Outlines.Nameless.groupNames_regex ⟨head, body, tail⟩ false
  exact ⟨head, body, tail⟩

/-! ### Shapes -/

/-- Where a part of a block stands, and what is captured of it. -/
inductive PartAt (text : Array Char) (part : Part) :
    Option Outline → Nat → Nat → Option Capture → Prop where
  | absent (pos : Nat) : PartAt text part none pos pos none
  | skipped {outline : Outline} (optional : outline.optional = true) (pos : Nat) :
    PartAt text part (some outline) pos pos none
  | found {outline : Outline} {start stop : Nat} (reads : outline.regex.Reads text start stop) :
    PartAt text part (some outline) start stop (some ⟨.part part, start, stop⟩)

/-- A joint reads a line feed or nothing; there is none beside a part that is absent. -/
def JointAt (text : Array Char) (outline? : Option Outline) (start stop : Nat) : Prop :=
  stop = start ∨ outline?.isSome ∧ text[start]? = some '\n' ∧ stop = start + 1

/-- A match of a block. -/
inductive BlockAt (outlines : Outlines) (text : Array Char) (start stop : Nat)
    (captures : List Capture) : Prop where
  | intro (headStop bodyStart bodyStop tailStart : Nat) (head? tail? : Option Capture)
    (head : PartAt text .head outlines.head start headStop head?)
    (joint : JointAt text outlines.head headStop bodyStart)
    (body : (Outlines.repeated outlines.body).regex.Reads text bodyStart bodyStop)
    (joint' : JointAt text outlines.tail bodyStop tailStart)
    (tail : PartAt text .tail outlines.tail tailStart stop tail?)
    (captures_eq : captures =
      tail?.toList ++ ⟨.part .body, bodyStart, bodyStop⟩ :: head?.toList)

namespace Outlines

private theorem reads_of_mem_named {text : Array Char} {name : GroupName} {regex : Regex}
    (nameless : regex.groupNames = []) {pos : Nat} {way : Way}
    (member : way ∈ (Regex.group (.named name) regex).ways text pos) :
    regex.Reads text pos way.stop ∧ way.captures = [⟨name, pos, way.stop⟩] := by
  obtain ⟨inner, inBody, rfl⟩ := List.mem_map.mp member
  refine ⟨⟨inner, inBody, rfl⟩, ?_⟩
  simp [Way.closing, Regex.captures_eq_nil nameless inBody]

private theorem partAt_of_mem {text : Array Char} {part : Part} {outline : Outline}
    (nameless : outline.regex.groupNames = []) {pos : Nat} {way : Way}
    (member : way ∈ (wrap true part outline).ways text pos) :
    ∃ capture?, PartAt text part (some outline) pos way.stop capture? ∧
      way.captures = capture?.toList := by
  simp only [wrap] at member
  split at member
  next optional =>
    -- An optional part has the ways through it and, last of all, the one that skips it.
    rcases List.mem_append.mp member with there | gone
    · obtain ⟨reads, captured⟩ := reads_of_mem_named nameless there
      exact ⟨_, .found reads, captured⟩
    · rw [List.mem_singleton.mp gone]
      exact ⟨none, .skipped optional pos, rfl⟩
  next =>
    obtain ⟨reads, captured⟩ := reads_of_mem_named nameless member
    exact ⟨_, .found reads, captured⟩

private theorem jointAt_of_mem {text : Array Char} {outline : Outline} {pos : Nat} {way : Way}
    (member : way ∈ lineJoint.ways text pos) :
    JointAt text (some outline) pos way.stop ∧ way.captures = [] := by
  refine ⟨?_, Regex.captures_eq_nil rfl member⟩
  rcases reads_lineJoint.mp ⟨way, member, rfl⟩ with ⟨feed, stop⟩ | stop
  · exact Or.inr ⟨rfl, feed, stop⟩
  · exact Or.inl stop

/-- Every way of a block's pattern has the shape of a block. -/
theorem Nameless.blockAt {outlines : Outlines} (nameless : outlines.Nameless) {text : Array Char}
    {start : Nat} {way : Way} (member : way ∈ (outlines.regex true).ways text start) :
    BlockAt outlines text start way.stop way.captures := by
  obtain ⟨head, body, tail⟩ := outlines
  simp only [regex, Regex.ways_concat_cons] at member
  obtain ⟨first, inHead, _, others, rfl⟩ := Way.mem_chain.mp member
  obtain ⟨second, inBody, third, inTail, rfl⟩ := Way.mem_chain.mp others
  -- The way is a head with its joint, the body, and a tail with its joint, one behind the other.
  obtain ⟨bodyReads, bodyCaptures⟩ := reads_of_mem_named (groupNames_repeated nameless.body) inBody
  have headAt : ∃ headStop head?, PartAt text .head head start headStop head? ∧
      JointAt text head headStop first.stop ∧ first.captures = head?.toList := by
    cases head with
    | none =>
      rw [List.mem_singleton.mp inHead]
      exact ⟨start, none, .absent start, Or.inl rfl, rfl⟩
    | some outline =>
      obtain ⟨begun, inWrap, gone, inJoint, rfl⟩ := Way.mem_chain.mp inHead
      obtain ⟨head?, at_, captured⟩ := partAt_of_mem (nameless.head outline rfl) inWrap
      obtain ⟨joint, none⟩ := jointAt_of_mem inJoint
      exact ⟨begun.stop, head?, at_, joint, by simp [Way.after, captured, none]⟩
  have tailAt : ∃ tailStart tail?, JointAt text tail second.stop tailStart ∧
      PartAt text .tail tail tailStart third.stop tail? ∧ third.captures = tail?.toList := by
    cases tail with
    | none =>
      rw [List.mem_singleton.mp inTail]
      exact ⟨second.stop, none, Or.inl rfl, .absent _, rfl⟩
    | some outline =>
      obtain ⟨begun, inJoint, gone, inWrap, rfl⟩ := Way.mem_chain.mp inTail
      obtain ⟨joint, none⟩ := jointAt_of_mem inJoint
      obtain ⟨tail?, at_, captured⟩ := partAt_of_mem (nameless.tail outline rfl) inWrap
      exact ⟨begun.stop, tail?, joint, at_, by simp [Way.after, captured, none]⟩
  obtain ⟨headStop, head?, headAt, joint, headCaptures⟩ := headAt
  obtain ⟨tailStart, tail?, joint', tailAt, tailCaptures⟩ := tailAt
  refine .intro headStop first.stop second.stop tailStart head? tail? headAt joint bodyReads joint'
    tailAt ?_
  simp [Way.after, headCaptures, bodyCaptures, tailCaptures]

end Outlines

end Gleaner
