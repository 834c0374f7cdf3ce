import Gleaner.Line.Pattern

/-!
# How the patterns of lines are put together

The pattern of a line is a sequence of tokens, word boundaries and gaps between two anchors, and
that of several lines is the sequence of theirs with joints between them. What holds of the parts
and passes to sequences holds of the whole; the lemmas here are the only ones that look at how the
parts are arranged.
-/

namespace Gleaner

section Tokens

variable {motive : Regex → Prop} {placed : List PlacedToken} (empty : motive .empty)
  (append : ∀ {first second}, motive first → motive second → motive (first ++ second))
  (opening : motive WordBoundary.opening) (closing : motive WordBoundary.closing)
  (gap : ∀ spacing : Spacing, motive spacing.separator)
  (token : ∀ one ∈ placed, motive one.pattern)

include empty append opening closing gap token

theorem PlacedToken.patternOf_induction (glued : Bool) : motive (patternOf glued placed) := by
  have boundary (on : Bool) {regex : Regex} (holds : motive regex) :
      motive (if on then regex else .empty) := by
    cases on with
    | false => exact empty
    | true => exact holds
  have bounded (glued : Bool) {one : PlacedToken} (holds : motive one.pattern) :
      motive (one.bounded glued) :=
    append (boundary _ opening) (append holds (boundary _ closing))
  induction placed generalizing glued with
  | nil => exact empty
  | cons first rest ih =>
    obtain ⟨here, others⟩ := List.forall_mem_cons.mp token
    cases rest with
    | nil => exact bounded glued here
    | cons second rest => exact append (bounded glued here) (append (gap _) (ih others _))

theorem Line.wholeRegex_induction (start : motive lineStart) (stop : motive lineEnd) :
    motive (wholeRegex placed) := by
  have tokens := PlacedToken.patternOf_induction empty append opening closing gap token false
  have last : motive (if placed.isEmpty then .empty else margin) := by
    split
    · exact empty
    · exact gap .optional
  exact append start (append (gap .optional) (append tokens (append last stop)))

end Tokens

theorem Line.sequence_induction {motive : Regex → Prop} (empty : motive .empty)
    (append : ∀ {first second}, motive first → motive second → motive (first ++ second))
    (joint : motive lineJoint) {allowCapture : Bool} {lines : List Line}
    (line : ∀ line ∈ lines, ∀ start, motive (line.pattern allowCapture start).regex) (start : Nat) :
    motive (sequence allowCapture start lines).regex := by
  induction lines generalizing start with
  | nil => exact empty
  | cons first rest ih =>
    obtain ⟨here, others⟩ := List.forall_mem_cons.mp line
    cases rest with
    | nil => exact here start
    | cons second rest => exact append (here start) (append joint (ih others _))

end Gleaner
