import Gleaner.Proofs.Line.Induction
import Gleaner.Proofs.Regex.Language

/-!
# Line boundaries

Where the lines of a text begin and end, and what the patterns of lines have to do with it. The
invariant is `Framed`: a pattern reads nothing at all, or from one line boundary to another. The
pattern of a line has it because of its anchors and the joint between two lines because it reads a
line feed; it is kept by everything that puts such patterns together.
-/

namespace Gleaner

/-- A line begins here: at the start of the text, or behind a line feed. -/
def AtLineStart (text : Array Char) (pos : Nat) : Prop :=
  pos = 0 ∨ text[pos - 1]? = some '\n'

/-- A line ends here: at the end of the text, or before a line feed. -/
def AtLineEnd (text : Array Char) (pos : Nat) : Prop :=
  pos = text.size ∨ text[pos]? = some '\n'

def AtLineBoundary (text : Array Char) (pos : Nat) : Prop :=
  AtLineStart text pos ∨ AtLineEnd text pos

/-- Two places are the same, or both are line boundaries. -/
def Linked (text : Array Char) (start stop : Nat) : Prop :=
  start = stop ∨ AtLineBoundary text start ∧ AtLineBoundary text stop

namespace Linked

variable {text : Array Char} {first second third : Nat}

theorem refl (text : Array Char) (pos : Nat) : Linked text pos pos :=
  Or.inl rfl

theorem trans (linked : Linked text first second) (linked' : Linked text second third) :
    Linked text first third := by
  rcases linked with rfl | ⟨begins, ends⟩
  · exact linked'
  · rcases linked' with rfl | ⟨-, ends'⟩
    · exact Or.inr ⟨begins, ends⟩
    · exact Or.inr ⟨begins, ends'⟩

/-- What is linked to one of two different linked places is a boundary. -/
theorem boundary (linked : Linked text first second) (differ : first ≠ second)
    (linked' : Linked text first third) : AtLineBoundary text third := by
  rcases linked' with rfl | ⟨-, ends⟩
  · rcases linked with same | ⟨begins, -⟩
    · exact absurd same differ
    · exact begins
  · exact ends

end Linked

/-! ### Anchors and joints -/

section Reads

variable {text : Array Char} {start stop : Nat}

private theorem any_lineBreak (c? : Option Char) :
    c?.any CharSet.lineBreak.has = true ↔ c? = some '\n' := by
  cases c? <;> simp [CharSet.has]

theorem reads_lineStart :
    lineStart.Reads text start stop ↔ AtLineStart text start ∧ stop = start := by
  simp only [lineStart, Regex.reads_group, Regex.reads_alt, Regex.reads_textStart,
    Regex.reads_look, any_lineBreak, AtLineStart, Side.neighbour?]
  rw [← or_and_right]
  by_cases zero : start = 0 <;> simp [zero]

theorem reads_lineEnd : lineEnd.Reads text start stop ↔ AtLineEnd text start ∧ stop = start := by
  simp only [lineEnd, Regex.reads_group, Regex.reads_alt, Regex.reads_textEnd, Regex.reads_look,
    any_lineBreak, AtLineEnd, Side.neighbour?]
  rw [← or_and_right]

theorem reads_lineJoint :
    lineJoint.Reads text start stop ↔
      text[start]? = some '\n' ∧ stop = start + 1 ∨ stop = start := by
  simp only [lineJoint, Regex.reads_optional, Regex.reads_char, any_lineBreak]

end Reads

/-! ### Patterns that read from boundary to boundary -/

namespace Regex

/-- The pattern reads nothing, or from a line boundary to a line boundary. -/
structure Framed (regex : Regex) : Prop where
  linked : ∀ {text start stop}, regex.Reads text start stop → Linked text start stop

namespace Framed

variable {first second body : Regex}

theorem empty : Regex.empty.Framed :=
  ⟨fun reads => Or.inl (reads_empty.mp reads).symm⟩

theorem append (framed : first.Framed) (framed' : second.Framed) : (first ++ second).Framed where
  linked both := by
    obtain ⟨middle, reads, reads'⟩ := reads_append.mp both
    exact (framed.linked reads).trans (framed'.linked reads')

theorem group (kind : GroupKind) (framed : body.Framed) : (Regex.group kind body).Framed :=
  ⟨fun reads => framed.linked (reads_group.mp reads)⟩

theorem optional (framed : body.Framed) : (Regex.optional body).Framed where
  linked {text _ stop} reads := by
    rcases reads_optional.mp reads with there | rfl
    · exact framed.linked there
    · exact .refl text stop

theorem star (greed : Greed) (framed : body.Framed) : (Regex.star greed body).Framed where
  linked {text start stop} reads := by
    -- On the text that is left: every round that counts makes it shorter.
    induction left : stop - start using Nat.strong_induction_on generalizing start with
    | _ n ih =>
      rcases reads_star.mp reads with rfl | ⟨middle, round, moved, others⟩
      · exact .refl text stop
      · have forward := others.forward
        exact (framed.linked round).trans (ih (stop - middle) (by omega) others rfl)

end Framed

end Regex

theorem framed_lineJoint : lineJoint.Framed where
  linked {text _ stop} reads := by
    rcases reads_lineJoint.mp reads with ⟨feed, rfl⟩ | rfl
    · exact Or.inr ⟨Or.inr (Or.inr feed), Or.inl (Or.inr feed)⟩
    · exact .refl text stop

/-! ### Lines -/

namespace Line

/-- What the pattern of a line reads between its anchors. -/
def innerRegex (placed : List PlacedToken) : Regex :=
  Regex.concat [margin, PlacedToken.patternOf false placed,
    if placed.isEmpty then .empty else margin]

theorem reads_wholeRegex {placed : List PlacedToken} {text : Array Char} {start stop : Nat} :
    (wholeRegex placed).Reads text start stop ↔
      AtLineStart text start ∧ (innerRegex placed).Reads text start stop ∧
        AtLineEnd text stop := by
  have last : ∀ regex : Regex, Regex.concat [regex] = regex := fun _ => rfl
  -- An anchor reads nothing, and only its assertion is left of it.
  simp only [wholeRegex, innerRegex, Regex.reads_concat_cons, Regex.reads_append, last,
    reads_lineStart, reads_lineEnd]
  constructor
  · rintro ⟨_, ⟨begins, rfl⟩, first, margin, second, tokens, third, margin', ends, rfl⟩
    exact ⟨begins, ⟨first, margin, second, tokens, margin'⟩, ends⟩
  · rintro ⟨begins, ⟨first, margin, second, tokens, margin'⟩, ends⟩
    exact ⟨start, ⟨begins, rfl⟩, first, margin, second, tokens, stop, margin', ends, rfl⟩

theorem framed_pattern (line : Line) (allowCapture : Bool) (start : Nat) :
    (line.pattern allowCapture start).regex.Framed := by
  have whole : ∀ placed, (wholeRegex placed).Framed := by
    refine fun placed => ⟨fun reads => ?_⟩
    obtain ⟨begins, -, ends⟩ := reads_wholeRegex.mp reads
    exact Or.inr ⟨Or.inl begins, Or.inr ends⟩
  simp only [pattern]
  split
  next => exact ((whole _).group _).optional
  next => exact whole _

theorem framed_sequence (allowCapture : Bool) (start : Nat) (lines : List Line) :
    (sequence allowCapture start lines).regex.Framed :=
  sequence_induction .empty .append framed_lineJoint
    (fun line _ start => line.framed_pattern allowCapture start) start

end Line

end Gleaner
