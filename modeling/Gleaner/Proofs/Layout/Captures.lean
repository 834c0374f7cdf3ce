import Gleaner.Layout.Basic
import Gleaner.Proofs.Line.Slots
import Gleaner.Proofs.Regex.Ungrouped

/-!
# Keeping captures does not change what matches

The pattern of a line, of a sequence of lines and of a block exists with and without the groups that
keep what was matched. The two forms are equal once all groups are taken off, so they come to the
same end from every place of every text.
-/

namespace Gleaner

namespace PlacedToken

theorem ungrouped_pattern (placed : PlacedToken) :
    placed.pattern.ungrouped = placed.token.fragment.ungrouped := by
  obtain ⟨token, slot⟩ := placed
  cases slot <;> rfl

theorem ungrouped_bounded {first second : PlacedToken} (same : first.token = second.token)
    (glued : Bool) : (first.bounded glued).ungrouped = (second.bounded glued).ungrouped := by
  simp only [bounded, Regex.ungrouped_concat, List.map_cons, List.map_nil, ungrouped_pattern, same]

/-- Without groups only the tokens count. -/
theorem ungrouped_patternOf {first second : List PlacedToken}
    (same : first.map token = second.map token) (glued : Bool) :
    (patternOf glued first).ungrouped = (patternOf glued second).ungrouped := by
  induction first generalizing second glued with
  | nil =>
    rw [List.map_nil, eq_comm, List.map_eq_nil_iff] at same
    rw [same]
  | cons placed rest ih =>
    obtain ⟨placed', rest', rfl, alike, others⟩ := List.map_eq_cons_iff.mp same.symm
    -- Between two tokens stands the first one's separator, which is a matter of the token as well.
    cases rest with
    | nil =>
      rw [List.map_nil, List.map_eq_nil_iff] at others
      rw [others]
      exact ungrouped_bounded alike.symm glued
    | cons second rest =>
      obtain ⟨second', rest', rfl, -, -⟩ := List.map_eq_cons_iff.mp others
      simp only [patternOf, Regex.ungrouped_concat, List.map_cons, List.map_nil,
        ungrouped_bounded alike.symm, ih others.symm, alike]

end PlacedToken

namespace Line

theorem ungrouped_wholeRegex {first second : List PlacedToken}
    (same : first.map PlacedToken.token = second.map PlacedToken.token) :
    (wholeRegex first).ungrouped = (wholeRegex second).ungrouped := by
  have empty : first.isEmpty = second.isEmpty := by
    rw [← List.isEmpty_map (f := PlacedToken.token), same, List.isEmpty_map]
  simp only [wholeRegex, Regex.ungrouped_concat, List.map_cons, List.map_nil,
    PlacedToken.ungrouped_patternOf same, empty]

theorem ungrouped_pattern (line : Line) (allow allow' : Bool) (start start' : Nat) :
    (line.pattern allow start).regex.ungrouped = (line.pattern allow' start').regex.ungrouped := by
  have whole : (wholeRegex (placeTokens allow start line.tokens)).ungrouped =
      (wholeRegex (placeTokens allow' start' line.tokens)).ungrouped :=
    ungrouped_wholeRegex (by rw [map_token_placeTokens, map_token_placeTokens])
  simp only [pattern]
  split
  next => exact congrArg Regex.optional whole
  next => exact whole

/-- A sequence of lines can be left out if all of its lines can. -/
theorem optional_sequence_eq (allowCapture : Bool) (start : Nat) (lines : List Line) :
    (sequence allowCapture start lines).optional = lines.all Line.optional := by
  induction lines generalizing start with
  | nil => rfl
  | cons line rest ih =>
    cases rest with
    | nil => simp [sequence, pattern]
    | cons second rest =>
      rw [List.all_cons, ← ih]
      rfl

theorem optional_sequence (allow allow' : Bool) (start start' : Nat) (lines : List Line) :
    (sequence allow start lines).optional = (sequence allow' start' lines).optional := by
  rw [optional_sequence_eq, optional_sequence_eq]

theorem ungrouped_sequence (allow allow' : Bool) (start start' : Nat) (lines : List Line) :
    (sequence allow start lines).regex.ungrouped =
      (sequence allow' start' lines).regex.ungrouped := by
  induction lines generalizing start start' with
  | nil => rfl
  | cons line rest ih =>
    cases rest with
    | nil => exact ungrouped_pattern line allow allow' start start'
    | cons second rest =>
      simp only [sequence, Regex.ungrouped_concat, List.map_cons, List.map_nil,
        ungrouped_pattern line allow allow' start start']
      rw [ih]

end Line

theorem Outlines.ungrouped_wrap (keep keep' : Bool) (part : Part) (outline : Outline) :
    (wrap keep part outline).ungrouped = (wrap keep' part outline).ungrouped := by
  simp only [wrap]
  split <;> rfl

theorem Outlines.ungrouped_regex (outlines : Outlines) (keep keep' : Bool) :
    (outlines.regex keep).ungrouped = (outlines.regex keep').ungrouped := by
  obtain ⟨head, body, tail⟩ := outlines
  have alike := ungrouped_wrap keep keep'
  cases head <;> cases tail <;>
    simp only [regex, Regex.ungrouped_concat, List.map_cons, List.map_nil, Regex.ungrouped_append,
      alike]

/-- Two answers of a compilation: the same fault, or two patterns that come to the same end. -/
def LinePattern.Alike : Except Fault LinePattern → Except Fault LinePattern → Prop
  | .error fault, .error fault' => fault = fault'
  | .ok pattern, .ok pattern' =>
    pattern.optional = pattern'.optional ∧ pattern.regex.EndsLike pattern'.regex
  | _, _ => False

private theorem LinePattern.alike_map {α : Type} (parsed : Except Fault α) {f g : α → LinePattern}
    (same : ∀ value, (f value).optional = (g value).optional ∧
      (f value).regex.ungrouped = (g value).regex.ungrouped) :
    Alike (parsed.map f) (parsed.map g) := by
  cases parsed with
  | error fault => rfl
  | ok value => exact ⟨(same value).1, Regex.endsLike_of_ungrouped (same value).2⟩

/-- Lines, sequences of lines and blocks match alike with their captures kept and not kept. -/
theorem captures_change_no_match :
    (∀ texts start start',
      LinePattern.Alike (compileLines texts true start) (compileLines texts false start')) ∧
    (∀ text start start',
      LinePattern.Alike (compileLine text true start) (compileLine text false start')) ∧
    ∀ template : Template, (template.pattern true).EndsLike (template.pattern false) := by
  refine ⟨fun texts start start' => ?_, fun text start start' => ?_, fun template => ?_⟩
  · exact LinePattern.alike_map _ fun lines =>
      ⟨Line.optional_sequence _ _ _ _ lines, Line.ungrouped_sequence _ _ _ _ lines⟩
  · exact LinePattern.alike_map _ fun line => ⟨rfl, Line.ungrouped_pattern line _ _ _ _⟩
  · exact Regex.endsLike_of_ungrouped (Outlines.ungrouped_regex template.outlines true false)

end Gleaner
