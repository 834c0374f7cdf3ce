import Gleaner.Proofs.Numeral
import Gleaner.Proofs.Regex.Running
import Mathlib.Order.CompletePartialOrder

/-!
# Telling numerals apart

A pattern of numerals, put between the two ends of a text, matches the numerals of its kind and sign
and no other text. Among integers, floats and scientific numerals the kind can be told from the text:
an exponent has its mark, a float has a point and no mark, an integer has neither. The sign can be
told as well, since no magnitude begins with `-`. So no text is a numeral of two of these kinds, and
those of any sign fall into the positive and the negative ones.
-/

namespace Gleaner

/-- The pattern between the start and the end of a text, which it has to match as a whole. -/
def Regex.anchored (regex : Regex) : Regex :=
  .concat [.textStart, .group .bundle regex, .textEnd]

/-- An anchored pattern matches the texts of its language. -/
theorem Regex.Denotes.matchesAt_anchored {regex : Regex} {language : Language Char}
    (denotes : regex.Denotes language) (word : List Char) :
    regex.anchored.MatchesAt word.toArray 0 ↔ word ∈ language := by
  have last : Regex.concat [Regex.textEnd] = Regex.textEnd := rfl
  -- Alone, the pattern reads the text from end to end, which is what its language says.
  have whole : regex.Reads word.toArray 0 word.length ↔ word ∈ language := by
    simpa [Regex.Spans] using denotes [] word []
  rw [Regex.matchesAt_iff, Regex.ways_ne_nil_iff, ← whole]
  simp only [anchored, Regex.reads_concat_cons, Regex.reads_append, last, Regex.reads_textStart,
    Regex.reads_group, Regex.reads_textEnd, List.size_toArray]
  constructor
  · rintro ⟨_, _, ⟨-, rfl⟩, _, reads, rfl, rfl⟩
    exact reads
  · intro reads
    exact ⟨word.length, 0, ⟨trivial, rfl⟩, word.length, reads, rfl, rfl⟩

namespace Numeral

/-! ### Kinds -/

/-- The letters that mark an exponent. -/
def isMark (c : Char) : Bool :=
  c ∈ ['d', 'e', 'D', 'E']

/-- The kind of a numeral, told by its mark and its point. -/
def kindOf (word : List Char) : NumberKind :=
  if word.any isMark then .scientific else if word.contains '.' then .float else .integer

/-- A text without marks and points. -/
private structure Bare (word : List Char) : Prop where
  unmarked : word.any isMark = false
  pointless : '.' ∉ word

private theorem Bare.append {first second : List Char} (bare : Bare first) (bare' : Bare second) :
    Bare (first ++ second) where
  unmarked := by rw [List.any_append, bare.unmarked, bare'.unmarked, Bool.or_false]
  pointless member := (List.mem_append.mp member).elim bare.pointless bare'.pointless

private theorem bare_digits {word : List Char} (digits : word ∈ CharSet.digit.run) : Bare word where
  unmarked := by
    rw [List.any_eq_false]
    intro c member marked
    have digit := digits c member
    simp only [isMark, List.mem_cons, List.not_mem_nil, or_false, decide_eq_true_eq] at marked
    rcases marked with rfl | rfl | rfl | rfl <;> cases digit
  pointless member := nomatch digits '.' member

private theorem bare_sign {sign : Sign} {word : List Char} (signed : word ∈ sign.language) :
    Bare word := by
  rcases sign_cases signed with rfl | rfl | rfl
  · exact ⟨rfl, by simp⟩
  · exact ⟨rfl, by simp⟩
  · exact ⟨rfl, by simp⟩

theorem kindOf_integer {sign : Sign} {word : List Char} (member : word ∈ language .integer sign) :
    kindOf word = .integer := by
  obtain ⟨lead, signed, digits, run, rfl⟩ := member
  have bare := (bare_sign signed).append (bare_digits run.2)
  simp [kindOf, bare.unmarked, bare.pointless]

theorem kindOf_float {sign : Sign} {word : List Char} (member : word ∈ language .float sign) :
    kindOf word = .float := by
  obtain ⟨lead, signed, _, ⟨whole, fraction, rfl, digits, digits', -⟩, rfl⟩ := member
  have unmarked : (lead ++ (whole ++ '.' :: fraction)).any isMark = false := by
    rw [List.any_append, List.any_append, List.any_cons, (bare_sign signed).unmarked,
      (bare_digits digits).unmarked, (bare_digits digits').unmarked]
    rfl
  simp [kindOf, unmarked]

theorem kindOf_scientific {sign : Sign} {word : List Char}
    (member : word ∈ language .scientific sign) : kindOf word = .scientific := by
  obtain ⟨lead, -, _, ⟨mantissa, mark, sign, digits, rfl, -, marked, -⟩, rfl⟩ := member
  have found : (lead ++ (mantissa ++ mark :: (sign ++ digits))).any isMark = true :=
    List.any_eq_true.mpr ⟨mark, by simp, decide_eq_true marked⟩
  exact if_pos found

/-- Texts whose kinds are told to be different are different. -/
private theorem disjoint_of_kindOf {first second : Language Char} {kind kind' : NumberKind}
    (differ : kind ≠ kind') (told : ∀ word ∈ first, kindOf word = kind)
    (told' : ∀ word ∈ second, kindOf word = kind') : Disjoint first second := by
  apply Set.disjoint_left.mpr
  intro word member member'
  exact differ ((told word member).symm.trans (told' word member'))

/-! ### Signs -/

private theorem not_minus_mantissa {rest : List Char} :
    ¬('-' :: rest ∈ integers ∨ '-' :: rest ∈ floats) := by
  rintro (⟨-, digits⟩ | ⟨whole, fraction, same, digits, -⟩)
  · cases digits '-' List.mem_cons_self
  · cases whole with
    | nil => simp at same
    | cons c whole =>
      rw [List.cons_append, List.cons.injEq] at same
      cases same.1 ▸ digits c List.mem_cons_self

/-- No magnitude begins with a sign. -/
theorem not_minus_magnitude {kind : NumberKind} {rest : List Char} :
    '-' :: rest ∉ magnitudes kind := by
  intro member
  rcases magnitude_cases member with mantissa | ⟨mantissa, mark, sign, digits, same, some, -⟩
  · exact not_minus_mantissa mantissa
  · cases mantissa with
    | nil =>
      -- There is always a digit or a point before the mark.
      rcases some with ⟨some, -⟩ | ⟨whole, fraction, none, -⟩
      · exact some rfl
      · simp at none
    | cons c mantissa =>
      rw [List.cons_append, List.cons.injEq] at same
      rw [← same.1] at some
      exact not_minus_mantissa some

theorem disjoint_positive_negative (kind : NumberKind) :
    Disjoint (language kind .positive) (language kind .negative) := by
  apply Set.disjoint_left.mpr
  rintro word ⟨lead, signed, magnitude, sized, rfl⟩ ⟨_, rfl, magnitude', -, same⟩
  change '-' :: magnitude' = lead ++ magnitude at same
  -- The text begins with `-`, which is neither the positive sign nor the start of a magnitude.
  rcases signed with rfl | rfl
  · rw [← show '-' :: magnitude' = magnitude from same] at sized
    exact not_minus_magnitude sized
  · simp at same

/-- Every sign is one of the two. -/
theorem language_any (kind : NumberKind) :
    language kind .any = language kind .positive + language kind .negative := by
  have signs : Sign.any.language = Sign.positive.language + Sign.negative.language := by
    ext word
    change word = [] ∨ word = ['+'] ∨ word = ['-'] ↔ (word = [] ∨ word = ['+']) ∨ word = ['-']
    exact or_assoc.symm
  rw [language, signs, add_mul]
  rfl

/-- The patterns of numerals match the numerals as they are defined without patterns, each text has
one kind, and the sign of a numeral is positive or negative and not both. -/
theorem pattern_matches_exactly :
    (∀ kind sign word, (pattern kind sign).anchored.MatchesAt word.toArray 0 ↔
      ∃ lead magnitude, word = lead ++ magnitude ∧ lead ∈ sign.language ∧
        magnitude ∈ magnitudes kind) ∧
    (∀ sign sign',
      Disjoint (language .integer sign) (language .float sign') ∧
      Disjoint (language .integer sign) (language .scientific sign') ∧
      Disjoint (language .float sign) (language .scientific sign')) ∧
    ∀ kind, language kind .any = language kind .positive + language kind .negative ∧
      Disjoint (language kind .positive) (language kind .negative) := by
  refine ⟨fun kind sign word => ?_, fun sign sign' => ?_, fun kind => ?_⟩
  -- A numeral is split into its sign and its magnitude.
  · rw [(pattern_denotes kind sign).matchesAt_anchored, language, Language.mem_mul]
    constructor
    · rintro ⟨lead, signed, magnitude, sized, rfl⟩
      exact ⟨lead, magnitude, rfl, signed, sized⟩
    · rintro ⟨lead, magnitude, rfl, signed, sized⟩
      exact ⟨lead, signed, magnitude, sized, rfl⟩
  -- The kind of a text can be told from its characters, so it has one kind at most.
  · exact ⟨disjoint_of_kindOf (by decide) (fun _ => kindOf_integer) fun _ => kindOf_float,
      disjoint_of_kindOf (by decide) (fun _ => kindOf_integer) fun _ => kindOf_scientific,
      disjoint_of_kindOf (by decide) (fun _ => kindOf_float) fun _ => kindOf_scientific⟩
  · exact ⟨language_any kind, disjoint_positive_negative kind⟩

end Numeral

end Gleaner
