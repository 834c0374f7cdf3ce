import Gleaner.Proofs.Numeral
import Gleaner.Token.Pattern

/-!
# The language of a token

What each kind of token stands for, in words of the text alone: any part of a line, a given text,
a word, a numeral, and repetitions of these. `Token.fragment_denotes` says that the pattern of a
token reads exactly these texts, wherever they stand.
-/

open scoped Computability

namespace Gleaner

/-- Spaces and tabs, any number of them. -/
def gaps : Language Char :=
  {word | ∀ c ∈ word, c = ' ' ∨ c = '\t'}

/-- Spaces and tabs, at least one of them. -/
def someGaps : Language Char :=
  {word | word ≠ [] ∧ word ∈ gaps}

def Spacing.language : Spacing → Language Char
  | required => someGaps
  | optional => gaps
  | prohibited => {[]}

/-- Words of any content: nothing in them is a space, a tab or a line feed. -/
def words : Language Char :=
  {word | word ≠ [] ∧ ∀ c ∈ word, c ≠ ' ' ∧ c ≠ '\t' ∧ c ≠ '\n'}

/-- The texts that a token stands for. A word repeated without a gap is a word again. -/
def Token.language : Token → Language Char
  | optionalLine => {[]}
  | anything _ => {word | '\n' ∉ word}
  | literal flags first rest =>
    match flags.quantity with
    | .single => {first :: rest}
    | .oneOrMore => {first :: rest} * {first :: rest}∗
  | misc _ => words
  | number flags sign kind =>
    match flags.quantity with
    | .single => Numeral.language kind sign
    | .oneOrMore => Numeral.language kind sign * (someGaps * Numeral.language kind sign)∗

/-! ### Gaps -/

private theorem has_gap {c : Char} : CharSet.gap.has c = true ↔ c = ' ' ∨ c = '\t' := by
  simp [CharSet.gap]

private theorem has_wordChar {c : Char} :
    CharSet.wordChar.has c = true ↔ c ≠ ' ' ∧ c ≠ '\t' ∧ c ≠ '\n' := by
  rw [CharSet.wordChar, CharSet.has_noneOf]
  simp only [List.forall_mem_cons, CharRange.has_only, List.not_mem_nil, false_imp_iff,
    implies_true, and_true, ne_eq]

theorem Spacing.separator_denotes (spacing : Spacing) :
    spacing.separator.Denotes spacing.language := by
  have runs : ∀ word, word ∈ CharSet.gap.run ↔ word ∈ gaps := fun word =>
    forall₂_congr fun _ _ => has_gap
  cases spacing with
  | required =>
    exact (Regex.Denotes.plus_char _ _).congr fun word => and_congr Iff.rfl (runs word)
  | optional => exact (Regex.Denotes.star_char _ _).congr runs
  | prohibited => exact Regex.Denotes.empty

/-! ### Fragments -/

/-- Words without gaps between them are one word. -/
private theorem words_mul_kstar (word : List Char) : word ∈ words * words∗ ↔ word ∈ words := by
  constructor
  · rintro ⟨first, ⟨some, held⟩, _, ⟨others, rfl, members⟩, rfl⟩
    refine ⟨by simp [some], fun c member => ?_⟩
    rcases List.mem_append.mp member with inFirst | inOthers
    · exact held c inFirst
    · obtain ⟨other, isOther, inOther⟩ := List.mem_flatten.mp inOthers
      exact (members other isOther).2 c inOther
  · intro member
    exact ⟨word, member, [], Language.nil_mem_kstar words, List.append_nil word⟩

private theorem wordPattern_denotes : Token.wordPattern.Denotes words :=
  (Regex.Denotes.plus_char _ _).congr fun _ =>
    and_congr Iff.rfl (forall₂_congr fun _ _ => has_wordChar)

namespace Token

theorem fragment_denotes (token : Token) : token.fragment.Denotes token.language := by
  -- One case for each content, and one for each quantity where there is a choice.
  cases token with
  | optionalLine => exact Regex.Denotes.empty
  | anything capture =>
    refine (Regex.Denotes.star_char _ _).congr fun word => ?_
    change (∀ c ∈ word, (c != '\n') = true) ↔ '\n' ∉ word
    simp [List.forall_mem_ne']
  | literal flags first rest =>
    have once := Regex.Denotes.literal (first :: rest)
    simp only [fragment, language]
    cases flags.quantity with
    | single => exact once
    | oneOrMore => exact (once.group _).plus _
  | misc flags =>
    simp only [fragment, language]
    cases flags.quantity with
    | single => exact wordPattern_denotes
    | oneOrMore => exact ((wordPattern_denotes.group _).plus _).congr words_mul_kstar
  | number flags sign kind =>
    have once := Numeral.pattern_denotes kind sign
    simp only [fragment, language]
    cases flags.quantity with
    | single => exact once
    | oneOrMore =>
      -- Each further numeral comes behind a gap.
      have more := (Spacing.separator_denotes .required).append once
      exact once.append ((more.group _).star _)

end Token

theorem PlacedToken.pattern_denotes (placed : PlacedToken) :
    placed.pattern.Denotes placed.token.language := by
  unfold pattern
  split
  next => exact placed.token.fragment_denotes
  next => exact placed.token.fragment_denotes.group _

end Gleaner
