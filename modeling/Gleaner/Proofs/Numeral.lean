import Gleaner.Numeral
import Gleaner.Proofs.Regex.Language

/-!
# The language of a numeral

What a written number is, without reference to a pattern: a sign part and a magnitude, which is
digits, digits with one point among or around them, or one of these with an exponent.
`Numeral.pattern_denotes` says that the patterns read exactly these texts, wherever they stand.
-/

namespace Gleaner

/-- The sign parts that a numeral may have. -/
def Sign.language : Sign → Language Char
  | positive => {word | word = [] ∨ word = ['+']}
  | negative => {word | word = ['-']}
  | any => {word | word = [] ∨ word = ['+'] ∨ word = ['-']}

namespace Numeral

/-- Digits alone. -/
def integers : Language Char :=
  CharSet.digit.someRun

/-- Digits around one point, on at least one of its sides. -/
def floats : Language Char :=
  {word | ∃ whole fraction, word = whole ++ '.' :: fraction ∧ whole ∈ CharSet.digit.run ∧
    fraction ∈ CharSet.digit.run ∧ (whole ≠ [] ∨ fraction ≠ [])}

/-- A magnitude without an exponent, and an exponent behind its mark. -/
def scientifics : Language Char :=
  {word | ∃ mantissa mark sign digits, word = mantissa ++ mark :: (sign ++ digits) ∧
    (mantissa ∈ integers ∨ mantissa ∈ floats) ∧ mark ∈ ['d', 'e', 'D', 'E'] ∧
    sign ∈ Sign.any.language ∧ digits ∈ integers}

/-- The magnitudes of a kind. -/
def magnitudes : NumberKind → Language Char
  | .integer => integers
  | .float => floats
  | .scientific => scientifics
  | .decimal => floats + scientifics
  | .general => integers + floats + scientifics

/-- The numerals of a kind and a sign. -/
def language (kind : NumberKind) (sign : Sign) : Language Char :=
  sign.language * magnitudes kind

/-! ### Patterns of the parts -/

private theorem mem_optional {set : CharSet} {word : List Char} :
    word ∈ set.letter + 1 ↔ word = [] ∨ ∃ c, word = [c] ∧ set.has c = true := by
  rw [Language.mem_add, Language.mem_one, CharSet.mem_letter, or_comm]

theorem lead_denotes (sign : Sign) : sign.lead.Denotes sign.language := by
  cases sign with
  | positive =>
    refine ((Regex.Denotes.char _).optional).congr fun word => mem_optional.trans ?_
    change _ ↔ word = [] ∨ word = ['+']
    simp
  | negative =>
    refine (Regex.Denotes.char _).congr fun word => ?_
    change (∃ c, word = [c] ∧ _) ↔ word = ['-']
    simp
  | any =>
    refine ((Regex.Denotes.char _).optional).congr fun word => mem_optional.trans ?_
    change _ ↔ word = [] ∨ word = ['+'] ∨ word = ['-']
    simp [and_or_left, exists_or]

theorem digits_denotes : digits.Denotes integers :=
  Regex.Denotes.plus_char _ _

theorem maybeDigits_denotes : maybeDigits.Denotes CharSet.digit.run :=
  Regex.Denotes.star_char _ _

theorem point_denotes : point.Denotes {['.']} := by
  refine (Regex.Denotes.char _).congr fun word => ?_
  change (∃ c, word = [c] ∧ _) ↔ word = ['.']
  simp

theorem mem_floats {word : List Char} :
    word ∈ floats ↔ ∃ whole fraction, word = whole ++ '.' :: fraction ∧
      whole ∈ CharSet.digit.run ∧ fraction ∈ CharSet.digit.run ∧ (whole ≠ [] ∨ fraction ≠ []) :=
  Iff.rfl

theorem float_denotes : float.Denotes floats := by
  have before := digits_denotes.concat_cons (point_denotes.concat_cons maybeDigits_denotes.concat_one)
  have behind := maybeDigits_denotes.concat_cons (point_denotes.concat_cons digits_denotes.concat_one)
  refine ((before.alt behind).group _).congr fun word => ?_
  rw [Language.mem_add, Language.mem_mul, Language.mem_mul, mem_floats]
  constructor
  · rintro (⟨whole, ⟨some, digits⟩, _, ⟨_, rfl, fraction, digits', rfl⟩, rfl⟩ |
      ⟨whole, digits, _, ⟨_, rfl, fraction, ⟨some, digits'⟩, rfl⟩, rfl⟩)
    · exact ⟨whole, fraction, rfl, digits, digits', Or.inl some⟩
    · exact ⟨whole, fraction, rfl, digits, digits', Or.inr some⟩
  · -- With digits on both sides either branch would do.
    rintro ⟨whole, fraction, rfl, digits, digits', some | some⟩
    · exact Or.inl ⟨whole, ⟨some, digits⟩, _, ⟨_, rfl, fraction, digits', rfl⟩, rfl⟩
    · exact Or.inr ⟨whole, digits, _, ⟨_, rfl, fraction, ⟨some, digits'⟩, rfl⟩, rfl⟩

/-- An exponent with its mark. -/
private def exponents : Language Char :=
  {word | ∃ mark sign digits, word = mark :: (sign ++ digits) ∧ mark ∈ ['d', 'e', 'D', 'E'] ∧
    sign ∈ Sign.any.language ∧ digits ∈ integers}

private theorem exponent_denotes : exponent.Denotes exponents := by
  have marks := Regex.Denotes.char (.oneOf [.only 'd', .only 'e', .only 'D', .only 'E'])
  refine (marks.concat_cons
    ((lead_denotes .any).concat_cons digits_denotes.concat_one)).congr fun word => ?_
  rw [Language.mem_mul]
  constructor
  · rintro ⟨_, ⟨mark, rfl, held⟩, _, ⟨sign, signed, digits, some, rfl⟩, rfl⟩
    exact ⟨mark, sign, digits, rfl, by simpa using held, signed, some⟩
  · rintro ⟨mark, sign, digits, rfl, held, signed, some⟩
    exact ⟨[mark], ⟨mark, rfl, by simpa using held⟩, _, ⟨sign, signed, digits, some, rfl⟩, rfl⟩

/-- Digits with or without a point: an integer, or a float. -/
private theorem mem_mantissas {word : List Char} :
    word ∈ integers * (({['.']} + 1) * CharSet.digit.run) +
      CharSet.digit.run * ({['.']} * integers) ↔ word ∈ integers ∨ word ∈ floats := by
  rw [Language.mem_add, mem_floats]
  constructor
  · rintro (⟨whole, digits, _, ⟨_, rfl | rfl, fraction, digits', rfl⟩, rfl⟩ |
      ⟨whole, digits, _, ⟨_, rfl, fraction, digits', rfl⟩, rfl⟩)
    · exact Or.inr ⟨whole, fraction, rfl, digits.2, digits', Or.inl digits.1⟩
    · -- Without the optional point two runs of digits stand side by side.
      refine Or.inl ⟨by simp [digits.1], fun c member => ?_⟩
      rcases List.mem_append.mp member with inWhole | inFraction
      · exact digits.2 c inWhole
      · exact digits' c inFraction
    · exact Or.inr ⟨whole, fraction, rfl, digits, digits'.2, Or.inr digits'.1⟩
  · rintro (digits | ⟨whole, fraction, rfl, digits, digits', some | some⟩)
    · have none : [] ∈ CharSet.digit.run := fun c member => absurd member List.not_mem_nil
      exact Or.inl ⟨word, digits, [], ⟨[], Or.inr rfl, [], none, rfl⟩, List.append_nil word⟩
    · exact Or.inl ⟨whole, ⟨some, digits⟩, _, ⟨_, Or.inl rfl, fraction, digits', rfl⟩, rfl⟩
    · exact Or.inr ⟨whole, digits, _, ⟨_, rfl, fraction, ⟨some, digits'⟩, rfl⟩, rfl⟩

theorem scientific_denotes : scientific.Denotes scientifics := by
  have pointed := point_denotes.optional
  have before := digits_denotes.concat_cons
    (pointed.concat_cons (maybeDigits_denotes.concat_cons exponent_denotes.concat_one))
  have behind := maybeDigits_denotes.concat_cons
    (point_denotes.concat_cons (digits_denotes.concat_cons exponent_denotes.concat_one))
  refine ((before.alt behind).group _).congr fun word => ?_
  -- Both branches end with the same exponent, which is taken out of the choice.
  simp only [← mul_assoc]
  rw [← add_mul, mul_assoc integers, mul_assoc CharSet.digit.run, Language.mem_mul]
  constructor
  · rintro ⟨mantissa, some, _, ⟨mark, sign, digits, rfl, marked, signed, others⟩, rfl⟩
    exact ⟨mantissa, mark, sign, digits, rfl, mem_mantissas.mp some, marked, signed, others⟩
  · rintro ⟨mantissa, mark, sign, digits, rfl, some, marked, signed, others⟩
    exact ⟨mantissa, mem_mantissas.mpr some, _, ⟨mark, sign, digits, rfl, marked, signed, others⟩, rfl⟩

theorem magnitude_denotes (kind : NumberKind) : (magnitude kind).Denotes (magnitudes kind) := by
  cases kind with
  | integer => exact digits_denotes
  | float => exact float_denotes
  | scientific => exact scientific_denotes
  | decimal =>
    refine ((scientific_denotes.alt float_denotes).group _).congr fun word => ?_
    rw [magnitudes, add_comm]
  | general =>
    refine ((scientific_denotes.alt (float_denotes.alt digits_denotes)).group _).congr fun word => ?_
    rw [magnitudes, add_comm floats, add_comm]

/-- A pattern of numerals reads the numerals, wherever they stand. -/
theorem pattern_denotes (kind : NumberKind) (sign : Sign) :
    (pattern kind sign).Denotes (language kind sign) :=
  (lead_denotes sign).append (magnitude_denotes kind)

/-! ### Characters of numerals -/

theorem sign_cases {sign : Sign} {word : List Char} (signed : word ∈ sign.language) :
    word = [] ∨ word = ['+'] ∨ word = ['-'] := by
  cases sign with
  | positive => exact signed.elim Or.inl fun plus => Or.inr (Or.inl plus)
  | negative => exact Or.inr (Or.inr signed)
  | any => exact signed

theorem magnitude_cases {kind : NumberKind} {word : List Char} (member : word ∈ magnitudes kind) :
    (word ∈ integers ∨ word ∈ floats) ∨ word ∈ scientifics := by
  cases kind with
  | integer => exact Or.inl (Or.inl member)
  | float => exact Or.inl (Or.inr member)
  | scientific => exact Or.inr member
  | decimal => exact member.imp_left Or.inr
  | general => exact member

section Characters

variable {motive : Char → Prop} (digit : ∀ c, isDecimalDigit c = true → motive c)
  (other : ∀ c ∈ ['+', '-', '.', 'd', 'e', 'D', 'E'], motive c) {word : List Char}

include digit other

private theorem forall_mantissa (member : word ∈ integers ∨ word ∈ floats) :
    ∀ c ∈ word, motive c := by
  rcases member with ⟨-, digits⟩ | ⟨whole, fraction, rfl, digits, digits', -⟩
  · exact fun c inWord => digit c (digits c inWord)
  · rw [List.forall_mem_append, List.forall_mem_cons]
    exact ⟨fun c inWhole => digit c (digits c inWhole), other '.' (by decide),
      fun c inFraction => digit c (digits' c inFraction)⟩

/-- What holds of digits, signs, the point and the marks holds of all characters of a numeral. -/
theorem forall_of_mem {kind : NumberKind} {sign : Sign} (member : word ∈ language kind sign) :
    ∀ c ∈ word, motive c := by
  -- Signs occur twice: before the mantissa, and behind the mark of an exponent.
  have signs {sign : Sign} {lead : List Char} (signed : lead ∈ sign.language) :
      ∀ c ∈ lead, motive c := by
    rcases sign_cases signed with rfl | rfl | rfl
    · exact List.forall_mem_nil _
    · exact List.forall_mem_singleton.mpr (other '+' (by decide))
    · exact List.forall_mem_singleton.mpr (other '-' (by decide))
  obtain ⟨lead, signed, magnitude, sized, rfl⟩ := member
  refine List.forall_mem_append.mpr ⟨signs signed, ?_⟩
  rcases magnitude_cases sized with mantissa | exponent
  · exact forall_mantissa digit other mantissa
  -- A mantissa, the mark of the exponent, its sign and its digits.
  · obtain ⟨mantissa, mark, sign, digits, rfl, some, marked, signed, others⟩ := exponent
    have markHolds : motive mark := by
      apply other mark
      simp only [List.mem_cons, List.not_mem_nil, or_false] at marked ⊢
      tauto
    rw [List.forall_mem_append, List.forall_mem_cons, List.forall_mem_append]
    exact ⟨forall_mantissa digit other some, markHolds, signs signed,
      forall_mantissa digit other (Or.inl others)⟩

end Characters

theorem ne_nil_of_mem {kind : NumberKind} {sign : Sign} {word : List Char}
    (member : word ∈ language kind sign) : word ≠ [] := by
  obtain ⟨lead, -, magnitude, sized, rfl⟩ := member
  have some : magnitude ≠ [] := by
    rcases magnitude_cases sized with (⟨some, -⟩ | ⟨whole, fraction, rfl, -⟩) |
      ⟨mantissa, mark, sign, digits, rfl, -⟩
    · exact some
    · simp
    · simp
  exact List.append_ne_nil_of_right_ne_nil lead some

end Numeral

end Gleaner
