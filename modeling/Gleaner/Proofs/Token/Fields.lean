import Gleaner.Proofs.Token.Language
import Gleaner.Text.Blank

/-!
# The fields of a repeated capture

A repeated token is kept as one text, which is cut at its blanks afterwards; `fieldsBy` are the
pieces between the cuts. `Spaced` says how words stand in a text of repeated numerals: one behind the
other, with at least one space or tab between them. A numeral holds no blank of any kind, so the
fields of the text are the numerals again, and margins around the text change nothing.
-/

open scoped Computability

namespace Gleaner

/-- Words that stand one behind the other, with gaps between them. -/
inductive Spaced : List (List Char) → List Char → Prop where
  | last (word : List Char) : Spaced [word] word
  | more {word gap : List Char} {words : List (List Char)} {text : List Char}
    (gaps : gap ∈ someGaps) (others : Spaced words text) :
    Spaced (word :: words) (word ++ (gap ++ text))

theorem Spaced.ne_nil {words : List (List Char)} {text : List Char} (spaced : Spaced words text) :
    words ≠ [] := by
  cases spaced <;> simp

theorem mem_spaced {language : Language Char} {text : List Char} :
    text ∈ language * (someGaps * language)∗ ↔
      ∃ words, Spaced words text ∧ ∀ word ∈ words, word ∈ language := by
  constructor
  · rintro ⟨first, inFirst, _, ⟨pieces, rfl, members⟩, rfl⟩
    -- Each further piece is a gap and the word behind it.
    induction pieces generalizing first with
    | nil =>
      refine ⟨[first], ?_, List.forall_mem_singleton.mpr inFirst⟩
      simpa using Spaced.last first
    | cons piece pieces ih =>
      obtain ⟨gap, gaps, word, inWord, rfl⟩ := members piece List.mem_cons_self
      obtain ⟨words, spaced, each⟩ :=
        ih word inWord fun other inRest => members other (List.mem_cons_of_mem _ inRest)
      refine ⟨first :: words, ?_, List.forall_mem_cons.mpr ⟨inFirst, each⟩⟩
      simpa using Spaced.more gaps spaced
  · rintro ⟨words, spaced, each⟩
    induction spaced with
    | last word =>
      exact ⟨word, each word List.mem_cons_self, [], Language.nil_mem_kstar _, List.append_nil word⟩
    | @more word gap words text gaps _ ih =>
      obtain ⟨inWord, others⟩ := List.forall_mem_cons.mp each
      obtain ⟨next, inNext, _, ⟨pieces, rfl, members⟩, rfl⟩ := ih others
      have piece : gap ++ next ∈ someGaps * language := ⟨gap, gaps, next, inNext, rfl⟩
      refine ⟨word, inWord, _, ⟨(gap ++ next) :: pieces, rfl, ?_⟩, by simp⟩
      exact List.forall_mem_cons.mpr ⟨piece, members⟩

/-! ### Cutting -/

/-- The pieces of a text between the characters at which it is cut. No piece is empty. -/
def fieldsBy (cuts : Char → Bool) (text : List Char) : List (List Char) :=
  (text.splitOnP cuts).filter (· ≠ [])

section Cutting

variable {cuts : Char → Bool}

/-- A cut parts the fields before it from those behind it; all else follows from this. -/
theorem fieldsBy_append_cons {c : Char} (cut : cuts c = true) (before behind : List Char) :
    fieldsBy cuts (before ++ c :: behind) = fieldsBy cuts before ++ fieldsBy cuts behind := by
  rw [fieldsBy, List.splitOnP_append_cons before behind cut, List.filter_append]
  rfl

theorem fieldsBy_word {word : List Char} (uncut : ∀ c ∈ word, cuts c = false) (some : word ≠ []) :
    fieldsBy cuts word = [word] := by
  rw [fieldsBy, List.splitOnP_eq_singleton uncut, List.filter_cons_of_pos (by simpa using some),
    List.filter_nil]

theorem fieldsBy_gap_append {gap : List Char} (cut : ∀ c ∈ gap, cuts c = true) (rest : List Char) :
    fieldsBy cuts (gap ++ rest) = fieldsBy cuts rest := by
  induction gap with
  | nil => rfl
  | cons c gap ih =>
    obtain ⟨here, others⟩ := List.forall_mem_cons.mp cut
    rw [← ih others]
    exact fieldsBy_append_cons here [] (gap ++ rest)

theorem fieldsBy_append_gap {gap : List Char} (cut : ∀ c ∈ gap, cuts c = true) (text : List Char) :
    fieldsBy cuts (text ++ gap) = fieldsBy cuts text := by
  cases gap with
  | nil => rw [List.append_nil]
  | cons c gap =>
    obtain ⟨here, others⟩ := List.forall_mem_cons.mp cut
    have none : fieldsBy cuts (gap ++ []) = [] := fieldsBy_gap_append others []
    rw [List.append_nil] at none
    rw [fieldsBy_append_cons here, none, List.append_nil]

/-- Words that are not cut are the fields of any text in which they stand apart. -/
theorem fieldsBy_spaced (gap : ∀ c, c = ' ' ∨ c = '\t' → cuts c = true)
    {words : List (List Char)} {text : List Char} (spaced : Spaced words text)
    (uncut : ∀ word ∈ words, (∀ c ∈ word, cuts c = false) ∧ word ≠ []) :
    fieldsBy cuts text = words := by
  induction spaced with
  | last word =>
    obtain ⟨whole, some⟩ := uncut word List.mem_cons_self
    exact fieldsBy_word whole some
  | @more word blanks words text gaps _ ih =>
    obtain ⟨⟨whole, some⟩, others⟩ := List.forall_mem_cons.mp uncut
    -- The first blank parts the word from the rest, and the other blanks add nothing.
    obtain ⟨c, blanks, rfl⟩ := List.exists_cons_of_ne_nil gaps.1
    obtain ⟨first, more⟩ := List.forall_mem_cons.mp gaps.2
    rw [List.cons_append, fieldsBy_append_cons (gap c first), fieldsBy_word whole some,
      fieldsBy_gap_append (fun d member => gap d (more d member)), ih others]
    rfl

/-- The fields of a text are parts of it. -/
theorem isInfix_of_mem_fieldsBy {text : List Char} :
    ∀ field ∈ fieldsBy cuts text, field <:+: text := by
  -- On the length: a cut leaves two shorter texts, and between cuts there is one field.
  induction length : text.length using Nat.strong_induction_on generalizing text with
  | _ n ih =>
    intro field member
    by_cases cut : ∃ c ∈ text, cuts c = true
    · obtain ⟨c, inText, cut⟩ := cut
      obtain ⟨before, behind, rfl⟩ := List.append_of_mem inText
      rw [List.length_append, List.length_cons] at length
      rw [fieldsBy_append_cons cut, List.mem_append] at member
      rcases member with inBefore | inBehind
      · exact (ih before.length (by omega) rfl field inBefore).trans
          (List.prefix_append before _).isInfix
      · have inside := ih behind.length (by omega) rfl field inBehind
        exact inside.trans ((List.suffix_cons c behind).trans (List.suffix_append before _)).isInfix
    · have uncut : ∀ c ∈ text, cuts c = false := by simpa using cut
      rw [fieldsBy, List.splitOnP_eq_singleton uncut, List.mem_filter, List.mem_singleton] at member
      rw [member.1]

end Cutting

/-- Whether a character may stand in a gap between two tokens. -/
def isGap (c : Char) : Bool :=
  c = ' ' || c = '\t'

/-! ### Cutting at blanks -/

/-- A word that is not cut. -/
def Solid (word : List Char) : Prop :=
  ∀ c ∈ word, isBlank c = false

theorem isBlank_of_gap (c : Char) (gap : c = ' ' ∨ c = '\t') : isBlank c = true := by
  rcases gap with rfl | rfl <;> decide

theorem isGap_of_isBlank {c : Char} (solid : isBlank c = false) : isGap c = false := by
  rw [← Bool.not_eq_true] at solid ⊢
  intro gap
  simp only [isGap, Bool.or_eq_true, decide_eq_true_eq] at gap
  exact solid (isBlank_of_gap c gap)

theorem blankFields_eq (text : List Char) : blankFields text = fieldsBy isBlank text := by
  -- For every pending piece, as both functions keep one.
  have from_ : ∀ pending, blankFieldsFrom pending text =
      (List.splitOnPPrepend isBlank text pending).filter (· ≠ []) := by
    induction text with
    | nil =>
      intro pending
      cases pending <;> simp [blankFieldsFrom]
    | cons c text ih =>
      intro pending
      rw [blankFieldsFrom, List.splitOnPPrepend_cons_eq_if]
      split
      next =>
        have rest := ih []
        rw [List.splitOnPPrepend_nil_right] at rest
        cases pending <;> simp [rest]
      next => exact ih (c :: pending)
  exact from_ []

theorem blankFields_gap_append {gap : List Char} (gaps : gap ∈ gaps) (rest : List Char) :
    blankFields (gap ++ rest) = blankFields rest := by
  rw [blankFields_eq, blankFields_eq,
    fieldsBy_gap_append fun c member => isBlank_of_gap c (gaps c member)]

theorem blankFields_append_gap {gap : List Char} (gaps : gap ∈ gaps) (text : List Char) :
    blankFields (text ++ gap) = blankFields text := by
  rw [blankFields_eq, blankFields_eq,
    fieldsBy_append_gap fun c member => isBlank_of_gap c (gaps c member)]

/-- Words without blanks are the fields of any text in which they stand apart. -/
theorem blankFields_spaced {words : List (List Char)} {text : List Char} (spaced : Spaced words text)
    (solid : ∀ word ∈ words, Solid word ∧ word ≠ []) : blankFields text = words := by
  rw [blankFields_eq]
  exact fieldsBy_spaced isBlank_of_gap spaced solid

/-! ### Numerals hold no blanks -/

/-- The rows of digits keep clear of the runs of blanks. -/
theorem isBlank_of_isDecimalDigit {c : Char} (digit : isDecimalDigit c = true) :
    isBlank c = false := by
  have clear : ∀ base ∈ digitZeros, ∀ run ∈ blankRuns, base + 10 ≤ run.1 ∨ run.2 < base := by decide
  -- An ASCII digit stands in the first row.
  have row : ∃ base ∈ digitZeros, base ≤ c.toNat ∧ c.toNat < base + 10 := by
    unfold isDecimalDigit at digit
    split at digit
    · refine ⟨0x30, by decide, ?_⟩
      simp only [Char.isDigit, Bool.and_eq_true, decide_eq_true_eq, ge_iff_le,
        UInt32.le_iff_toNat_le] at digit
      exact ⟨digit.1, Nat.lt_succ_of_le digit.2⟩
    · simpa using digit
  obtain ⟨base, inRows, from_, before⟩ := row
  simp only [isBlank, inRuns, List.any_eq_false, Bool.and_eq_true, decide_eq_true_eq]
  rintro run inRuns ⟨first, last⟩
  have apart := clear base inRows run inRuns
  omega

/-- A numeral is one field of any text in which it stands apart. -/
theorem Numeral.solid_of_mem {kind : NumberKind} {sign : Sign} {word : List Char}
    (member : word ∈ language kind sign) : Solid word ∧ word ≠ [] := by
  have others : ∀ c ∈ ['+', '-', '.', 'd', 'e', 'D', 'E'], isBlank c = false := by
    simp [isBlank, inRuns, blankRuns]
  exact ⟨forall_of_mem (fun _ => isBlank_of_isDecimalDigit) others member, ne_nil_of_mem member⟩

end Gleaner
