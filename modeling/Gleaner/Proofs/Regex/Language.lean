import Gleaner.Proofs.Regex.Ways
import Mathlib.Computability.Language

/-!
# Languages of patterns

Forgetting preference and captures, a pattern leads from some places of a text to others: `Reads`.
Seen from a piece of text between what stands left and right of it, it reads some pieces and not
others: `Spans`. A pattern without assertions reads the same pieces wherever they stand, and these
form its language: `Denotes`. A repetition gives up a round that reads nothing; the language is the
Kleene closure all the same, since such a round adds no text.
-/

open scoped Computability

namespace Gleaner.Regex

/-- Some way of the pattern leads from one place to another. -/
def Reads (regex : Regex) (text : Array Char) (start stop : Nat) : Prop :=
  ∃ way ∈ regex.ways text start, way.stop = stop

section Reads

variable {text : Array Char} {start stop : Nat}

theorem Reads.forward {regex : Regex} (reads : regex.Reads text start stop) : start ≤ stop := by
  obtain ⟨way, member, rfl⟩ := reads
  exact (within_ways text regex start way member).1

theorem ways_ne_nil_iff {regex : Regex} :
    regex.ways text start ≠ [] ↔ ∃ stop, regex.Reads text start stop := by
  constructor
  · intro some
    obtain ⟨way, member⟩ := List.exists_mem_of_ne_nil _ some
    exact ⟨way.stop, way, member, rfl⟩
  · rintro ⟨stop, way, member, -⟩
    exact List.ne_nil_of_mem member

theorem ways_eq_nil_iff {regex : Regex} :
    regex.ways text start = [] ↔ ∀ stop, ¬regex.Reads text start stop := by
  rw [← not_exists, ← ways_ne_nil_iff, not_not]

@[simp] theorem reads_empty : Regex.empty.Reads text start stop ↔ stop = start := by
  simp [Reads, ways, eq_comm]

@[simp] theorem reads_char {set : CharSet} :
    (char set).Reads text start stop ↔ text[start]?.any set.has = true ∧ stop = start + 1 := by
  unfold Reads ways
  split
  next found => simp [found, eq_comm]
  next missing => simp [missing]

@[simp] theorem reads_textStart : textStart.Reads text start stop ↔ start = 0 ∧ stop = start := by
  unfold Reads ways
  split
  next here => simp [here, eq_comm]
  next there => simp [there]

@[simp] theorem reads_textEnd :
    textEnd.Reads text start stop ↔ start = text.size ∧ stop = start := by
  unfold Reads ways
  split
  next here => simp [here, eq_comm]
  next there => simp [there]

@[simp] theorem reads_look {side : Side} {wanted : Bool} {set : CharSet} :
    (look side wanted set).Reads text start stop ↔
      (side.neighbour? text start).any set.has = wanted ∧ stop = start := by
  unfold Reads ways
  split
  next here => simp [here, eq_comm]
  next there => simp [there]

@[simp] theorem reads_append {first second : Regex} :
    (first ++ second).Reads text start stop ↔
      ∃ middle, first.Reads text start middle ∧ second.Reads text middle stop := by
  simp only [Reads, ways_append, Way.mem_chain]
  constructor
  · rintro ⟨way, ⟨begun, inFirst, gone, inSecond, rfl⟩, rfl⟩
    exact ⟨begun.stop, ⟨begun, inFirst, rfl⟩, gone, inSecond, rfl⟩
  · rintro ⟨middle, ⟨begun, inFirst, rfl⟩, gone, inSecond, rfl⟩
    exact ⟨begun.after gone, ⟨begun, inFirst, gone, inSecond, rfl⟩, rfl⟩

@[simp] theorem reads_alt {first second : Regex} :
    (alt first second).Reads text start stop ↔
      first.Reads text start stop ∨ second.Reads text start stop := by
  simp only [Reads, ways, List.mem_append]
  constructor
  · rintro ⟨way, inFirst | inSecond, ended⟩
    · exact Or.inl ⟨way, inFirst, ended⟩
    · exact Or.inr ⟨way, inSecond, ended⟩
  · rintro (⟨way, inFirst, ended⟩ | ⟨way, inSecond, ended⟩)
    · exact ⟨way, Or.inl inFirst, ended⟩
    · exact ⟨way, Or.inr inSecond, ended⟩

@[simp] theorem reads_optional {body : Regex} :
    (optional body).Reads text start stop ↔ body.Reads text start stop ∨ stop = start := by
  have same : (optional body).ways text start = (alt body .empty).ways text start := rfl
  unfold Reads
  rw [same]
  exact reads_alt.trans (or_congr Iff.rfl reads_empty)

@[simp] theorem reads_group {kind : GroupKind} {body : Regex} :
    (group kind body).Reads text start stop ↔ body.Reads text start stop := by
  cases kind with
  | plain | bundle => rfl
  | named name => simp [Reads, ways]

theorem reads_star {greed : Greed} {body : Regex} :
    (star greed body).Reads text start stop ↔
      stop = start ∨ ∃ middle, body.Reads text start middle ∧ start < middle ∧
        (star greed body).Reads text middle stop := by
  unfold Reads
  rw [ways_star]
  simp only [Greed.mem_order, Way.mem_chain, List.mem_filter]
  constructor
  · rintro ⟨way, ⟨begun, ⟨inBody, moved⟩, gone, inRest, rfl⟩ | rfl, ended⟩
    · -- A round that is kept has moved, and ways only go forward.
      have forward := (within_ways text body start begun inBody).1
      have moved : begun.stop ≠ start := by simpa using moved
      exact Or.inr ⟨begun.stop, ⟨begun, inBody, rfl⟩, by omega, gone, inRest, ended⟩
    · exact Or.inl ended.symm
  · rintro (rfl | ⟨middle, ⟨begun, inBody, rfl⟩, moved, gone, inRest, ended⟩)
    · exact ⟨.stay stop, Or.inr rfl, rfl⟩
    · have moved : begun.stop ≠ start := by omega
      exact ⟨begun.after gone, Or.inl ⟨begun, ⟨inBody, by simpa using moved⟩, gone, inRest, rfl⟩, ended⟩

theorem reads_plus {greed : Greed} {body : Regex} :
    (plus greed body).Reads text start stop ↔ (body ++ star greed body).Reads text start stop :=
  Iff.rfl

theorem reads_concat_cons {first : Regex} {rest : List Regex} :
    (concat (first :: rest)).Reads text start stop ↔ (first ++ concat rest).Reads text start stop := by
  simp only [Reads, ways_concat_cons, ways_append]

end Reads

/-! ### Pieces of text -/

/-- The pattern reads a piece of text that stands between two others. -/
def Spans (regex : Regex) (left word right : List Char) : Prop :=
  regex.Reads (left ++ word ++ right).toArray left.length (left.length + word.length)

section Spans

variable {left word right : List Char}

@[simp] theorem spans_empty : Regex.empty.Spans left word right ↔ word = [] := by
  simp [Spans]

@[simp] theorem spans_char {set : CharSet} :
    (char set).Spans left word right ↔ ∃ c, word = [c] ∧ set.has c = true := by
  cases word with
  | nil => simp [Spans]
  | cons c rest =>
    cases rest with
    | nil => simp [Spans]
    | cons d rest => simp [Spans]

@[simp] theorem spans_look_before {wanted : Bool} {set : CharSet} :
    (look .before wanted set).Spans left word right ↔
      left.getLast?.any set.has = wanted ∧ word = [] := by
  have neighbour : Side.before.neighbour? (left ++ word ++ right).toArray left.length =
      left.getLast? := by
    rcases List.eq_nil_or_concat left with rfl | ⟨before, last, rfl⟩
    · rfl
    · simp [Side.neighbour?]
  unfold Spans
  rw [reads_look, neighbour]
  simp

@[simp] theorem spans_look_after {wanted : Bool} {set : CharSet} :
    (look .after wanted set).Spans left word right ↔
      right.head?.any set.has = wanted ∧ word = [] := by
  have neighbour : Side.after.neighbour? (left ++ right).toArray left.length = right.head? := by
    cases right <;> simp [Side.neighbour?]
  unfold Spans
  rw [reads_look]
  constructor
  · -- The neighbour is behind `word`, so this must be known to be empty before it can be looked up.
    rintro ⟨found, same⟩
    obtain rfl : word = [] := List.eq_nil_of_length_eq_zero (by omega)
    rw [List.append_nil, neighbour] at found
    exact ⟨found, rfl⟩
  · rintro ⟨found, rfl⟩
    rw [List.append_nil, neighbour]
    exact ⟨found, rfl⟩

/-- A place inside a piece of text cuts it in two. -/
private theorem exists_cut {left word : List Char} {middle : Nat} (le : left.length ≤ middle)
    (le' : middle ≤ left.length + word.length) :
    ∃ one two, word = one ++ two ∧ middle = left.length + one.length :=
  ⟨word.take (middle - left.length), word.drop (middle - left.length),
    (List.take_append_drop _ _).symm, by rw [List.length_take]; omega⟩

private theorem reads_first_iff {regex : Regex} {one two : List Char} :
    regex.Reads (left ++ (one ++ two) ++ right).toArray left.length (left.length + one.length) ↔
      regex.Spans left one (two ++ right) := by
  simp [Spans]

private theorem reads_second_iff {regex : Regex} {one two : List Char} :
    regex.Reads (left ++ (one ++ two) ++ right).toArray (left.length + one.length)
      (left.length + (one ++ two).length) ↔ regex.Spans (left ++ one) two right := by
  simp [Spans, Nat.add_assoc]

theorem spans_append {first second : Regex} :
    (first ++ second).Spans left word right ↔
      ∃ one two, word = one ++ two ∧ first.Spans left one (two ++ right) ∧
        second.Spans (left ++ one) two right := by
  rw [Spans, reads_append]
  constructor
  · rintro ⟨middle, reads, reads'⟩
    obtain ⟨one, two, rfl, rfl⟩ := exists_cut reads.forward reads'.forward
    exact ⟨one, two, rfl, reads_first_iff.mp reads, reads_second_iff.mp reads'⟩
  · rintro ⟨one, two, rfl, spans, spans'⟩
    exact ⟨_, reads_first_iff.mpr spans, reads_second_iff.mpr spans'⟩

theorem spans_star {greed : Greed} {body : Regex} :
    (star greed body).Spans left word right ↔
      word = [] ∨ ∃ one two, word = one ++ two ∧ one ≠ [] ∧ body.Spans left one (two ++ right) ∧
        (star greed body).Spans (left ++ one) two right := by
  rw [Spans, reads_star]
  constructor
  -- A repetition reads nothing, or a piece that is not empty and then the rest.
  · rintro (same | ⟨middle, reads, moved, reads'⟩)
    · exact Or.inl (List.eq_nil_of_length_eq_zero (by omega))
    · obtain ⟨one, two, rfl, rfl⟩ := exists_cut reads.forward reads'.forward
      have some : one ≠ [] := List.length_pos_iff.mp (by omega)
      exact Or.inr ⟨one, two, rfl, some, reads_first_iff.mp reads, reads_second_iff.mp reads'⟩
  · rintro (rfl | ⟨one, two, rfl, some, spans, spans'⟩)
    · exact Or.inl rfl
    · have moved := List.length_pos_iff.mpr some
      exact Or.inr ⟨_, reads_first_iff.mpr spans, by omega, reads_second_iff.mpr spans'⟩

theorem spans_concat_cons {first : Regex} {rest : List Regex} :
    (concat (first :: rest)).Spans left word right ↔
      (first ++ concat rest).Spans left word right :=
  reads_concat_cons

end Spans

end Gleaner.Regex

namespace Gleaner

/-- Pieces of a text that adjoin one another are one piece. -/
theorem extract_append {text : Array Char} {first second third : Nat}
    (le : first ≤ second) (le' : second ≤ third) :
    text.extract first second ++ text.extract second third = text.extract first third := by
  rw [Array.extract_append_extract, Nat.min_eq_left le, Nat.max_eq_right le']

/-! ### Patterns that read the same pieces everywhere -/

@[simp] theorem CharRange.has_only {c d : Char} : (CharRange.only c).has d = true ↔ d = c := by
  simp only [has, Bool.and_eq_true, decide_eq_true_eq]
  change c.toNat ≤ d.toNat ∧ d.toNat ≤ c.toNat ↔ d = c
  rw [← Char.toNat_inj]
  omega

@[simp] theorem CharSet.has_exactly {c d : Char} : (CharSet.exactly c).has d = true ↔ d = c := by
  simp [CharSet.has]

@[simp] theorem CharSet.has_oneOf {ranges : List CharRange} {c : Char} :
    (CharSet.oneOf ranges).has c = true ↔ ∃ range ∈ ranges, range.has c = true := by
  simp [CharSet.has]

@[simp] theorem CharSet.has_noneOf {ranges : List CharRange} {c : Char} :
    (CharSet.noneOf ranges).has c = true ↔ ∀ range ∈ ranges, ¬range.has c = true := by
  simp [CharSet.has]

/-- The texts of one character of a set. -/
def CharSet.letter (set : CharSet) : Language Char :=
  {word | ∃ c, word = [c] ∧ set.has c = true}

/-- The texts of characters of a set. -/
def CharSet.run (set : CharSet) : Language Char :=
  {word | ∀ c ∈ word, set.has c = true}

/-- The texts of characters of a set, of which there is at least one. -/
def CharSet.someRun (set : CharSet) : Language Char :=
  {word | word ≠ [] ∧ ∀ c ∈ word, set.has c = true}

theorem CharSet.mem_letter {set : CharSet} {word : List Char} :
    word ∈ set.letter ↔ ∃ c, word = [c] ∧ set.has c = true := Iff.rfl

namespace Regex

/-- The pattern reads the pieces of text that belong to a language, wherever they stand. -/
def Denotes (regex : Regex) (language : Language Char) : Prop :=
  ∀ left word right, regex.Spans left word right ↔ word ∈ language

namespace Denotes

variable {first second body : Regex} {language language' : Language Char}

theorem empty : Regex.empty.Denotes 1 := fun _ _ _ => spans_empty

theorem char (set : CharSet) :
    (Regex.char set).Denotes set.letter :=
  fun _ _ _ => spans_char

theorem append (one : first.Denotes language) (two : second.Denotes language') :
    (first ++ second).Denotes (language * language') := by
  intro left word right
  rw [spans_append, Language.mem_mul]
  constructor
  · rintro ⟨start, rest, rfl, spans, spans'⟩
    exact ⟨start, (one _ _ _).mp spans, rest, (two _ _ _).mp spans', rfl⟩
  · rintro ⟨start, inFirst, rest, inSecond, rfl⟩
    exact ⟨start, rest, rfl, (one _ _ _).mpr inFirst, (two _ _ _).mpr inSecond⟩

theorem alt (one : first.Denotes language) (two : second.Denotes language') :
    (Regex.alt first second).Denotes (language + language') :=
  fun left word right => reads_alt.trans (or_congr (one left word right) (two left word right))

theorem optional (inner : body.Denotes language) :
    (Regex.optional body).Denotes (language + 1) := by
  intro left word right
  rw [Spans, reads_optional, Language.mem_add, Language.mem_one]
  refine or_congr (inner left word right) ?_
  simp

theorem group (kind : GroupKind) (inner : body.Denotes language) :
    (Regex.group kind body).Denotes language :=
  fun left word right => reads_group.trans (inner left word right)

theorem star (greed : Greed) (inner : body.Denotes language) :
    (Regex.star greed body).Denotes language∗ := by
  intro left word right
  constructor
  · intro spans
    -- On the length of the word: a round that counts makes the rest shorter.
    induction length : word.length using Nat.strong_induction_on generalizing left word with
    | _ n ih =>
      rcases spans_star.mp spans with rfl | ⟨one, two, rfl, some, inBody, others⟩
      · exact Language.nil_mem_kstar language
      · have shorter := List.length_pos_iff.mpr some
        have rest : two ∈ language∗ := by
          refine ih two.length ?_ (left ++ one) two others rfl
          rw [← length, List.length_append]
          omega
        obtain ⟨pieces, rfl, members⟩ := Language.mem_kstar.mp rest
        refine Language.mem_kstar.mpr ⟨one :: pieces, by simp, ?_⟩
        intro piece member
        rcases List.mem_cons.mp member with rfl | member
        · exact (inner _ _ _).mp inBody
        · exact members piece member
  · intro member
    obtain ⟨pieces, rfl, members⟩ := Language.mem_kstar.mp member
    clear member
    induction pieces generalizing left with
    | nil => exact spans_star.mpr (Or.inl rfl)
    | cons piece pieces ih =>
      have rest := ih (left ++ piece) fun other inRest => members other (List.mem_cons_of_mem _ inRest)
      -- The repetition gives up on a piece that is empty, but the text is the same without it.
      by_cases blank : piece = []
      · rw [blank, List.append_nil] at rest
        simpa [blank] using rest
      · exact spans_star.mpr (Or.inr ⟨piece, pieces.flatten, by simp, blank,
          (inner _ _ _).mpr (members piece List.mem_cons_self), rest⟩)

theorem plus (greed : Greed) (inner : body.Denotes language) :
    (Regex.plus greed body).Denotes (language * language∗) :=
  fun left word right => reads_plus.trans ((inner.append (inner.star greed)) left word right)

theorem concat_cons {rest : List Regex} (one : first.Denotes language)
    (others : (concat rest).Denotes language') :
    (concat (first :: rest)).Denotes (language * language') :=
  fun left word right => spans_concat_cons.trans ((one.append others) left word right)

theorem concat_one (one : first.Denotes language) : (concat [first]).Denotes language :=
  one

theorem congr (denotes : body.Denotes language) (same : ∀ word, word ∈ language ↔ word ∈ language') :
    body.Denotes language' :=
  fun left word right => (denotes left word right).trans (same word)

theorem star_char (greed : Greed) (set : CharSet) :
    (Regex.star greed (.char set)).Denotes set.run := by
  refine ((char set).star greed).congr fun word => ?_
  constructor
  · rintro ⟨pieces, rfl, members⟩ c member
    obtain ⟨piece, inPieces, inPiece⟩ := List.mem_flatten.mp member
    obtain ⟨d, rfl, held⟩ := members piece inPieces
    rw [List.mem_singleton.mp inPiece]
    exact held
  · intro held
    -- A run is cut into its single characters.
    refine ⟨word.map ([·]), by simp [← List.flatMap_def], ?_⟩
    intro piece member
    obtain ⟨c, inWord, rfl⟩ := List.mem_map.mp member
    exact ⟨c, rfl, held c inWord⟩

theorem plus_char (greed : Greed) (set : CharSet) :
    (Regex.plus greed (.char set)).Denotes set.someRun := by
  intro left word right
  -- A repetition of at least one round is the body and then any number of rounds.
  refine reads_plus.trans (((char set).append (star_char greed set)) left word right |>.trans ?_)
  rw [Language.mem_mul]
  constructor
  · rintro ⟨_, ⟨c, rfl, held⟩, rest, others, rfl⟩
    refine ⟨by simp, ?_⟩
    intro d member
    rcases List.mem_cons.mp member with rfl | member
    · exact held
    · exact others d member
  · rintro ⟨some, held⟩
    obtain ⟨c, rest, rfl⟩ := List.exists_cons_of_ne_nil some
    exact ⟨[c], ⟨c, rfl, held c List.mem_cons_self⟩, rest,
      fun d member => held d (List.mem_cons_of_mem _ member), rfl⟩

theorem literal (text : List Char) : (Regex.literal text).Denotes {text} := by
  induction text with
  | nil => exact empty
  | cons c rest ih =>
    refine ((char (.exactly c)).concat_cons ih).congr fun word => ?_
    rw [Language.mem_mul]
    constructor
    · rintro ⟨_, ⟨d, rfl, held⟩, _, rfl, rfl⟩
      rw [CharSet.has_exactly.mp held]
      rfl
    · rintro rfl
      exact ⟨[c], ⟨c, rfl, CharSet.has_exactly.mpr rfl⟩, rest, rfl, rfl⟩

end Denotes

end Regex

end Gleaner
