import Gleaner.Proofs.Line.Tokens
import Gleaner.Proofs.Regex.Searching

/-!
# Numerals are found as whole words

Between word boundaries the pattern of a numeral matches a maximal run of word characters that is a
numeral from its first character to its last, and nothing else. The reason is that a numeral consists
of word characters: the assertions on both sides then say that the match cannot be extended, and there
is only one maximal run from a place. So it does not matter which branch of the pattern is tried
first, and a search finds the first such run. Digits of other scripts than ASCII are no word
characters, so they must not occur in the text.
-/

namespace Gleaner

/-- A maximal run of word characters. -/
structure WordRun (text : Array Char) (start stop : Nat) : Prop where
  nonempty : start < stop
  inside : stop ≤ text.size
  chars : ∀ i, start ≤ i → i < stop → ∀ c ∈ text[i]?, isWordChar c
  before : 0 < start → ∀ c ∈ text[start - 1]?, ¬isWordChar c
  behind : ∀ c ∈ text[stop]?, ¬isWordChar c

/-- A maximal run of word characters that is a numeral as a whole. -/
structure NumeralRun (kind : NumberKind) (sign : Sign) (text : Array Char) (start stop : Nat) : Prop
    extends WordRun text start stop where
  numeral : (text.extract start stop).toList ∈ Numeral.language kind sign

/-- What a search for a numeral has to answer: the first run that is one, if there is any. -/
def FirstNumeral (kind : NumberKind) (sign : Sign) (text : Array Char) : Option Match → Prop
  | some found => found.captures = [] ∧ NumeralRun kind sign text found.start found.stop ∧
      ∀ start stop, NumeralRun kind sign text start stop → found.start ≤ start
  | none => ∀ start stop, ¬NumeralRun kind sign text start stop

/-- A run that ended earlier would go on. -/
theorem WordRun.stop_le {text : Array Char} {start stop stop' : Nat} (run : WordRun text start stop)
    (run' : WordRun text start stop') : stop' ≤ stop := by
  by_contra beyond
  have inside : stop < text.size := by
    have := run'.inside
    omega
  have here : text[stop] ∈ text[stop]? := Array.getElem?_eq_getElem inside
  exact run.behind _ here (run'.chars stop (Nat.le_of_lt run.nonempty) (by omega) _ here)

theorem WordRun.unique {text : Array Char} {start stop stop' : Nat} (run : WordRun text start stop)
    (run' : WordRun text start stop') : stop = stop' :=
  Nat.le_antisymm (run'.stop_le run) (run.stop_le run')

namespace WordBoundary

theorem isWordChar_of_isDigit {c : Char} (digit : c.isDigit = true) : isWordChar c = true := by
  simp [isWordChar, Char.isAlphanum, digit]

theorem groupNames_around (kind : NumberKind) (sign : Sign) :
    (around (Numeral.pattern kind sign)).groupNames = [] := by
  rw [around, Regex.groupNames_concat, List.flatMap_cons, List.flatMap_cons, List.flatMap_cons,
    Numeral.groupNames_pattern]
  rfl

section

variable {text : Array Char} (ascii : ∀ c ∈ text, isDecimalDigit c = true → c.toNat < 128)
  {kind : NumberKind} {sign : Sign} {start stop : Nat}

include ascii

/-- A numeral consists of word characters. -/
private theorem isWordChar_of_numeral
    (numeral : (text.extract start stop).toList ∈ Numeral.language kind sign) {i : Nat}
    (from_ : start ≤ i) (before : i < stop) {c : Char} (here : text[i]? = some c) :
    isWordChar c = true := by
  -- The digits of the text are ASCII, which the numeral alone does not tell.
  have each : ∀ c ∈ (text.extract start stop).toList, c ∈ text → isWordChar c = true := by
    have others : ∀ c ∈ ['+', '-', '.', 'd', 'e', 'D', 'E'], isWordChar c = true := by
      simp [isWordChar]
    refine Numeral.forall_of_mem (motive := fun c => c ∈ text → isWordChar c = true)
      (fun c digit inText => ?_) (fun c other _ => others c other) numeral
    rw [isDecimalDigit_eq_isDigit (ascii c inText digit)] at digit
    exact isWordChar_of_isDigit digit
  have inText : c ∈ text := Array.mem_of_getElem? here
  refine each c (Array.mem_toList_iff.mpr (Array.mem_of_getElem? (i := i - start) ?_)) inText
  have inside := (Array.getElem?_eq_some_iff.mp here).1
  rw [Array.getElem?_extract, if_pos (by omega), Nat.add_sub_cancel' from_]
  exact here

/-- Between word boundaries a numeral is a maximal run. -/
theorem reads_around (inside : start ≤ text.size) :
    (around (Numeral.pattern kind sign)).Reads text start stop ↔
      NumeralRun kind sign text start stop := by
  have denotes := Numeral.pattern_denotes kind sign
  have last : ∀ regex : Regex, Regex.concat [regex] = regex := fun _ => rfl
  have opened : Side.before.neighbour? text start = if start = 0 then none else text[start - 1]? :=
    rfl
  simp only [around, Regex.reads_concat_cons, Regex.reads_append, last, opening, closing,
    Regex.reads_look, any_wordBoundary]
  constructor
  -- Forwards: what is read is a numeral, so it has no other than word characters, and none is next
  -- to it.
  · rintro ⟨first, ⟨before, same⟩, last, reads, behind, same'⟩
    subst first last
    have within : stop ≤ text.size := by
      obtain ⟨way, member, rfl⟩ := reads
      have bound := (Regex.within_ways text _ _ way member).2
      omega
    have numeral := denotes.mem_of_reads reads within
    -- A numeral is not empty, and so the run is not.
    have moved : start ≠ stop := fun same => Numeral.ne_nil_of_mem numeral (by simp [same])
    refine ⟨⟨Nat.lt_of_le_of_ne reads.forward moved, within, ?_, ?_, behind⟩, numeral⟩
    · exact fun i from_ before c here => isWordChar_of_numeral ascii numeral from_ before here
    · intro some
      rwa [opened, if_neg (Nat.ne_of_gt some)] at before
  -- Backwards: the ends of a maximal run are word boundaries.
  · intro run
    refine ⟨start, ⟨?_, rfl⟩, stop, ?_, run.behind, rfl⟩
    · rw [opened]
      split
      · simp
      · exact run.before (by omega)
    · exact (denotes.reads_iff (Nat.le_of_lt run.nonempty) run.inside).mpr run.numeral

private theorem ways_ne_nil (run : NumeralRun kind sign text start stop) :
    (around (Numeral.pattern kind sign)).ways text start ≠ [] := by
  have inside := Nat.le_trans (Nat.le_of_lt run.nonempty) run.inside
  exact Regex.ways_ne_nil_iff.mpr ⟨stop, (reads_around ascii inside).mpr run⟩

/-- A match from a place ends where the run from there ends, whichever branch was preferred. -/
theorem matchAt_iff_numeralRun (inside : start ≤ text.size) :
    (∃ budget room captures, (around (Numeral.pattern kind sign)).matchAt text budget room start =
      .matched stop captures) ↔ NumeralRun kind sign text start stop := by
  constructor
  · rintro ⟨budget, room, captures, matched⟩
    have answers := Regex.matchAt_answers (around (Numeral.pattern kind sign)) text budget room start
    rw [matched] at answers
    exact (reads_around ascii inside).mp ⟨_, List.mem_of_mem_head? answers, rfl⟩
  · intro run
    obtain ⟨way, more, ways⟩ := List.exists_cons_of_ne_nil (ways_ne_nil ascii run)
    have preferred : ((around (Numeral.pattern kind sign)).ways text start).head? = some way := by
      rw [ways, List.head?_cons]
    -- The preferred way may take any branch of the pattern; it is a run all the same.
    have found := (reads_around ascii inside).mp ⟨way, List.mem_of_mem_head? preferred, rfl⟩
    obtain ⟨budget, room, matched⟩ := Regex.exists_matchAt preferred
    rw [found.toWordRun.unique run.toWordRun] at matched
    exact ⟨budget, room, way.captures, matched⟩

/-- A search that answers has found the first run that is a numeral, or there is none. -/
theorem firstNumeral_of_search {budget : Nat} {found? : Option Match}
    (returned : (around (Numeral.pattern kind sign)).searchFrom text budget 0 = .ok found?) :
    FirstNumeral kind sign text found? := by
  have answer := Regex.searchFrom_answers _ text budget 0 (Nat.zero_le _) returned
  cases found? with
  | none =>
    intro start stop run
    have inside := Nat.le_trans (Nat.le_of_lt run.nonempty) run.inside
    exact ways_ne_nil ascii run (answer start (Nat.zero_le _) inside)
  | some found =>
    have member := List.mem_of_mem_head? answer.preferred
    refine ⟨Regex.captures_eq_nil (groupNames_around kind sign) member,
      (reads_around ascii answer.inside).mp ⟨_, member, rfl⟩, ?_⟩
    -- A run further left would have been matched there.
    intro start stop run
    by_contra earlier
    exact ways_ne_nil ascii run (answer.skipped start (Nat.zero_le _) (by omega))

end

/-- A numeral between word boundaries is matched where a maximal run of word characters is a numeral
as a whole, and up to its end; a search finds the first such run or, if there is none, nothing. -/
theorem search_finds_first_numeral {text : Array Char}
    (ascii : ∀ c ∈ text, isDecimalDigit c = true → c.toNat < 128) (kind : NumberKind) (sign : Sign) :
    (∀ budget found?,
      (around (Numeral.pattern kind sign)).searchFrom text budget 0 = .ok found? →
        FirstNumeral kind sign text found?) ∧
    ∀ start stop, start ≤ text.size →
      ((∃ budget room captures, (around (Numeral.pattern kind sign)).matchAt text budget room start =
        .matched stop captures) ↔ NumeralRun kind sign text start stop) := by
  constructor
  · exact fun budget found? returned => firstNumeral_of_search ascii returned
  · exact fun start stop inside => matchAt_iff_numeralRun ascii inside

/-- Neither the digits of a longer word nor a part of a float is taken for an integer. -/
theorem search_finds_first_numeral_signed :
    ∃ text : Array Char, text = "x12 3.5, +7 8".toList.toArray ∧
      (∀ c ∈ text, isDecimalDigit c = true → c.toNat < 128) ∧
      (around (Numeral.pattern .integer .positive)).searchFrom text 100 0 =
        .ok (some ⟨9, 11, []⟩) ∧
      FirstNumeral .integer .positive text (some ⟨9, 11, []⟩) ∧
      ∃ budget room captures, (around (Numeral.pattern .integer .positive)).matchAt text budget room
        9 = .matched 11 captures := by
  have ascii : ∀ c ∈ "x12 3.5, +7 8".toList.toArray, isDecimalDigit c = true → c.toNat < 128 := by
    simp
  have returned : (around (Numeral.pattern .integer .positive)).searchFrom
      "x12 3.5, +7 8".toList.toArray 100 0 = .ok (some ⟨9, 11, []⟩) := by cbv
  -- The second conjunct does not depend on the search, so it is used at the place that was found.
  obtain ⟨answers, places⟩ := search_finds_first_numeral ascii .integer .positive
  have first := answers 100 _ returned
  exact ⟨_, rfl, ascii, returned, first, (places 9 11 (by decide)).mpr first.2.1⟩

end WordBoundary

end Gleaner
