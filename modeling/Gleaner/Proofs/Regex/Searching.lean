import Gleaner.Proofs.Regex.Running
import Gleaner.Regex.Search

/-!
# Searches find the leftmost preferred ways

A search that answers has found the first place with a way, and the preferred way from there. The
matches of a whole text are described by a relation that follows the search from match to match
and says nothing about budgets: `Finds`. Two lists of matches that it allows are equal, so a list
of matches is known as soon as one can be shown to be allowed.
-/

namespace Gleaner.Regex

/-- The first place with a way, from `pos` on, and the preferred way from there. -/
structure FirstFrom (regex : Regex) (text : Array Char) (pos : Nat) (found : Match) : Prop where
  behind : pos ≤ found.start
  inside : found.start ≤ text.size
  skipped : ∀ place, pos ≤ place → place < found.start → regex.ways text place = []
  preferred : (regex.ways text found.start).head? = some ⟨found.stop, found.captures⟩

/-- There is no way from any place, from `pos` on. -/
def NoneFrom (regex : Regex) (text : Array Char) (pos : Nat) : Prop :=
  ∀ place, pos ≤ place → place ≤ text.size → regex.ways text place = []

/-- What a search has to answer. -/
def SearchSpec (regex : Regex) (text : Array Char) (pos : Nat) : Option Match → Prop
  | some found => regex.FirstFrom text pos found
  | none => regex.NoneFrom text pos

theorem FirstFrom.forward {regex : Regex} {text : Array Char} {pos : Nat} {found : Match}
    (first : regex.FirstFrom text pos found) : found.start ≤ found.stop :=
  (within_ways text regex found.start _ (List.mem_of_mem_head? first.preferred)).1

theorem FirstFrom.unique {regex : Regex} {text : Array Char} {pos : Nat} {found found' : Match}
    (first : regex.FirstFrom text pos found) (first' : regex.FirstFrom text pos found') :
    found = found' := by
  -- Whichever begins earlier would have been skipped by the other search.
  have same : found.start = found'.start := by
    rcases Nat.lt_trichotomy found.start found'.start with less | same | less
    · have none := first'.skipped found.start first.behind less
      have some := first.preferred
      rw [none] at some
      cases some
    · exact same
    · have none := first.skipped found'.start first'.behind less
      have some := first'.preferred
      rw [none] at some
      cases some
  have ways := first.preferred
  rw [same, first'.preferred, Option.some.injEq, Way.mk.injEq] at ways
  obtain ⟨start, stop, captures⟩ := found
  obtain ⟨start', stop', captures'⟩ := found'
  simp only [Match.mk.injEq] at *
  exact ⟨same, ways.1.symm, ways.2.symm⟩

/-- A first match begins no further right than any way. -/
theorem FirstFrom.start_le {regex : Regex} {text : Array Char} {pos place : Nat} {found : Match}
    (first : regex.FirstFrom text pos found) (from_ : pos ≤ place)
    (ways : regex.ways text place ≠ []) : found.start ≤ place := by
  by_contra before
  exact ways (first.skipped place from_ (Nat.not_le.mp before))

theorem not_noneFrom {regex : Regex} {text : Array Char} {pos : Nat} {found : Match}
    (first : regex.FirstFrom text pos found) : ¬regex.NoneFrom text pos := by
  intro none
  have some := first.preferred
  rw [none found.start first.behind first.inside] at some
  cases some

/-- A search begins further left, where there is nothing to be found. -/
theorem FirstFrom.extend {regex : Regex} {text : Array Char} {pos pos' : Nat} {found : Match}
    (le : pos' ≤ pos) (empty : ∀ place, pos' ≤ place → place < pos → regex.ways text place = [])
    (first : regex.FirstFrom text pos found) : regex.FirstFrom text pos' found where
  behind := Nat.le_trans le first.behind
  inside := first.inside
  skipped place from_ before := by
    by_cases early : place < pos
    · exact empty place from_ early
    · exact first.skipped place (Nat.not_lt.mp early) before
  preferred := first.preferred

/-- A search that answers is right. -/
theorem searchFrom_answers (regex : Regex) (text : Array Char) (budget pos : Nat)
    (start : pos ≤ text.size) {found? : Option Match}
    (returned : regex.searchFrom text budget pos = .ok found?) :
    regex.SearchSpec text pos found? := by
  fun_induction searchFrom regex text budget pos with
  | case1 budget pos stop captures matched =>
    cases returned
    have answers := matchAt_answers regex text budget (searchRoom - 1) pos
    rw [matched] at answers
    exact ⟨Nat.le_refl _, start, fun place from_ before => absurd from_ (Nat.not_le.mpr before),
      answers⟩
  | case2 => cases returned
  | case3 => cases returned
  | case4 => cases returned
  | case5 budget pos left more failed ih =>
    have here : regex.ways text pos = [] := by
      have answers := matchAt_answers regex text budget (searchRoom - 1) pos
      rw [failed] at answers
      exact answers
    -- Nothing begins here, so the answer is that of the search from the next place.
    have rest := ih more returned
    cases found? with
    | some found =>
      refine FirstFrom.extend (Nat.le_succ pos) ?_ rest
      intro place from_ before
      rw [show place = pos by omega]
      exact here
    | none =>
      intro place from_ inside
      by_cases same : place = pos
      · rw [same]
        exact here
      · exact rest place (by omega) inside
  | case6 budget pos left ended failed =>
    cases returned
    have answers := matchAt_answers regex text budget (searchRoom - 1) pos
    rw [failed] at answers
    intro place from_ inside
    rw [show place = pos by omega]
    exact answers

/-! ### All matches of a text -/

/-- The non-empty matches that are found from a place on, one after the other. -/
inductive Finds (regex : Regex) (text : Array Char) : Nat → List Match → Prop where
  /-- Nothing is left to be found. -/
  | nothing {pos : Nat} (none : regex.NoneFrom text pos) : Finds regex text pos []
  /-- An empty match is passed over, together with the character behind it. -/
  | empty {pos : Nat} {first : Match} {rest : List Match}
      (found : regex.FirstFrom text pos first) (empty : first.stop = first.start)
      (others : Finds regex text (first.stop + 1) rest) : Finds regex text pos rest
  | found {pos : Nat} {first : Match} {rest : List Match}
      (found : regex.FirstFrom text pos first) (moved : first.start < first.stop)
      (others : Finds regex text first.stop rest) : Finds regex text pos (first :: rest)

theorem Finds.unique {regex : Regex} {text : Array Char} {pos : Nat} {all all' : List Match}
    (finds : regex.Finds text pos all) (finds' : regex.Finds text pos all') : all = all' := by
  -- A first match is unique, so the two lists were built by the same steps.
  induction finds generalizing all' with
  | nothing none =>
    cases finds' with
    | nothing => rfl
    | empty found => exact absurd none (not_noneFrom found)
    | found found => exact absurd none (not_noneFrom found)
  | empty found empty _ ih =>
    cases finds' with
    | nothing none => exact absurd none (not_noneFrom found)
    | empty found' _ others =>
      cases found.unique found'
      exact ih others
    | found found' moved =>
      cases found.unique found'
      omega
  | found found moved _ ih =>
    cases finds' with
    | nothing none => exact absurd none (not_noneFrom found)
    | empty found' empty =>
      cases found.unique found'
      omega
    | found found' _ others =>
      cases found.unique found'
      rw [ih others]

theorem Finds.extend {regex : Regex} {text : Array Char} {pos pos' : Nat} {all : List Match}
    (le : pos' ≤ pos) (none : ∀ place, pos' ≤ place → place < pos → regex.ways text place = [])
    (finds : regex.Finds text pos all) : regex.Finds text pos' all := by
  cases finds with
  | nothing ended =>
    refine .nothing fun place from_ inside => ?_
    by_cases early : place < pos
    · exact none place from_ early
    · exact ended place (Nat.not_lt.mp early) inside
  | empty found empty others => exact .empty (found.extend le none) empty others
  | found found moved others => exact .found (found.extend le none) moved others

/-- Every match that is found is the preferred one from its start, and not empty. -/
theorem Finds.of_mem {regex : Regex} {text : Array Char} {pos : Nat} {all : List Match}
    (finds : regex.Finds text pos all) {found : Match} (member : found ∈ all) :
    regex.FirstFrom text found.start found ∧ pos ≤ found.start ∧ found.start < found.stop := by
  -- A first match is still the first one if the search begins where it stands.
  have restart : ∀ {pos : Nat} {first : Match}, regex.FirstFrom text pos first →
      regex.FirstFrom text first.start first := fun first =>
    ⟨Nat.le_refl _, first.inside, fun _ from_ before => absurd from_ (Nat.not_le.mpr before),
      first.preferred⟩
  induction finds with
  | nothing => cases member
  | empty first empty _ ih =>
    obtain ⟨found, behind, moved⟩ := ih member
    -- The search went on behind the empty match, and so behind the place where it began.
    have := first.behind
    exact ⟨found, by omega, moved⟩
  | found first moved _ ih =>
    rcases List.mem_cons.mp member with rfl | member
    · exact ⟨restart first, first.behind, moved⟩
    · obtain ⟨found, behind, moved'⟩ := ih member
      have := first.behind
      exact ⟨found, by omega, moved'⟩

/-- Matches follow one another and do not overlap. -/
theorem Finds.pairwise {regex : Regex} {text : Array Char} {pos : Nat} {all : List Match}
    (finds : regex.Finds text pos all) :
    all.Pairwise fun earlier later => earlier.stop ≤ later.start := by
  induction finds with
  | nothing => exact .nil
  | empty _ _ _ ih => exact ih
  | found _ _ others ih => exact .cons (fun later member => (others.of_mem member).2.1) ih

theorem FirstFrom.stop_le {regex : Regex} {text : Array Char} {pos : Nat} {found : Match}
    (first : regex.FirstFrom text pos found) : found.stop ≤ text.size := by
  have within := within_ways text regex found.start _ (List.mem_of_mem_head? first.preferred)
  have inside := first.inside
  rcases within.2 with same | bound
  · exact Nat.le_trans (Nat.le_of_eq same) inside
  · exact bound

private theorem matchesFrom_finds (regex : Regex) (text : Array Char) (budget pos : Nat)
    (earlier : List Match) {all : List Match}
    (returned : regex.matchesFrom text budget pos earlier = .ok all) :
    ∃ rest, all = earlier.reverse ++ rest ∧ regex.Finds text pos rest := by
  -- Matches are collected with the last one first.
  fun_induction matchesFrom regex text budget pos earlier with
  | case1 => cases returned
  | case2 pos earlier inside ended =>
    cases returned
    exact ⟨[], (List.append_nil _).symm, .nothing (searchFrom_answers regex text budget pos inside ended)⟩
  | case3 pos earlier inside next found isEmpty ih =>
    have first : regex.FirstFrom text pos next :=
      searchFrom_answers regex text budget pos inside found
    have forward := first.forward
    have behind := first.behind
    simp only [Match.isEmpty, decide_eq_true_eq] at isEmpty
    obtain ⟨rest, all_eq, finds⟩ := ih returned
    refine ⟨rest, all_eq, .empty first (by omega) ?_⟩
    rwa [Nat.max_eq_right (by omega)] at finds
  | case4 pos earlier inside next found notEmpty ih =>
    have first : regex.FirstFrom text pos next :=
      searchFrom_answers regex text budget pos inside found
    have behind := first.behind
    simp only [Match.isEmpty, decide_eq_true_eq] at notEmpty
    obtain ⟨rest, all_eq, finds⟩ := ih returned
    refine ⟨next :: rest, by simpa using all_eq, .found first (by omega) ?_⟩
    rwa [Nat.max_eq_right (by omega)] at finds
  | case5 pos earlier outside =>
    cases returned
    exact ⟨[], (List.append_nil _).symm, .nothing fun place from_ inside => by omega⟩

/-- The matches of a text are found one after the other from its start. -/
theorem matchesIn_finds {regex : Regex} {text : Array Char} {budget : Nat} {all : List Match}
    (returned : regex.matchesIn text budget = .ok all) : regex.Finds text 0 all := by
  obtain ⟨rest, rfl, finds⟩ := matchesFrom_finds regex text budget 0 [] returned
  exact finds

end Gleaner.Regex
