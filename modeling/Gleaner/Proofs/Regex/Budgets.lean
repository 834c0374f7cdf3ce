import Gleaner.Proofs.Regex.Running
import Gleaner.Regex.Search

/-!
# More budget keeps every answer

A budget is only ever compared with nothing left, when a thread that was put aside is taken up or a
place is left for the next. A run that does not fail for lack of budget therefore makes the same
moves with a larger one and comes to the same end, with the surplus unused. So does a search, and so
do all searches of a text. How much room there is for threads has nothing to do with the budget: a
run that is short of room stays short of it.
-/

namespace Gleaner

/-- The same outcome with a surplus of budget. -/
def Outcome.sparing (surplus : Nat) : Outcome → Outcome
  | .failed budget => .failed (budget + surplus)
  | outcome => outcome

theorem run_add_budget (text : Array Char) (budget room : Nat) (thread : Thread)
    (later : List Thread) (surplus : Nat)
    (enough : run text budget room thread later ≠ .exhausted) :
    run text (budget + surplus) room thread later =
      (run text budget room thread later).sparing surplus := by
  -- Both runs make the same move; only taking up a thread looks at the budget.
  fun_induction run text budget room thread later with
  | case1 budget room thread later moves =>
    rw [run_eq, moves]
    rfl
  | case2 budget room thread later next moves ih =>
    rw [run_eq, moves]
    exact ih enough
  | case3 budget thread later next other moves =>
    rw [run_eq, moves]
    rfl
  | case4 budget thread later next other moves room ih =>
    rw [run_eq, moves]
    exact ih enough
  | case5 budget room thread later aside moves space =>
    rw [run_eq, moves]
    exact if_pos space
  | case6 budget room thread aside moves space =>
    rw [run_eq, moves]
    exact if_neg space
  | case7 => exact absurd rfl enough
  | case8 room thread aside moves space other later budget ih =>
    rw [run_eq, moves, Nat.succ_add]
    exact (if_neg space).trans (ih enough)

namespace Regex

theorem matchAt_add_budget (regex : Regex) (text : Array Char) (budget room start surplus : Nat)
    (enough : regex.matchAt text budget room start ≠ .exhausted) :
    regex.matchAt text (budget + surplus) room start =
      (regex.matchAt text budget room start).sparing surplus :=
  run_add_budget text budget room _ [] surplus enough

/-- A search that answers gives the same answer with a larger budget. -/
theorem searchFrom_add_budget (regex : Regex) (text : Array Char) (budget pos surplus : Nat)
    {found? : Option Match} (returned : regex.searchFrom text budget pos = .ok found?) :
    regex.searchFrom text (budget + surplus) pos = .ok found? := by
  have kept := fun budget pos => regex.matchAt_add_budget text budget (searchRoom - 1) pos surplus
  fun_induction searchFrom regex text budget pos with
  | case1 budget pos stop captures matched =>
    rw [searchFrom, kept _ _ (by simp [matched]), matched]
    exact returned
  | case2 => cases returned
  | case3 => cases returned
  | case4 => cases returned
  | case5 budget pos left more failed ih =>
    -- What is left after this place is larger by the surplus, too, and pays for the next one.
    have next : regex.searchFrom text (budget + surplus) pos =
        regex.searchFrom text (left + surplus) (pos + 1) := by
      rw [searchFrom, kept _ _ (by simp [failed]), failed, Outcome.sparing, Nat.succ_add]
      simp only [more, if_true]
    rw [next]
    exact ih returned
  | case6 budget pos left ended failed =>
    rw [searchFrom, kept _ _ (by simp [failed]), failed, Outcome.sparing, Nat.succ_add]
    simp only [ended, if_false]
    exact returned

private theorem matchesFrom_add_budget (regex : Regex) (text : Array Char)
    (budget pos surplus : Nat) (earlier : List Match) {all : List Match}
    (returned : regex.matchesFrom text budget pos earlier = .ok all) :
    regex.matchesFrom text (budget + surplus) pos earlier = .ok all := by
  -- Every search of the text begins with the whole budget.
  fun_induction matchesFrom regex text budget pos earlier with
  | case1 => cases returned
  | case2 pos earlier inside ended =>
    rw [matchesFrom, if_pos inside, searchFrom_add_budget regex text budget pos surplus ended]
    exact returned
  | case3 pos earlier inside next found isEmpty ih =>
    rw [matchesFrom, if_pos inside, searchFrom_add_budget regex text budget pos surplus found]
    simp only [isEmpty, if_true]
    exact ih returned
  | case4 pos earlier inside next found notEmpty ih =>
    rw [matchesFrom, if_pos inside, searchFrom_add_budget regex text budget pos surplus found]
    simp only [notEmpty]
    exact ih returned
  | case5 pos earlier outside =>
    rw [matchesFrom, if_neg outside]
    exact returned

theorem matchesIn_mono_budget {regex : Regex} {text : Array Char} {budget budget' : Nat}
    (le : budget ≤ budget') {all : List Match}
    (returned : regex.matchesIn text budget = .ok all) :
    regex.matchesIn text budget' = .ok all := by
  obtain ⟨surplus, rfl⟩ := Nat.exists_eq_add_of_le le
  exact matchesFrom_add_budget regex text budget 0 surplus [] returned

end Regex

end Gleaner
