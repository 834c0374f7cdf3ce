import Gleaner.Proofs.Regex.Running

/-!
# Groups do not change what matches

Without its groups a pattern is matched by the same moves, except that no group is entered or left.
Entering and leaving a group costs nothing and puts no thread aside. So a run with groups and a run
without them come to the same end, whatever the budget and the room.
-/

namespace Gleaner

/-- A pattern without any of its groups. -/
def Regex.ungrouped : Regex → Regex
  | .seq first second => .seq first.ungrouped second.ungrouped
  | .alt first second => .alt first.ungrouped second.ungrouped
  | .optional body => .optional body.ungrouped
  | .star greed body => .star greed body.ungrouped
  | .plus greed body => .plus greed body.ungrouped
  | .group _ body => body.ungrouped
  | regex => regex

/-- A task without groups; the end of a group is none. -/
def Task.ungrouped? : Task → Option Task
  | .read regex => some (.read regex.ungrouped)
  | .close _ _ => none
  | .again greed body since => some (.again greed body.ungrouped since)

def Thread.ungrouped (thread : Thread) : Thread :=
  ⟨thread.todo.filterMap Task.ungrouped?, thread.pos, []⟩

def Move.ungrouped : Move → Move
  | .accept => .accept
  | .stuck aside => .stuck aside
  | .go next => .go next.ungrouped
  | .fork next other => .fork next.ungrouped other.ungrouped

/-- An outcome without its captures. -/
def Outcome.uncaptured : Outcome → Outcome
  | .matched stop _ => .matched stop []
  | other => other

@[simp] theorem Regex.ungrouped_append (first second : Regex) :
    (first ++ second).ungrouped = first.ungrouped ++ second.ungrouped := rfl

@[simp] theorem Regex.ungrouped_concat (parts : List Regex) :
    (Regex.concat parts).ungrouped = Regex.concat (parts.map Regex.ungrouped) := by
  induction parts with
  | nil => rfl
  | cons first rest ih =>
    cases rest with
    | nil => rfl
    | cons second rest => exact congrArg (first.ungrouped ++ ·) ih

/-! ### One move -/

private theorem Thread.ungrouped_turn (thread : Thread) (greed : Greed) (body : Regex)
    (rest : List Task) :
    (thread.turn greed body rest).ungrouped =
      thread.ungrouped.turn greed body.ungrouped (rest.filterMap Task.ungrouped?) := by
  cases greed <;> simp [turn, choose, Move.ungrouped, ungrouped, Task.ungrouped?]

private theorem Thread.ungrouped_goIf (thread : Thread) (ok : Bool) (rest : List Task) :
    (thread.goIf ok rest).ungrouped =
      thread.ungrouped.goIf ok (rest.filterMap Task.ungrouped?) := by
  cases ok <;> simp [goIf, Move.ungrouped, ungrouped]

private theorem Thread.ungrouped_goUnless (thread : Thread) (found : Bool) (probe : Regex)
    (rest : List Task) :
    (thread.goUnless found probe rest).ungrouped =
      thread.ungrouped.goUnless found probe.ungrouped (rest.filterMap Task.ungrouped?) := by
  cases found <;> simp [goUnless, choose, Move.ungrouped, ungrouped, Task.ungrouped?]

/-- A move enters or leaves a group, or is made without groups, too. -/
theorem Thread.ungrouped_move (text : Array Char) (thread : Thread) :
    (∃ next, thread.move text = .go next ∧ next.ungrouped = thread.ungrouped) ∨
      thread.ungrouped.move text = (thread.move text).ungrouped := by
  obtain ⟨todo, pos, captures⟩ := thread
  -- Only the two moves at the ends of a group have no counterpart.
  cases todo with
  | nil => exact Or.inr rfl
  | cons task rest =>
    cases task with
    -- The end of a group is no task without groups.
    | close name start => exact Or.inl ⟨_, rfl, rfl⟩
    | again greed body since =>
      refine Or.inr ?_
      by_cases same : since = pos
      · simp [ungrouped, Task.ungrouped?, move, same, Move.ungrouped]
      · have turns := ungrouped_turn ⟨.again greed body since :: rest, pos, captures⟩ greed body rest
        simpa [ungrouped, Task.ungrouped?, move, same] using turns.symm
    | read regex =>
      cases regex with
      | group kind body =>
        -- Without groups there is nothing to enter: the thread is already where this move leads.
        refine Or.inl ?_
        cases kind with
        | plain | bundle => exact ⟨_, rfl, rfl⟩
        | named name => exact ⟨_, rfl, rfl⟩
      | empty => exact Or.inr rfl
      | char set =>
        refine Or.inr ?_
        simp only [ungrouped, Task.ungrouped?, Regex.ungrouped, move, List.filterMap_cons]
        split
        next => split <;> simp [Move.ungrouped, ungrouped]
        next => rfl
      | textStart | textEnd =>
        refine Or.inr ?_
        simp only [move]
        rw [ungrouped_goIf]
        rfl
      | look side wanted set =>
        refine Or.inr ?_
        cases wanted with
        | true => exact (ungrouped_goIf _ _ rest).symm
        | false => exact (ungrouped_goUnless _ _ (.look side true set) rest).symm
      | seq first second => exact Or.inr rfl
      | alt first second => exact Or.inr rfl
      | optional body => exact Or.inr rfl
      | star greed body =>
        refine Or.inr ?_
        simp only [move]
        rw [ungrouped_turn]
        rfl
      | plus greed body => exact Or.inr rfl

/-! ### Whole runs -/

private theorem Thread.ungrouped_move_of_ne_go {text : Array Char} {thread : Thread}
    (other : ∀ next, thread.move text ≠ .go next) :
    thread.ungrouped.move text = (thread.move text).ungrouped := by
  rcases thread.ungrouped_move text with ⟨next, goes, -⟩ | same
  · exact absurd goes (other next)
  · exact same

/-- A run comes to the same end without groups. -/
theorem run_ungrouped (text : Array Char) (budget room : Nat) (thread : Thread)
    (later : List Thread) :
    run text budget room thread.ungrouped (later.map Thread.ungrouped) =
      (run text budget room thread later).uncaptured := by
  -- On the run with groups; the other one waits while a group is entered or left.
  fun_induction run text budget room thread later with
  | case1 budget room thread later moves =>
    rw [run_eq, Thread.ungrouped_move_of_ne_go (by simp [moves]), moves]
    rfl
  | case2 budget room thread later next moves ih =>
    rw [← ih]
    rcases thread.ungrouped_move text with ⟨next', goes, stays⟩ | same
    · -- A group is entered or left, and the run without groups has not moved.
      rw [moves, Move.go.injEq] at goes
      rw [goes, stays]
    · rw [run_eq, same, moves]
      rfl
  -- A choice without room, then one with room.
  | case3 budget thread later next other moves =>
    rw [run_eq, Thread.ungrouped_move_of_ne_go (by simp [moves]), moves]
    rfl
  | case4 budget thread later next other moves room ih =>
    rw [← ih, run_eq, Thread.ungrouped_move_of_ne_go (by simp [moves]), moves]
    rfl
  -- A stuck thread: there was no room to find that out, there is no other, no budget for it, or it
  -- is taken up.
  | case5 budget room thread later aside moves space =>
    rw [run_eq, Thread.ungrouped_move_of_ne_go (by simp [moves]), moves]
    exact if_pos space
  | case6 budget room thread aside moves space =>
    rw [run_eq, Thread.ungrouped_move_of_ne_go (by simp [moves]), moves]
    exact if_neg space
  | case7 room thread aside moves space other later =>
    rw [run_eq, Thread.ungrouped_move_of_ne_go (by simp [moves]), moves]
    exact if_neg space
  | case8 room thread aside moves space other later budget ih =>
    rw [← ih, run_eq, Thread.ungrouped_move_of_ne_go (by simp [moves]), moves]
    exact if_neg space

namespace Regex

/-- Two patterns come to the same end from every place, within any budget and room. -/
def EndsLike (first second : Regex) : Prop :=
  ∀ text budget room start,
    (first.matchAt text budget room start).uncaptured =
      (second.matchAt text budget room start).uncaptured

theorem matchAt_ungrouped (regex : Regex) (text : Array Char) (budget room start : Nat) :
    regex.ungrouped.matchAt text budget room start =
      (regex.matchAt text budget room start).uncaptured :=
  run_ungrouped text budget room ⟨[.read regex], start, []⟩ []

/-- Patterns that differ only in their groups come to the same end. -/
theorem endsLike_of_ungrouped {first second : Regex} (same : first.ungrouped = second.ungrouped) :
    first.EndsLike second := by
  intro text budget room start
  rw [← matchAt_ungrouped, ← matchAt_ungrouped, same]

end Regex

end Gleaner
