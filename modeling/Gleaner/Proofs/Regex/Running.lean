import Gleaner.Proofs.Regex.Ways

/-!
# The machine finds the preferred way

A run of the machine that ends with an answer ends with the first of the ways that are left to it,
and fails only if there is none. Conversely some budget and some room are enough for an answer, so
a pattern is matched at a place exactly if it has a way from there.

The argument is on one move: what a thread can still come to is what its next move can come to,
the preferred part first.
-/

namespace Gleaner

/-! ### What a thread can come to -/

/-- The ways of doing a task from a place. -/
def Task.ways (text : Array Char) : Task → Nat → List Way
  | .read regex, pos => regex.ways text pos
  | .close name start, pos => [(Way.stay pos).closing name start]
  | .again greed body since, pos =>
    if since = pos then [] else (Regex.star greed body).ways text pos

/-- The ways of doing some tasks one after the other. -/
def Task.waysOf (text : Array Char) : List Task → Nat → List Way
  | [], pos => [.stay pos]
  | task :: rest, pos => Way.chain (task.ways text pos) (waysOf text rest)

/-- The ways in which a thread can come to an end. -/
def Thread.ways (text : Array Char) (thread : Thread) : List Way :=
  Way.chain [⟨thread.pos, thread.captures⟩] (Task.waysOf text thread.todo)

/-- The ways that a move of a thread leaves open. -/
def Move.ways (text : Array Char) (thread : Thread) : Move → List Way
  | .accept => [⟨thread.pos, thread.captures⟩]
  | .stuck _ => []
  | .go next => next.ways text
  | .fork next other => next.ways text ++ other.ways text

private theorem Thread.ways_goIf (text : Array Char) (thread : Thread) (ok : Bool)
    (rest : List Task) :
    (thread.goIf ok rest).ways text thread =
      Way.chain [⟨thread.pos, thread.captures⟩] fun pos =>
        Way.chain (if ok then [.stay pos] else []) (Task.waysOf text rest) := by
  cases ok <;> simp [goIf, Move.ways, Thread.ways]

private theorem Thread.ways_turn (text : Array Char) (thread : Thread) (greed : Greed)
    (body : Regex) (rest : List Task) :
    (thread.turn greed body rest).ways text thread =
      Way.chain [⟨thread.pos, thread.captures⟩] fun pos =>
        Way.chain ((Regex.star greed body).ways text pos) (Task.waysOf text rest) := by
  -- The task behind a round drops the rounds that have read nothing, as the filter does.
  have round : ∀ pos, Task.waysOf text (.read body :: .again greed body pos :: rest) pos =
      Way.chain (Way.chain ((body.ways text pos).filter fun way => way.stop ≠ pos)
        ((Regex.star greed body).ways text)) (Task.waysOf text rest) := by
    intro pos
    rw [Way.chain_filter, Way.chain_assoc]
    rfl
  simp only [Way.chain_cons, Way.chain_nil, List.append_nil]
  rw [Regex.ways_star]
  cases greed with
  | greedy => simp [turn, choose, Move.ways, Thread.ways, Greed.order, round]
  | lazy => simp [turn, choose, Move.ways, Thread.ways, Greed.order, round]

/-- A move leaves open exactly the ways of its thread, in the same order. -/
theorem Thread.ways_move (text : Array Char) (thread : Thread) :
    (thread.move text).ways text thread = thread.ways text := by
  obtain ⟨todo, pos, captures⟩ := thread
  -- One case for each move that a thread can make.
  cases todo with
  | nil => simp [move, Move.ways, ways, Task.waysOf, Way.after, Way.stay]
  | cons task rest =>
    cases task with
    | close name start =>
      simp [move, Move.ways, ways, Task.waysOf, Task.ways, Way.after, Way.stay, Way.closing,
        Function.comp_def]
    | again greed body since =>
      simp only [move, ways, Task.waysOf, Task.ways]
      split
      next same => simp [Move.ways, same]
      next moved => simp [ways_turn, moved]
    | read regex =>
      simp only [move, ways, Task.waysOf, Task.ways]
      cases regex with
      | empty => simp [Move.ways, ways, Regex.ways]
      | char set =>
        cases at_ : text[pos]? with
        | none => simp [Move.ways, Regex.ways, at_]
        | some c =>
          by_cases member : set.has c = true
          · simp [Move.ways, ways, Regex.ways, at_, member, Way.after]
          · simp [Move.ways, Regex.ways, at_, member]
      | textStart => simp [ways_goIf, Regex.ways]
      | textEnd => simp [ways_goIf, Regex.ways]
      | look side wanted set =>
        cases wanted with
        | true => simp [ways_goIf, Regex.ways]
        | false =>
          -- Looking for the neighbour comes to nothing, so that only the thread put aside is left.
          cases found : (side.neighbour? text pos).any set.has <;>
            simp [goUnless, choose, Move.ways, ways, Task.waysOf, Task.ways, Regex.ways, found]
      | seq first second => simp [Move.ways, ways, Task.waysOf, Task.ways, Regex.ways, Way.chain_assoc]
      | alt first second => simp [choose, Move.ways, ways, Task.waysOf, Task.ways, Regex.ways]
      | optional body => simp [choose, Move.ways, ways, Task.waysOf, Task.ways, Regex.ways]
      | star greed body => simp [ways_turn]
      | plus greed body =>
        simp [Move.ways, ways, Task.waysOf, Task.ways, Regex.ways_plus, Way.chain_assoc]
      | group kind body =>
        cases kind with
        | plain | bundle => simp [Move.ways, ways, Task.waysOf, Task.ways, Regex.ways]
        | named name =>
          -- The end of the group is a task of its own, behind the body.
          simp only [Move.ways, ways, Task.waysOf, Task.ways, Regex.ways, Way.chain_closing,
            Way.chain_assoc]
          rfl

/-! ### Every answer is the preferred way -/

/-- An outcome is right about the ways that were left. Giving up is always right. -/
def Outcome.Answers (left : List Way) : Outcome → Prop
  | .matched stop captures => left.head? = some ⟨stop, captures⟩
  | .failed _ => left = []
  | .exhausted | .crowded => True

theorem run_answers (text : Array Char) (budget room : Nat) (thread : Thread)
    (later : List Thread) :
    (run text budget room thread later).Answers
      (thread.ways text ++ later.flatMap (Thread.ways text)) := by
  -- One case for each way in which a run goes on; `ways_move` says what the move leaves open.
  fun_induction run text budget room thread later with
  -- The thread is done.
  | case1 budget room thread later moves =>
    rw [← thread.ways_move, moves]
    rfl
  -- It goes on in one way.
  | case2 budget room thread later next moves ih =>
    rw [← thread.ways_move, moves]
    exact ih
  -- It would put one aside, for which there is no room.
  | case3 => trivial
  -- It goes on and puts one aside, which comes before those put aside earlier.
  | case4 budget thread later next other moves room ih =>
    rw [← thread.ways_move, moves]
    simpa [Move.ways] using ih
  -- It is stuck behind something for which there was no room.
  | case5 => trivial
  -- It is stuck, and there is no other.
  | case6 budget room thread aside moves =>
    rw [← thread.ways_move, moves]
    rfl
  -- It is stuck, and there is another, but no budget for it.
  | case7 => trivial
  -- It is stuck, and the one put aside last is taken up.
  | case8 room thread aside moves space other later budget ih =>
    rw [← thread.ways_move, moves]
    exact ih

/-! ### Some budget and some room are enough -/

/-- What a run comes to when its thread is stuck. -/
def resume (text : Array Char) (budget room : Nat) (later : List Thread) : Outcome :=
  match later, budget with
  | [], _ => .failed budget
  | _ :: _, 0 => .exhausted
  | other :: later, budget + 1 => run text budget (room + 1) other later

/-- One move of a run. -/
theorem run_eq (text : Array Char) (budget room : Nat) (thread : Thread) (later : List Thread) :
    run text budget room thread later =
      match thread.move text with
      | .accept => .matched thread.pos thread.captures
      | .go next => run text budget room next later
      | .fork next other =>
        match room with
        | 0 => .crowded
        | room + 1 => run text budget room next (other :: later)
      | .stuck aside =>
        if aside && room = 0 then .crowded else resume text budget room later := by
  -- The definition carries equations for its termination, which are dropped here.
  rw [run.eq_def]
  split
  next moves => simp only [moves]
  next next moves => simp only [moves]
  next next other moves => cases room <;> simp only [moves]
  next aside moves =>
    simp only [moves]
    split
    · rfl
    · cases later with
      | nil => rfl
      | cons other later => cases budget <;> rfl

private theorem Thread.turn_other_below (text : Array Char) (thread : Thread) (greed : Greed)
    (body : Regex) (rest : List Task)
    (heavy : body.weight + 1 + Task.weights thread.pos rest < thread.weight)
    {next other : Thread} (forks : thread.turn greed body rest = .fork next other) :
    other.Below text thread := by
  cases greed <;> simp only [turn, choose, Move.fork.injEq] at forks <;> obtain ⟨-, rfl⟩ := forks
  all_goals
    refine Or.inr ⟨rfl, ?_⟩
    simp only [weight, Task.weights, Task.weight, if_true] at *
    omega

/-- A thread that is put aside has less before it, too. -/
theorem Thread.fork_below {text : Array Char} {thread next other : Thread}
    (forks : thread.move text = .fork next other) : other.Below text thread := by
  obtain ⟨todo, pos, captures⟩ := thread
  cases todo with
  | nil => simp [move] at forks
  | cons task rest =>
    cases task with
    | close name start => simp [move] at forks
    | again greed body since =>
      simp only [move] at forks
      split at forks
      next => cases forks
      next moved =>
        exact turn_other_below text _ greed body rest
          (by simp [weight, Task.weights, Task.weight, moved]) forks
    | read regex =>
      -- Only a choice puts a thread aside, and looking for what should not be there.
      cases regex with
      | empty | seq | plus => simp [move] at forks
      | textStart | textEnd =>
        simp only [move, goIf] at forks
        split at forks <;> cases forks
      | look side wanted set =>
        simp only [move, goIf, goUnless] at forks
        split at forks
        next => split at forks <;> cases forks
        next unwanted =>
          split at forks
          · cases forks
          · simp only [choose, Move.fork.injEq] at forks
            obtain ⟨-, rfl⟩ := forks
            exact Or.inr ⟨rfl, by simp [weight, Task.weights, Task.weight, Regex.weight, unwanted]⟩
      | char set =>
        simp only [move] at forks
        split at forks
        next => split at forks <;> cases forks
        next => cases forks
      | alt first second =>
        simp only [move, choose, Move.fork.injEq] at forks
        obtain ⟨-, rfl⟩ := forks
        refine Or.inr ⟨rfl, ?_⟩
        simp only [weight, Task.weights, Task.weight, Regex.weight]
        omega
      | optional body =>
        simp only [move, choose, Move.fork.injEq] at forks
        obtain ⟨-, rfl⟩ := forks
        refine Or.inr ⟨rfl, ?_⟩
        simp only [weight, Task.weights, Task.weight, Regex.weight]
        omega
      | star greed body =>
        exact turn_other_below text _ greed body rest
          (by simp [weight, Task.weights, Task.weight, Regex.weight]) forks
      | group kind body => cases kind <;> simp [move] at forks

theorem Thread.Below.lex {text : Array Char} {next thread : Thread} (below : next.Below text thread) :
    Prod.Lex (· < ·) (· < ·) (text.size - next.pos, next.weight)
      (text.size - thread.pos, thread.weight) := by
  rcases below with less | ⟨same, less⟩
  · exact Prod.Lex.left _ _ less
  · rw [same]
    exact Prod.Lex.right _ less

/-- Beyond some budget and some room, a thread is followed to its first way, or to the next thread
that was put aside. -/
theorem Thread.run_enough (text : Array Char) (thread : Thread) :
    ∃ cost extra, ∀ budget room later,
      run text (budget + cost) (room + extra) thread later =
        match thread.ways text with
        | [] => resume text budget (room + extra) later
        | way :: _ => .matched way.stop way.captures := by
  -- On what the thread has before it, as for the run itself.
  rw [← thread.ways_move]
  cases moves : thread.move text with
  | accept =>
    refine ⟨0, 0, fun budget room later => ?_⟩
    rw [run_eq, moves]
    rfl
  | stuck aside =>
    -- There is room for one thread, if it had to be put aside.
    refine ⟨0, 1, fun budget room later => ?_⟩
    rw [run_eq, moves]
    simp [Move.ways]
  | go next =>
    have below : next.Below text thread := move_below (by rw [moves]; rfl)
    obtain ⟨cost, extra, enough⟩ := next.run_enough text
    refine ⟨cost, extra, fun budget room later => ?_⟩
    rw [run_eq, moves]
    exact enough budget room later
  | fork next other =>
    have below : next.Below text thread := move_below (by rw [moves]; rfl)
    have below' := fork_below moves
    obtain ⟨cost, extra, enough⟩ := next.run_enough text
    obtain ⟨cost', extra', enough'⟩ := other.run_enough text
    -- The thread put aside takes room while the other is followed, and a unit to be taken up.
    refine ⟨cost' + 1 + cost, extra' + extra + 1, fun budget room later => ?_⟩
    have first := enough (budget + cost' + 1) (room + extra') (other :: later)
    have second := enough' budget (room + extra + 1) later
    have forked : run text (budget + (cost' + 1 + cost)) (room + (extra' + extra + 1)) thread later =
        run text (budget + cost' + 1 + cost) (room + extra' + extra) next (other :: later) := by
      have sum : budget + (cost' + 1 + cost) = budget + cost' + 1 + cost := by omega
      have space : room + (extra' + extra + 1) = room + extra' + extra + 1 := by omega
      rw [sum, space, run_eq, moves]
    rw [forked, first]
    -- If the preferred thread has a way, its first way is the first of all.
    cases ways : next.ways text with
    | cons way more => simp [Move.ways, ways]
    | nil =>
      -- The preferred thread comes to nothing, and the one put aside is taken up.
      have space : room + extra' + extra + 1 = room + extra + 1 + extra' := by omega
      have space' : room + (extra' + extra + 1) = room + extra + 1 + extra' := by omega
      simp only [Move.ways, ways, List.nil_append, space']
      change run text (budget + cost') (room + extra' + extra + 1) other later = _
      rw [space, second]
termination_by (text.size - thread.pos, thread.weight)
decreasing_by
  · exact below.lex
  · exact below.lex
  · exact below'.lex

/-! ### Matching at a place -/

namespace Regex

/-- A pattern can be matched from a place, given budget and room. -/
def MatchesAt (regex : Regex) (text : Array Char) (pos : Nat) : Prop :=
  ∃ budget room stop captures, regex.matchAt text budget room pos = .matched stop captures

private theorem ways_start (regex : Regex) (text : Array Char) (pos : Nat) :
    Thread.ways text ⟨[.read regex], pos, []⟩ = regex.ways text pos :=
  calc Thread.ways text ⟨[.read regex], pos, []⟩
      = Task.waysOf text [.read regex] pos := Way.chain_stay pos _
    _ = regex.ways text pos := Way.chain_stay_right _

theorem matchAt_answers (regex : Regex) (text : Array Char) (budget room pos : Nat) :
    (regex.matchAt text budget room pos).Answers (regex.ways text pos) := by
  -- A match begins with a single thread and none put aside.
  have answers := run_answers text budget room ⟨[.read regex], pos, []⟩ []
  rw [ways_start, List.flatMap_nil, List.append_nil] at answers
  exact answers

theorem exists_matchAt {regex : Regex} {text : Array Char} {pos : Nat} {way : Way}
    (first : (regex.ways text pos).head? = some way) :
    ∃ budget room, regex.matchAt text budget room pos = .matched way.stop way.captures := by
  obtain ⟨cost, extra, enough⟩ := Thread.run_enough text ⟨[.read regex], pos, []⟩
  obtain ⟨more, ways⟩ := List.head?_eq_some_iff.mp first
  refine ⟨0 + cost, 0 + extra, ?_⟩
  have found := enough 0 0 []
  rw [ways_start, ways] at found
  exact found

/-- A pattern is matched at the places from which it has a way. -/
theorem matchesAt_iff {regex : Regex} {text : Array Char} {pos : Nat} :
    regex.MatchesAt text pos ↔ regex.ways text pos ≠ [] := by
  constructor
  -- Every outcome that is a match answers for the ways, so there is one.
  · rintro ⟨budget, room, stop, captures, found⟩ none
    have answers := matchAt_answers regex text budget room pos
    rw [found, none] at answers
    cases answers
  -- Where there is a way, some budget and room lead to it.
  · intro left
    obtain ⟨way, more, ways⟩ := List.exists_cons_of_ne_nil left
    have first : (regex.ways text pos).head? = some way := by rw [ways]; rfl
    obtain ⟨budget, room, found⟩ := exists_matchAt first
    exact ⟨budget, room, way.stop, way.captures, found⟩

instance (regex : Regex) (text : Array Char) (pos : Nat) : Decidable (regex.MatchesAt text pos) :=
  decidable_of_iff _ matchesAt_iff.symm

end Regex

end Gleaner
