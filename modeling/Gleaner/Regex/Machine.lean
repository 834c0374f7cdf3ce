import Gleaner.Regex.Basic

/-!
# Matching by backtracking

A thread holds what is still to be matched, the place reached and the captures so far. Where a
pattern leaves a choice, the preferred thread goes on and the other is put aside; a stuck thread
is given up for the one put aside last. So the first thread that finishes is the preferred match.

There is room for only so many threads put aside at a time; a choice without room for one more ends
the matching. Every thread taken up again costs one unit of a budget. To see that a neighbour is not
there, the thread is put aside while the neighbour is looked for, and taken up again when it is not
found; this costs as much as any other choice.

Between two moments at which a thread is taken up, a thread either reads a character or shortens what
it has to do, except that a repetition starts over; it may do so only after its last round has read
something. This bounds the work, and is why a round that reads nothing is given up.
-/

namespace Gleaner

/-- The span of characters that a named group matched. -/
structure Capture where
  name : GroupName
  start : Nat
  stop : Nat
deriving DecidableEq, Repr, Inhabited

/-- Something a thread has still to do. -/
inductive Task where
  /-- Match a pattern. -/
  | read (regex : Regex)
  /-- Note the end of a group that was entered at `start`. -/
  | close (name : GroupName) (start : Nat)
  /-- Decide about another round of a repetition whose last round began at `since`. -/
  | again (greed : Greed) (body : Regex) (since : Nat)
deriving DecidableEq, Repr, Inhabited

/-- One way of matching that is being followed. Captures stand last first. -/
structure Thread where
  todo : List Task
  pos : Nat
  captures : List Capture
deriving DecidableEq, Repr, Inhabited

/-- What the next move of a thread comes to. -/
inductive Move where
  /-- All is matched. -/
  | accept
  /-- The thread cannot go on; `aside` says whether another had to be put aside to find that out. -/
  | stuck (aside : Bool)
  /-- The thread goes on in one way. -/
  | go (next : Thread)
  /-- The thread goes on as `next`, and could go on as `other` instead. -/
  | fork (next other : Thread)
deriving Repr, Inhabited

/-- The neighbour of a place on one side. -/
def Side.neighbour? (side : Side) (text : Array Char) (pos : Nat) : Option Char :=
  match side with
  | .before => if pos = 0 then none else text[pos - 1]?
  | .after => text[pos]?

namespace Thread

/-- A thread goes on with `todo` if `ok` holds. -/
def goIf (thread : Thread) (ok : Bool) (todo : List Task) : Move :=
  if ok then .go ⟨todo, thread.pos, thread.captures⟩ else .stuck false

/-- A choice between two lists of tasks. -/
def choose (thread : Thread) (first second : List Task) : Move :=
  .fork ⟨first, thread.pos, thread.captures⟩ ⟨second, thread.pos, thread.captures⟩

/-- A thread goes on with `todo` unless what `probe` asks for was `found`. It is put aside while this is
tried, and dropped then or taken up again. -/
def goUnless (thread : Thread) (found : Bool) (probe : Regex) (todo : List Task) : Move :=
  if found then .stuck true else thread.choose (.read probe :: todo) todo

/-- A choice between a round of a repetition and its end. -/
def turn (thread : Thread) (greed : Greed) (body : Regex) (rest : List Task) : Move :=
  -- The round notes where it began, so that one that has read nothing can be told afterwards.
  let round := .read body :: .again greed body thread.pos :: rest
  match greed with
  | .greedy => thread.choose round rest
  | .lazy => thread.choose rest round

/-- The next move of a thread. -/
def move (text : Array Char) (thread : Thread) : Move :=
  match thread.todo with
  | [] => .accept
  | .close name start :: rest =>
    .go ⟨rest, thread.pos, ⟨name, start, thread.pos⟩ :: thread.captures⟩
  | .again greed body since :: rest =>
    if since = thread.pos then .stuck false else thread.turn greed body rest
  | .read regex :: rest =>
    match regex with
    | .empty => .go ⟨rest, thread.pos, thread.captures⟩
    | .char set =>
      match text[thread.pos]? with
      | some c => if set.has c then .go ⟨rest, thread.pos + 1, thread.captures⟩ else .stuck false
      | none => .stuck false
    | .textStart => thread.goIf (thread.pos == 0) rest
    | .textEnd => thread.goIf (thread.pos == text.size) rest
    | .look side wanted set =>
      -- At either end of the text there is no neighbour, which counts as one outside of the set.
      let found := (side.neighbour? text thread.pos).any set.has
      if wanted then thread.goIf found rest else thread.goUnless found (.look side true set) rest
    | .seq first second => .go ⟨.read first :: .read second :: rest, thread.pos, thread.captures⟩
    | .alt first second => thread.choose (.read first :: rest) (.read second :: rest)
    | .optional body => thread.choose (.read body :: rest) rest
    | .star greed body => thread.turn greed body rest
    | .plus greed body =>
      .go ⟨.read body :: .read (.star greed body) :: rest, thread.pos, thread.captures⟩
    | .group (.named name) body =>
      .go ⟨.read body :: .close name thread.pos :: rest, thread.pos, thread.captures⟩
    | .group _ body => .go ⟨.read body :: rest, thread.pos, thread.captures⟩

end Thread

/-! ### Why matching ends -/

/-- Moves that a pattern takes at most before it reads a character or leaves a repetition. -/
def Regex.weight : Regex → Nat
  | .empty | .char _ | .textStart | .textEnd => 1
  | .look _ wanted _ => if wanted then 1 else 2
  | .seq first second => first.weight + second.weight + 1
  | .alt first second => first.weight + second.weight + 1
  | .optional body => body.weight + 1
  | .star _ body => body.weight + 2
  | .plus _ body => 2 * body.weight + 3
  -- A named group leaves a task behind, which weighs one.
  | .group _ body => body.weight + 2

/-- A repetition that has read nothing since its last round began will not start over. -/
def Task.weight (pos : Nat) : Task → Nat
  | .read regex => regex.weight
  | .close _ _ => 1
  | .again _ body since => if since = pos then 1 else body.weight + 2

def Task.weights (pos : Nat) : List Task → Nat
  | [] => 0
  | task :: rest => task.weight pos + weights pos rest

def Thread.weight (thread : Thread) : Nat :=
  Task.weights thread.pos thread.todo

/-- One thread has less text left than another, or as much text and less to do. -/
def Thread.Below (text : Array Char) (next thread : Thread) : Prop :=
  text.size - next.pos < text.size - thread.pos ∨
    next.pos = thread.pos ∧ next.weight < thread.weight

/-- The thread that a move goes on with. -/
def Move.next? : Move → Option Thread
  | .go next => some next
  | .fork next _ => some next
  | .accept | .stuck _ => none

private theorem Regex.weight_pos (regex : Regex) : 0 < regex.weight := by
  cases regex with
  | look side wanted set => cases wanted <;> simp [Regex.weight]
  | _ => simp [Regex.weight]

private theorem Thread.turn_below (text : Array Char) (thread : Thread) (greed : Greed)
    (body : Regex) (rest : List Task)
    (heavy : body.weight + 1 + Task.weights thread.pos rest < thread.weight)
    {next : Thread} (goes : (thread.turn greed body rest).next? = some next) :
    next.Below text thread := by
  have := body.weight_pos
  cases greed <;> simp only [turn, choose, Move.next?, Option.some.injEq] at goes <;> subst goes
  all_goals
    refine Or.inr ⟨rfl, ?_⟩
    simp only [weight, Task.weights, Task.weight, if_true] at *
    omega

private theorem Thread.goIf_below (text : Array Char) (thread : Thread) (ok : Bool)
    (rest : List Task) (light : Task.weights thread.pos rest < thread.weight)
    {next : Thread} (goes : (thread.goIf ok rest).next? = some next) :
    next.Below text thread := by
  cases ok <;> simp [goIf, Move.next?] at goes
  subst goes
  exact Or.inr ⟨rfl, light⟩

/-- A thread that goes on has less before it. -/
theorem Thread.move_below {text : Array Char} {thread next : Thread}
    (goes : (thread.move text).next? = some next) : next.Below text thread := by
  unfold move at goes
  split at goes
  next => simp [Move.next?] at goes
  -- Closing a group takes one task away.
  next name start rest todo =>
    simp only [Move.next?, Option.some.injEq] at goes
    subst goes
    exact Or.inr ⟨rfl, by simp [weight, todo, Task.weights, Task.weight]⟩
  next greed body since rest todo =>
    split at goes
    next => simp [Move.next?] at goes
    -- Having moved since the last round, the repetition has its full weight again, and loses it
    -- here.
    next moved =>
      exact turn_below text thread greed body rest
        (by simp [weight, todo, Task.weights, Task.weight, moved]) goes
  next regex rest todo =>
    split at goes
    case h_1 =>
      simp only [Move.next?, Option.some.injEq] at goes
      subst goes
      exact Or.inr ⟨rfl, by simp [weight, todo, Task.weights, Task.weight, Regex.weight]⟩
    -- Only a character makes the text left shorter; every other pattern is taken apart in place.
    case h_2 set =>
      split at goes
      next c at_ =>
        split at goes
        next =>
          simp only [Move.next?, Option.some.injEq] at goes
          subst goes
          have inside : thread.pos < text.size := (Array.getElem?_eq_some_iff.mp at_).1
          exact Or.inl (by simp only; omega)
        next => simp [Move.next?] at goes
      next => simp [Move.next?] at goes
    case h_3 =>
      exact goIf_below text thread _ rest
        (by simp [weight, todo, Task.weights, Task.weight, Regex.weight]) goes
    case h_4 =>
      exact goIf_below text thread _ rest
        (by simp [weight, todo, Task.weights, Task.weight, Regex.weight]) goes
    case h_5 side wanted set =>
      cases wanted with
      | true =>
        exact goIf_below text thread _ rest
          (by simp [weight, todo, Task.weights, Task.weight, Regex.weight]) goes
      | false =>
        -- Looking for the neighbour is lighter than seeing that it is not there.
        simp only [Bool.false_eq_true, if_false, goUnless] at goes
        split at goes
        · cases goes
        · simp only [choose, Move.next?, Option.some.injEq] at goes
          subst goes
          exact Or.inr ⟨rfl, by simp [weight, todo, Task.weights, Task.weight, Regex.weight]⟩
    case h_6 first second =>
      simp only [Move.next?, Option.some.injEq] at goes
      subst goes
      refine Or.inr ⟨rfl, ?_⟩
      simp only [weight, todo, Task.weights, Task.weight, Regex.weight]
      omega
    case h_7 first second =>
      simp only [choose, Move.next?, Option.some.injEq] at goes
      subst goes
      refine Or.inr ⟨rfl, ?_⟩
      simp only [weight, todo, Task.weights, Task.weight, Regex.weight]
      omega
    case h_8 body =>
      simp only [choose, Move.next?, Option.some.injEq] at goes
      subst goes
      exact Or.inr ⟨rfl, by simp [weight, todo, Task.weights, Task.weight, Regex.weight]⟩
    case h_9 greed body =>
      exact turn_below text thread greed body rest
        (by simp [weight, todo, Task.weights, Task.weight, Regex.weight]) goes
    -- What is repeated once or more is there twice, once alone and once under the star.
    case h_10 greed body =>
      simp only [Move.next?, Option.some.injEq] at goes
      subst goes
      refine Or.inr ⟨rfl, ?_⟩
      simp only [weight, todo, Task.weights, Task.weight, Regex.weight]
      omega
    case h_11 name body =>
      simp only [Move.next?, Option.some.injEq] at goes
      subst goes
      refine Or.inr ⟨rfl, ?_⟩
      simp only [weight, todo, Task.weights, Task.weight, Regex.weight]
      omega
    case h_12 kind body _ =>
      simp only [Move.next?, Option.some.injEq] at goes
      subst goes
      exact Or.inr ⟨rfl, by simp [weight, todo, Task.weights, Task.weight, Regex.weight]⟩

/-! ### Running -/

/-- What a run comes to. -/
inductive Outcome where
  /-- A match that ends at `stop`. -/
  | matched (stop : Nat) (captures : List Capture)
  /-- No way of matching is left, with so much of the budget unused. -/
  | failed (budget : Nat)
  /-- Another way of matching was left, but no budget to follow it. -/
  | exhausted
  /-- A way of matching had to be put aside, but there was no room for it. -/
  | crowded
deriving DecidableEq, Repr, Inhabited

/-- Follows a thread, and those put aside in `later` if it gets stuck; `room` is left for more of
them. -/
def run (text : Array Char) (budget room : Nat) (thread : Thread) (later : List Thread) : Outcome :=
  match _moves : thread.move text with
  | .accept => .matched thread.pos thread.captures
  | .go next => run text budget room next later
  | .fork next other =>
    match room with
    | 0 => .crowded
    | room + 1 => run text budget room next (other :: later)
  | .stuck aside =>
    if aside && room = 0 then .crowded
    else
    match later, budget with
    | [], _ => .failed budget
    | _ :: _, 0 => .exhausted
    -- What is taken up again leaves its room to others.
    | other :: later, budget + 1 => run text budget (room + 1) other later
termination_by (budget, text.size - thread.pos, thread.weight)
decreasing_by
  -- Going on reads or does something, and taking up another thread costs budget.
  · have below := @Thread.move_below text thread next (by rw [_moves]; rfl)
    rcases below with less | ⟨same, less⟩
    · exact Prod.Lex.right _ (Prod.Lex.left _ _ less)
    · rw [same]; exact Prod.Lex.right _ (Prod.Lex.right _ less)
  · have below := @Thread.move_below text thread next (by rw [_moves]; rfl)
    rcases below with less | ⟨same, less⟩
    · exact Prod.Lex.right _ (Prod.Lex.left _ _ less)
    · rw [same]; exact Prod.Lex.right _ (Prod.Lex.right _ less)
  · exact Prod.Lex.left _ _ (Nat.lt_succ_self _)

/-- The preferred match of a pattern that begins at a place. -/
def Regex.matchAt (regex : Regex) (text : Array Char) (budget room start : Nat) : Outcome :=
  run text budget room ⟨[.read regex], start, []⟩ []

end Gleaner
