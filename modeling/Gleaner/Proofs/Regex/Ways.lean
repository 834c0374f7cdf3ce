import Gleaner.Regex.Machine
import Gleaner.Proofs.Regex.Names
import Mathlib.Data.List.Basic
import Mathlib.Tactic.Common

/-!
# Ways of matching

The ways in which a pattern matches from a place, in order of preference, by recursion on the
pattern. A way is where the match ends together with its captures. The machine in `Regex.Machine`
visits these ways one after the other; here they are all there at once, so that a pattern made of
two patterns is understood from their ways alone.

A repetition needs one round less for every character that is left, since a round that reads
nothing is given up. `ways_star` says that the count of rounds does not matter.
-/

namespace Gleaner

/-- How a match went: where it ended, and what it captured, last first. -/
structure Way where
  stop : Nat
  captures : List Capture
deriving DecidableEq, Repr, Inhabited

namespace Way

/-- The way that reads nothing. -/
def stay (pos : Nat) : Way :=
  ⟨pos, []⟩

/-- The second of two ways, gone behind the first. -/
def after (first second : Way) : Way :=
  ⟨second.stop, second.captures ++ first.captures⟩

/-- All ways of a first part, each continued in every way that the rest has from its end. -/
def chain (first : List Way) (rest : Nat → List Way) : List Way :=
  first.flatMap fun way => (rest way.stop).map way.after

/-- A way closes a group that was entered at `start`. -/
def closing (name : GroupName) (start : Nat) (way : Way) : Way :=
  ⟨way.stop, ⟨name, start, way.stop⟩ :: way.captures⟩

@[simp] theorem stop_stay (pos : Nat) : (stay pos).stop = pos := rfl

@[simp] theorem stop_after (first second : Way) : (first.after second).stop = second.stop := rfl

@[simp] theorem stop_closing (name : GroupName) (start : Nat) (way : Way) :
    (way.closing name start).stop = way.stop := rfl

@[simp] theorem captures_stay (pos : Nat) : (stay pos).captures = [] := rfl

@[simp] theorem after_stay (way : Way) : way.after (stay way.stop) = way := rfl

@[simp] theorem stay_after (pos : Nat) (way : Way) : (stay pos).after way = way := by
  simp [after]

theorem after_assoc (first second third : Way) :
    (first.after second).after third = first.after (second.after third) := by
  simp [after]

@[simp] theorem chain_nil (rest : Nat → List Way) : chain [] rest = [] := rfl

@[simp] theorem chain_cons (way : Way) (ways : List Way) (rest : Nat → List Way) :
    chain (way :: ways) rest = (rest way.stop).map way.after ++ chain ways rest := rfl

@[simp] theorem chain_append (first second : List Way) (rest : Nat → List Way) :
    chain (first ++ second) rest = chain first rest ++ chain second rest := by
  simp [chain]

@[simp] theorem chain_stay (pos : Nat) (rest : Nat → List Way) :
    chain [stay pos] rest = rest pos := by
  have same : (stay pos).after = id := funext (stay_after pos)
  simp [same]

@[simp] theorem chain_stay_right (ways : List Way) : chain ways (fun pos => [stay pos]) = ways := by
  induction ways with
  | nil => rfl
  | cons way ways ih => simp [ih]

theorem chain_assoc (first : List Way) (second third : Nat → List Way) :
    chain (chain first second) third = chain first fun pos => chain (second pos) third := by
  -- What is put behind one way can be chained before or after it is put there.
  have inner : ∀ way : Way, chain ((second way.stop).map way.after) third =
      (chain (second way.stop) third).map way.after := by
    intro way
    simp only [chain, List.flatMap_map, List.map_flatMap, List.map_map]
    apply List.flatMap_congr
    intro next _
    apply List.map_congr_left
    intro last _
    exact after_assoc way next last
  induction first with
  | nil => rfl
  | cons way ways ih => rw [chain_cons, chain_append, inner, ih, chain_cons]

theorem chain_closing (name : GroupName) (start : Nat) (ways : List Way) :
    ways.map (closing name start) = chain ways fun stop => [(stay stop).closing name start] := by
  induction ways with
  | nil => rfl
  | cons way ways ih => simp [ih, closing, after]

theorem mem_chain {first : List Way} {rest : Nat → List Way} {way : Way} :
    way ∈ chain first rest ↔ ∃ start ∈ first, ∃ next ∈ rest start.stop, start.after next = way := by
  simp [chain]

theorem chain_congr {first : List Way} {rest rest' : Nat → List Way}
    (same : ∀ way ∈ first, rest way.stop = rest' way.stop) :
    chain first rest = chain first rest' := by
  simp only [chain, List.flatMap_def]
  congr 1
  exact List.map_congr_left fun way member => by rw [same way member]

/-- Only the ways that have read something go on. -/
theorem chain_filter (pos : Nat) (first : List Way) (rest : Nat → List Way) :
    chain (first.filter fun way => way.stop ≠ pos) rest =
      chain first fun stop => if pos = stop then [] else rest stop := by
  induction first with
  | nil => rfl
  | cons way ways ih =>
    by_cases same : way.stop = pos
    · simp [same, ← ih]
    · simp [same, Ne.symm same, ← ih]

/-- The first way of a chain continues the first way that can be continued at all. -/
theorem head?_chain_cons {way : Way} {ways : List Way} {rest : Nat → List Way} {next : Way}
    (first : (rest way.stop).head? = some next) :
    (chain (way :: ways) rest).head? = some (way.after next) := by
  simp [List.head?_append, first]

end Way

/-- A repetition prefers to go on, or to stop here. -/
def Greed.order (greed : Greed) (more : List Way) (here : Way) : List Way :=
  match greed with
  | .greedy => more ++ [here]
  | .lazy => here :: more

@[simp] theorem Greed.mem_order {greed : Greed} {more : List Way} {here way : Way} :
    way ∈ greed.order more here ↔ way ∈ more ∨ way = here := by
  cases greed <;> simp [order, or_comm]

/-- The ways of a repetition of at most `count` rounds. -/
def rounds (greed : Greed) (round : Nat → List Way) : Nat → Nat → List Way
  | 0, pos => [Way.stay pos]
  | count + 1, pos =>
    greed.order
      -- A round that reads nothing is given up, here as in the matcher.
      (Way.chain ((round pos).filter fun way => way.stop ≠ pos) (rounds greed round count))
      (Way.stay pos)

namespace Regex

/-- The ways in which a pattern matches from a place, the preferred one first. -/
def ways (text : Array Char) : Regex → Nat → List Way
  | .empty, pos => [.stay pos]
  | .char set, pos => if text[pos]?.any set.has then [.stay (pos + 1)] else []
  | .textStart, pos => if pos = 0 then [.stay pos] else []
  | .textEnd, pos => if pos = text.size then [.stay pos] else []
  | .look side wanted set, pos =>
    if (side.neighbour? text pos).any set.has = wanted then [.stay pos] else []
  | .seq first second, pos => Way.chain (first.ways text pos) (second.ways text)
  | .alt first second, pos => first.ways text pos ++ second.ways text pos
  | .optional body, pos => body.ways text pos ++ [.stay pos]
  -- As every round that counts reads something, there are no more of them than characters left.
  | .star greed body, pos => rounds greed (body.ways text) (text.size - pos) pos
  | .plus greed body, pos =>
    Way.chain (body.ways text pos) fun stop =>
      rounds greed (body.ways text) (text.size - stop) stop
  | .group (.named name) body, pos => (body.ways text pos).map (Way.closing name pos)
  | .group _ body, pos => body.ways text pos

end Regex

/-! ### What all ways have in common -/

section Induction

variable {text : Array Char} {motive : Nat → Way → Prop}

theorem rounds_induction {round : Nat → List Way} (stay : ∀ pos, motive pos (.stay pos))
    (after : ∀ {pos first second}, motive pos first → motive first.stop second →
      motive pos (first.after second))
    (inRound : ∀ pos, ∀ way ∈ round pos, motive pos way) (greed : Greed) (count : Nat) :
    ∀ pos, ∀ way ∈ rounds greed round count pos, motive pos way := by
  -- On the number of rounds: a first round is followed by a repetition of one round less.
  induction count with
  | zero =>
    intro pos way member
    rw [List.mem_singleton.mp member]
    exact stay pos
  | succ count ih =>
    intro pos way member
    simp only [rounds, Greed.mem_order] at member
    rcases member with more | rfl
    · obtain ⟨first, filtered, next, inRest, rfl⟩ := Way.mem_chain.mp more
      exact after (inRound pos first (List.mem_filter.mp filtered).1) (ih _ next inRest)
    · exact stay pos

/-- A way reads nothing or one character, goes on behind another way, or closes a group. What
passes through these steps holds of all ways. -/
theorem Regex.ways_induction (stay : ∀ pos, motive pos (.stay pos))
    (read : ∀ {pos}, pos < text.size → motive pos (.stay (pos + 1)))
    (after : ∀ {pos first second}, motive pos first → motive first.stop second →
      motive pos (first.after second))
    (regex : Regex)
    (closing : ∀ name ∈ regex.groupNames, ∀ {pos way}, motive pos way →
      motive pos (way.closing name pos)) :
    ∀ pos, ∀ way ∈ regex.ways text pos, motive pos way := by
  induction regex with
  | empty =>
    intro pos way member
    rw [List.mem_singleton.mp member]
    exact stay pos
  | textStart | textEnd | look =>
    intro pos way member
    simp only [ways] at member
    split at member
    · rw [List.mem_singleton.mp member]
      exact stay pos
    · cases member
  | char set =>
    intro pos way member
    simp only [ways] at member
    split at member
    next found =>
      obtain ⟨c, at_, _⟩ := (Option.any_eq_true _ _).mp found
      rw [List.mem_singleton.mp member]
      exact read (Array.getElem?_eq_some_iff.mp at_).1
    next => cases member
  | seq first second ih ih' =>
    intro pos way member
    obtain ⟨begun, inFirst, gone, inSecond, rfl⟩ := Way.mem_chain.mp member
    -- What closes a group of the whole sequence closes those of either part.
    have first := ih (fun name named => closing name (List.mem_append_left _ named))
    have second := ih' (fun name named => closing name (List.mem_append_right _ named))
    exact after (first pos begun inFirst) (second _ gone inSecond)
  | alt first second ih ih' =>
    intro pos way member
    rcases List.mem_append.mp member with left | right
    · exact ih (fun name named => closing name (List.mem_append_left _ named)) pos way left
    · exact ih' (fun name named => closing name (List.mem_append_right _ named)) pos way right
  | optional body ih =>
    intro pos way member
    rcases List.mem_append.mp member with there | gone
    · exact ih closing pos way there
    · rw [List.mem_singleton.mp gone]
      exact stay pos
  | star greed body ih =>
    -- The filter of the rounds only takes ways away.
    exact fun pos => rounds_induction stay after (ih closing) greed _ pos
  | plus greed body ih =>
    intro pos way member
    obtain ⟨begun, inBody, gone, inRest, rfl⟩ := Way.mem_chain.mp member
    exact after (ih closing pos begun inBody)
      (rounds_induction stay after (ih closing) greed _ _ gone inRest)
  | group kind body ih =>
    intro pos way member
    -- The name of a group, if it has one, stands before the names inside it.
    have inner := ih fun name named => closing name (List.mem_append_right _ named)
    cases kind with
    | plain | bundle => exact inner pos way member
    | named name =>
      obtain ⟨way, inBody, rfl⟩ := List.mem_map.mp member
      exact closing name List.mem_cons_self (inner pos way inBody)

end Induction

/-- A way from `pos` goes forward, and not beyond the text. -/
def Way.Within (size pos : Nat) (way : Way) : Prop :=
  pos ≤ way.stop ∧ (way.stop = pos ∨ way.stop ≤ size)

/-- Matching goes forward and stays in the text. -/
theorem Regex.within_ways (text : Array Char) (regex : Regex) :
    ∀ pos, ∀ way ∈ regex.ways text pos, way.Within text.size pos := by
  refine ways_induction (fun pos => ⟨Nat.le_refl pos, Or.inl rfl⟩)
    (fun inside => ⟨Nat.le_succ _, Or.inr inside⟩) ?_ regex fun _ _ _ _ within => within
  rintro pos first second ⟨le, bound⟩ ⟨le', bound'⟩
  refine ⟨Nat.le_trans le le', ?_⟩
  simp only [Way.stop_after]
  omega

/-- A way captures nothing beyond its end. -/
def Way.Covers (way : Way) : Prop :=
  ∀ capture ∈ way.captures, capture.stop ≤ way.stop

/-- What is captured lies before the end of the match. -/
theorem Regex.covers_ways (text : Array Char) (regex : Regex) {pos : Nat} {way : Way}
    (member : way ∈ regex.ways text pos) : way.Covers := by
  -- Captures of a first part stay covered only because the second goes forward.
  have forward : ∀ pos, ∀ way ∈ regex.ways text pos, pos ≤ way.stop ∧ way.Covers := by
    refine ways_induction (fun pos => ⟨Nat.le_refl pos, by simp [Way.Covers]⟩)
      (fun _ => ⟨Nat.le_succ _, by simp [Way.Covers, Way.stay]⟩) ?_ regex ?_
    · rintro pos first second ⟨le, covers⟩ ⟨le', covers'⟩
      refine ⟨Nat.le_trans le le', fun capture member => ?_⟩
      rcases List.mem_append.mp member with inSecond | inFirst
      · exact covers' capture inSecond
      · exact Nat.le_trans (covers capture inFirst) le'
    · rintro name - pos way ⟨le, covers⟩
      refine ⟨le, fun capture member => ?_⟩
      rcases List.mem_cons.mp member with rfl | member
      · exact Nat.le_refl _
      · exact covers capture member
  exact (forward pos way member).2

/-- What is captured is captured under a name of the pattern. -/
theorem Regex.name_mem_groupNames {text : Array Char} {regex : Regex} {pos : Nat} {way : Way}
    (member : way ∈ regex.ways text pos) :
    ∀ capture ∈ way.captures, capture.name ∈ regex.groupNames := by
  refine ways_induction
    (motive := fun _ way => ∀ capture ∈ way.captures, capture.name ∈ regex.groupNames)
    (fun _ => by simp) (fun _ => by simp) ?_ regex ?_ pos way member
  · intro pos first second named named' capture captured
    exact (List.mem_append.mp captured).elim (named' capture) (named capture)
  · intro name isName pos way named
    exact List.forall_mem_cons.mpr ⟨isName, named⟩

/-- Without names nothing is captured. -/
theorem Regex.captures_eq_nil {text : Array Char} {regex : Regex} (nameless : regex.groupNames = [])
    {pos : Nat} {way : Way} (member : way ∈ regex.ways text pos) : way.captures = [] := by
  refine List.eq_nil_iff_forall_not_mem.mpr fun capture captured => ?_
  have named := name_mem_groupNames member capture captured
  rw [nameless] at named
  cases named

/-! ### The count of rounds does not matter -/

private theorem rounds_stable {size : Nat} (greed : Greed) {round : Nat → List Way}
    (bounded : ∀ pos, ∀ way ∈ round pos, way.Within size pos) (count : Nat) :
    ∀ count' pos, size - pos ≤ count → size - pos ≤ count' →
      rounds greed round count pos = rounds greed round count' pos := by
  -- Behind the end of the text no round is left, whatever the count.
  have ended : ∀ pos, size - pos = 0 → (round pos).filter (fun way => way.stop ≠ pos) = [] := by
    intro pos none
    rw [List.filter_eq_nil_iff]
    intro way member
    have := bounded pos way member
    simp only [Way.Within, ne_eq, decide_not, Bool.not_eq_true', decide_eq_false_iff_not,
      not_not] at *
    omega
  -- A round that counts leaves less text, so that both counts stay large enough for it.
  have fewer : ∀ pos, ∀ way ∈ (round pos).filter (fun way => way.stop ≠ pos),
      pos < way.stop := by
    intro pos way member
    obtain ⟨inRound, moved⟩ := List.mem_filter.mp member
    have forward := (bounded pos way inRound).1
    simp only [ne_eq, decide_not, Bool.not_eq_true', decide_eq_false_iff_not] at moved
    omega
  -- On one of the counts, for all other counts and places at once.
  induction count with
  | zero =>
    intro count' pos enough _
    cases count' with
    | zero => rfl
    | succ count' =>
      simp only [rounds, ended pos (by omega), Way.chain_nil]
      cases greed <;> rfl
  | succ count ih =>
    intro count' pos enough enough'
    cases count' with
    | zero =>
      simp only [rounds, ended pos (by omega), Way.chain_nil]
      cases greed <;> rfl
    | succ count' =>
      simp only [rounds]
      congr 1
      apply Way.chain_congr
      intro way member
      have := fewer pos way member
      exact ih count' way.stop (by omega) (by omega)

namespace Regex

/-- A repetition is a round that reads something and the repetition behind it, or nothing. -/
theorem ways_star (text : Array Char) (greed : Greed) (body : Regex) (pos : Nat) :
    (star greed body).ways text pos =
      greed.order
        (Way.chain ((body.ways text pos).filter fun way => way.stop ≠ pos)
          ((star greed body).ways text))
        (Way.stay pos) := by
  have bounded := within_ways text body
  have stable := rounds_stable greed bounded
  -- One round more than there are characters left changes nothing and can be unfolded.
  calc (star greed body).ways text pos
      = rounds greed (body.ways text) (text.size - pos + 1) pos :=
        stable _ _ pos (Nat.le_refl _) (by omega)
    _ = _ := by
        simp only [rounds]
        congr 1
        apply Way.chain_congr
        intro way member
        have forward := (bounded pos way (List.mem_filter.mp member).1).1
        exact stable _ _ way.stop (by omega) (Nat.le_refl _)

theorem ways_plus (text : Array Char) (greed : Greed) (body : Regex) (pos : Nat) :
    (plus greed body).ways text pos =
      Way.chain (body.ways text pos) ((star greed body).ways text) := rfl

@[simp] theorem ways_append (text : Array Char) (first second : Regex) (pos : Nat) :
    (first ++ second).ways text pos = Way.chain (first.ways text pos) (second.ways text) := rfl

theorem ways_concat_cons (text : Array Char) (first : Regex) (rest : List Regex) (pos : Nat) :
    (concat (first :: rest)).ways text pos =
      Way.chain (first.ways text pos) ((concat rest).ways text) := by
  cases rest with
  | nil => exact (Way.chain_stay_right _).symm
  | cons second rest => rfl

end Regex

end Gleaner
