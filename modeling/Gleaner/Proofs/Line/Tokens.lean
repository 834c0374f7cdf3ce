import Gleaner.Proofs.Line.Meaning

/-!
# Where the tokens of a line stand

A match of a line passes through its tokens in order, with the gaps that they ask for between them
and margins around them all. A token that was given a group leaves one capture, which says where the
token stands; nothing else in the pattern of a line leaves any.
-/

namespace Gleaner

/-- A pattern reads from one place to another if what stands between them belongs to its language. -/
theorem Regex.Denotes.reads_iff {regex : Regex} {language : Language Char}
    (denotes : regex.Denotes language) {text : Array Char} {start stop : Nat}
    (forward : start ≤ stop) (inside : stop ≤ text.size) :
    regex.Reads text start stop ↔ (text.extract start stop).toList ∈ language := by
  -- The language is asked about the text between what stands before and behind it.
  rw [← denotes (text.extract 0 start).toList _ (text.extract stop text.size).toList]
  have first : (text.extract 0 start).toList.length = start := by
    simp
    omega
  have second : start + (text.extract start stop).toList.length = stop := by
    simp
    omega
  rw [Spans, extract_parts forward inside, first, second]

/-- What a pattern reads belongs to its language. -/
theorem Regex.Denotes.mem_of_reads {regex : Regex} {language : Language Char}
    (denotes : regex.Denotes language) {text : Array Char} {start stop : Nat}
    (reads : regex.Reads text start stop) (inside : stop ≤ text.size) :
    (text.extract start stop).toList ∈ language :=
  (denotes.reads_iff reads.forward inside).mp reads

theorem Regex.mem_ways_concat_cons {text : Array Char} {first : Regex} {rest : List Regex} {pos : Nat}
    {way : Way} : way ∈ (concat (first :: rest)).ways text pos ↔
      ∃ begun ∈ first.ways text pos, ∃ gone ∈ (concat rest).ways text begun.stop,
        begun.after gone = way := by
  rw [ways_concat_cons, Way.mem_chain]

/-- What is captured of a token that stands between two places. -/
def PlacedToken.capturesAt (placed : PlacedToken) (start stop : Nat) : List Capture :=
  placed.slot.toList.map fun index => ⟨.slot index, start, stop⟩

/-- The tokens of a line where they stand in a text, and their captures, last first. -/
inductive TokensAt (text : Array Char) : List PlacedToken → Nat → Nat → List Capture → Prop where
  | none (pos : Nat) : TokensAt text [] pos pos []
  | last {placed : PlacedToken} {start stop : Nat}
    (reads : placed.token.fragment.Reads text start stop) :
    TokensAt text [placed] start stop (placed.capturesAt start stop)
  | more {placed next : PlacedToken} {rest : List PlacedToken} {start stop start' stop' : Nat}
    {captures : List Capture} (reads : placed.token.fragment.Reads text start stop)
    (gap : placed.token.spacing.separator.Reads text stop start')
    (others : TokensAt text (next :: rest) start' stop' captures) :
    TokensAt text (placed :: next :: rest) start stop' (captures ++ placed.capturesAt start stop)

theorem tokensAt_singleton {text : Array Char} {placed : PlacedToken} {start stop : Nat}
    {captures : List Capture} : TokensAt text [placed] start stop captures ↔
      placed.token.fragment.Reads text start stop ∧ captures = placed.capturesAt start stop := by
  constructor
  · intro tokens
    cases tokens with
    | last reads => exact ⟨reads, rfl⟩
  · rintro ⟨reads, rfl⟩
    exact .last reads

namespace PlacedToken

variable {text : Array Char} {pos : Nat} {way : Way}

theorem capturesAt_of_mem {placed : PlacedToken} (member : way ∈ placed.pattern.ways text pos) :
    placed.token.fragment.Reads text pos way.stop ∧
      way.captures = placed.capturesAt pos way.stop := by
  obtain ⟨token, slot⟩ := placed
  cases slot with
  -- Without a group nothing is captured, since a fragment has no named group of its own.
  | none =>
    exact ⟨⟨way, member, rfl⟩, Regex.captures_eq_nil token.groupNames_fragment member⟩
  | some index =>
    obtain ⟨inner, inToken, rfl⟩ := List.mem_map.mp member
    refine ⟨⟨inner, inToken, rfl⟩, ?_⟩
    simp only [Way.closing, Regex.captures_eq_nil token.groupNames_fragment inToken]
    rfl

/-- An assertion reads nothing and captures nothing, whether or not it is asked for. -/
private theorem stay_of_look {on wanted : Bool} {side : Side} {set : CharSet}
    (member : way ∈ (if on then Regex.look side wanted set else .empty).ways text pos) :
    way = .stay pos := by
  cases on with
  | false => exact List.mem_singleton.mp member
  | true =>
    simp only [if_true, Regex.ways] at member
    split at member
    · exact List.mem_singleton.mp member
    · cases member

theorem capturesAt_of_mem_bounded {glued : Bool} {placed : PlacedToken}
    (member : way ∈ (placed.bounded glued).ways text pos) :
    placed.token.fragment.Reads text pos way.stop ∧
      way.captures = placed.capturesAt pos way.stop := by
  obtain ⟨opened, inOpening, _, others, rfl⟩ := Regex.mem_ways_concat_cons.mp member
  obtain ⟨value, inToken, closed, inClosing, rfl⟩ := Regex.mem_ways_concat_cons.mp others
  cases stay_of_look inOpening
  cases stay_of_look inClosing
  simpa [Way.after] using capturesAt_of_mem inToken

theorem tokensAt_of_mem {glued : Bool} {placed : List PlacedToken}
    (member : way ∈ (patternOf glued placed).ways text pos) :
    TokensAt text placed pos way.stop way.captures := by
  -- On the tokens: each begins where the gap behind the one before it ends.
  induction placed generalizing glued pos way with
  | nil =>
    cases List.mem_singleton.mp member
    exact .none pos
  | cons first others ih =>
    cases others with
    | nil =>
      obtain ⟨reads, captured⟩ := capturesAt_of_mem_bounded member
      rw [captured]
      exact .last reads
    | cons second others =>
      obtain ⟨value, inFirst, _, behind, rfl⟩ := Regex.mem_ways_concat_cons.mp member
      obtain ⟨gap, inGap, tail, inTail, rfl⟩ := Regex.mem_ways_concat_cons.mp behind
      obtain ⟨reads, captured⟩ := capturesAt_of_mem_bounded inFirst
      have silent := Regex.captures_eq_nil first.token.spacing.groupNames_separator inGap
      have tokens := TokensAt.more reads ⟨gap, inGap, rfl⟩ (ih inTail)
      simpa [Way.after, captured, silent] using tokens

end PlacedToken

/-- A match of a line is a margin, its tokens and another margin. -/
theorem Line.tokensAt_of_mem {placed : List PlacedToken} {text : Array Char} {pos : Nat} {way : Way}
    (member : way ∈ (wholeRegex placed).ways text pos) :
    ∃ start stop, margin.Reads text pos start ∧ TokensAt text placed start stop way.captures ∧
      (if placed.isEmpty then .empty else margin : Regex).Reads text stop way.stop := by
  obtain ⟨begun, inStart, _, fromMargin, rfl⟩ := Regex.mem_ways_concat_cons.mp member
  obtain ⟨before, inMargin, _, fromTokens, rfl⟩ := Regex.mem_ways_concat_cons.mp fromMargin
  obtain ⟨tokens, inTokens, _, fromEnd, rfl⟩ := Regex.mem_ways_concat_cons.mp fromTokens
  obtain ⟨behind, inMargin', ended, inEnd, rfl⟩ := Regex.mem_ways_concat_cons.mp fromEnd
  -- The anchors stand where they are asked for, and neither they nor the margins capture anything.
  have start_eq : begun.stop = pos := (reads_lineStart.mp ⟨begun, inStart, rfl⟩).2
  have stop_eq : ended.stop = behind.stop := (reads_lineEnd.mp ⟨ended, inEnd, rfl⟩).2
  have margins : ∀ on : Bool, (if on then .empty else margin : Regex).groupNames = [] := by decide
  have silent : begun.captures = [] ∧ before.captures = [] ∧ behind.captures = [] ∧
      ended.captures = [] :=
    ⟨Regex.captures_eq_nil (by decide) inStart, Regex.captures_eq_nil (by decide) inMargin,
      Regex.captures_eq_nil (margins _) inMargin', Regex.captures_eq_nil (by decide) inEnd⟩
  obtain ⟨inStart_nil, before_nil, behind_nil, ended_nil⟩ := silent
  refine ⟨before.stop, tokens.stop, ⟨before, start_eq ▸ inMargin, rfl⟩, ?_,
    ⟨behind, inMargin', by simp [stop_eq]⟩⟩
  simpa [Way.after, inStart_nil, before_nil, behind_nil, ended_nil] using
    PlacedToken.tokensAt_of_mem inTokens

end Gleaner
