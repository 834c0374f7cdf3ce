import Gleaner.Line.Pattern
import Gleaner.Proofs.Fallible
import Gleaner.Proofs.Line.Spans
import Gleaner.Proofs.Token.Grammar

/-!
# What is wrong with a line

A line can be wrong in three ways. It breaks where a quote is not closed or a backslash hides
nothing; one of its words is no token; or the mark of an optional line stands behind another token.
The ways count in this order, and in each of them the first place from the left does. `LineFault`
says so, and `Line.parse_eq_error_iff` that a line is refused for this reason and for no other.
-/

namespace Gleaner

/-- What is wrong with a line, and where. -/
inductive LineFault (line : String) : Fault → Prop where
  /-- Behind whole lexemes there is no further one; the rest of the line is pointed at. -/
  | broken {cause : LineCause} {complete broken : List Char}
    (parts : line.toList = complete ++ broken) (whole : Word.Complete complete)
    (breaks : Word.Breaks cause broken) :
    LineFault line (.badLine cause ⟨line, ⟨byteLength complete, byteLength line.toList⟩⟩)
  /-- A word is no token, and all words before it are. -/
  | token {before behind : List Word} {word : Word}
    (splits : Word.split line = .ok (before ++ word :: behind))
    (tokens : ∀ other ∈ before, TokenText other.text) (unknown : ¬TokenText word.text) :
    LineFault line (.badToken (String.ofList word.text) (some ⟨line, word.span⟩))
  /-- All words are tokens, and one behind the first is the mark; none between them is. -/
  | marker {first word : Word} {between behind : List Word}
    (splits : Word.split line = .ok (first :: (between ++ word :: behind)))
    (tokens : ∀ other ∈ first :: (between ++ word :: behind), TokenText other.text)
    (unmarked : ∀ other ∈ between, other.text ≠ ['?']) (marked : word.text = ['?']) :
    LineFault line (.badLine .misplacedMarker ⟨line, word.span⟩)

/-- Nothing is wrong with a line: its words are tokens, and none but the first is the mark. -/
def SoundLine (line : String) : Prop :=
  ∃ words, Word.split line = .ok words ∧ (∀ word ∈ words, TokenText word.text) ∧
    ∀ word ∈ words.tail, word.text ≠ ['?']

/-- The first of some things that lacks a property. -/
theorem exists_first_not {α : Type} {good : α → Prop} [DecidablePred good] {all : List α}
    (bad : ¬∀ one ∈ all, good one) :
    ∃ before one behind, all = before ++ one :: behind ∧ (∀ other ∈ before, good other) ∧
      ¬good one := by
  cases found : all.find? (fun one => ¬good one) with
  | none =>
    have none_ := List.find?_eq_none.mp found
    exact absurd (by simpa using none_) bad
  | some one =>
    obtain ⟨lacks, before, behind, same, others⟩ := List.find?_eq_some_iff_append.mp found
    exact ⟨before, one, behind, same, by simpa using others, by simpa using lacks⟩

/-- A line is sound, or something is wrong with it. -/
theorem exists_fault_or_sound (line : String) :
    (∃ fault, LineFault line fault) ∨ SoundLine line := by
  -- In the order of reading: the words, then the tokens, then the marks.
  cases splits : Word.split line with
  | error fault =>
    obtain ⟨cause, complete, broken, parts, whole, breaks, -⟩ := Word.split_eq_error_iff.mp splits
    exact .inl ⟨_, .broken parts whole breaks⟩
  | ok words =>
    by_cases tokens : ∀ word ∈ words, TokenText word.text
    · by_cases unmarked : ∀ word ∈ words.tail, word.text ≠ ['?']
      · exact .inr ⟨words, splits, tokens, unmarked⟩
      -- The first of the misplaced marks is the fault.
      · obtain ⟨between, word, behind, same, others, marked⟩ := exists_first_not unmarked
        cases words with
        | nil => simp at same
        | cons first rest =>
          rw [List.tail_cons] at same
          subst same
          exact .inl ⟨_, .marker splits tokens others (not_not.mp marked)⟩
    · obtain ⟨before, word, behind, rfl, others, unknown⟩ := exists_first_not tokens
      exact .inl ⟨_, .token splits others unknown⟩

/-! ### Where a fault points at -/

theorem Word.Breaks.ne_nil {cause : LineCause} {text : List Char} (breaks : Breaks cause text) :
    text ≠ [] := by
  cases breaks <;> simp

/-- The cause is told by the character that the break begins with. -/
theorem Word.Breaks.message {cause : LineCause} {c : Char} {rest : List Char}
    (breaks : Breaks cause (c :: rest)) :
    cause.message = if c = '\\' then "dangling escape" else "unterminated quote" := by
  cases breaks <;> rfl

namespace LineFault

/-- A fault points at a part of the line. -/
theorem located {line : String} {fault : Fault} (wrong : LineFault line fault) :
    ∃ span, fault.location? = some ⟨line, span⟩ ∧ span.Within line := by
  cases wrong with
  | @broken cause complete broken parts whole breaks =>
    refine ⟨_, rfl, ?_⟩
    -- What breaks reaches to the end of the line.
    have parts' : line.toList = complete ++ (broken ++ []) := by rwa [List.append_nil]
    have within := within_of_append parts' breaks.ne_nil
    rwa [← byteLength_append, ← parts] at within
  | token splits =>
    exact ⟨_, rfl, (Word.partition_of_split splits).within _ (by simp)⟩
  | marker splits =>
    exact ⟨_, rfl, (Word.partition_of_split splits).within _ (by simp)⟩

/-- The part of a line that is no token is cut into that one word when it stands alone. -/
theorem token_alone {line token : String} {location : Location}
    (wrong : LineFault line (.badToken token (some location))) :
    Word.split (location.span.slice line) =
      .ok [⟨token.toList, ⟨0, (location.span.slice line).utf8ByteSize⟩⟩] := by
  cases wrong with
  | token splits =>
    rw [String.toList_ofList]
    exact (Word.partition_of_split splits).alone _ (by simp)

/-- The wordings of what is wrong with a line as a line. -/
theorem cause_message {line : String} {cause : LineCause} {location : Location}
    (wrong : LineFault line (.badLine cause location)) :
    cause.message ∈ ["unterminated quote", "dangling escape",
      "optional-line marker `?` must be the first token"] := by
  cases wrong with
  | broken parts whole breaks => cases breaks <;> simp [LineCause.message]
  | marker => simp [LineCause.message]

end LineFault

namespace Line

/-! ### Words that are tokens -/

/-- The token of a word; a word that is none is taken for something else than the mark. -/
def tokenOf (word : Word) : Token :=
  (Token.decode word.text).getD (.anything false)

theorem decode_eq_tokenOf {word : Word} (token : TokenText word.text) :
    Token.decode word.text = some (tokenOf word) := by
  obtain ⟨found, decoded⟩ := Option.isSome_iff_exists.mp (Token.isSome_decode_iff.mpr token)
  rw [tokenOf, decoded, Option.getD_some]

theorem isOptionalLine_tokenOf (word : Word) :
    (tokenOf word).isOptionalLine = decide (word.text = ['?']) := by
  by_cases marked : word.text = ['?']
  · rw [tokenOf, marked]
    rfl
  · rw [decide_eq_false marked, tokenOf]
    cases decoded : Token.decode word.text with
    | none => rfl
    | some token =>
      -- Only the mark itself is written with the mark's one character.
      cases token with
      | optionalLine => exact absurd (Token.decode_eq_some.mp decoded).symm marked
      | anything => rfl
      | literal => rfl
      | misc => rfl
      | number => rfl

theorem readToken_eq_ok {line : String} {word : Word} (token : TokenText word.text) :
    readToken line word = .ok (tokenOf word, word.span) := by
  rw [readToken, Token.parse, String.toList_ofList, decode_eq_tokenOf token]

theorem readToken_eq_error {line : String} {word : Word} (unknown : ¬TokenText word.text) :
    readToken line word =
      .error (.badToken (String.ofList word.text) (some ⟨line, word.span⟩)) := by
  have none_ : Token.decode word.text = none := by
    rw [← Option.not_isSome_iff_eq_none, Token.isSome_decode_iff]
    exact unknown
  rw [readToken, Token.parse, String.toList_ofList, none_]
  rfl

theorem readTokens_eq_ok {line : String} {words : List Word}
    (tokens : ∀ word ∈ words, TokenText word.text) :
    words.mapM (readToken line) = .ok (words.map fun word => (tokenOf word, word.span)) := by
  rw [except_mapM_eq_ok, List.forall₂_map_right_iff, List.forall₂_same]
  exact fun word member => readToken_eq_ok (tokens word member)

/-- A mark at the first place is no fault, so only the tokens behind it are looked at. -/
theorem ofTokens_eq (line : String) (tokens : List (Token × Span)) :
    ∃ parsed, ofTokens line tokens =
      match tokens.tail.find? fun found => found.1.isOptionalLine with
      | some (_, span) => .error (.badLine .misplacedMarker ⟨line, span⟩)
      | none => .ok parsed := by
  -- A mark that is first is dropped, and another first token is no mark.
  have same : (if tokens.head?.any (fun found => found.1.isOptionalLine) then tokens.tail else
      tokens).find? (fun found => found.1.isOptionalLine) =
        tokens.tail.find? (fun found => found.1.isOptionalLine) := by
    cases tokens with
    | nil => rfl
    | cons first rest => cases optional : first.1.isOptionalLine <;> simp [optional]
  simp only [ofTokens, same]
  exact ⟨_, rfl⟩

/-- A line whose words are tokens is refused for its first mark that stands behind another token. -/
theorem parse_of_tokens {line : String} {words : List Word} (splits : Word.split line = .ok words)
    (tokens : ∀ word ∈ words, TokenText word.text) :
    ∃ parsed, parse line =
      match words.tail.find? fun word => word.text = ['?'] with
      | some word => .error (.badLine .misplacedMarker ⟨line, word.span⟩)
      | none => .ok parsed := by
  -- Words are marks if their tokens are.
  have marks : (fun found : Token × Span => found.1.isOptionalLine) ∘
      (fun word => (tokenOf word, word.span)) = fun word => decide (word.text = ['?']) :=
    funext isOptionalLine_tokenOf
  obtain ⟨parsed, made⟩ := ofTokens_eq line (words.map fun word => (tokenOf word, word.span))
  refine ⟨parsed, ?_⟩
  rw [parse, splits]
  simp only [bind, Except.bind, readTokens_eq_ok tokens, made, ← List.map_tail, List.find?_map,
    marks]
  cases words.tail.find? (fun word => word.text = ['?']) <;> rfl

/-! ### The line as a whole -/

theorem parse_of_fault {line : String} {fault : Fault} (wrong : LineFault line fault) :
    parse line = .error fault := by
  cases wrong with
  | broken parts whole breaks =>
    rw [parse, Word.split_eq_error_iff.mpr ⟨_, _, _, parts, whole, breaks, rfl⟩]
    rfl
  | @token before behind word splits tokens unknown =>
    rw [parse, splits]
    -- All words before it are read, and then this one is refused.
    simp only [bind, Except.bind, List.mapM_append, List.mapM_cons, readTokens_eq_ok tokens,
      readToken_eq_error unknown]
  | @marker first word between behind splits tokens unmarked marked =>
    obtain ⟨parsed, made⟩ := parse_of_tokens splits tokens
    -- No word between the first and this one is a mark.
    have found : (between ++ word :: behind).find? (fun word => word.text = ['?']) = some word := by
      rw [List.find?_eq_some_iff_append]
      exact ⟨by simpa using marked, between, behind, rfl, by simpa using unmarked⟩
    rw [made, List.tail_cons, found]

theorem parse_of_sound {line : String} (sound : SoundLine line) :
    ∃ parsed, parse line = .ok parsed := by
  obtain ⟨words, splits, tokens, unmarked⟩ := sound
  obtain ⟨parsed, made⟩ := parse_of_tokens splits tokens
  have missing : words.tail.find? (fun word => word.text = ['?']) = none := by
    rw [List.find?_eq_none]
    simpa using unmarked
  rw [missing] at made
  exact ⟨parsed, made⟩

/-- A line is refused for what is wrong with it. -/
theorem parse_eq_error_iff {line : String} {fault : Fault} :
    parse line = .error fault ↔ LineFault line fault := by
  constructor
  · intro refused
    rcases exists_fault_or_sound line with ⟨fault', wrong⟩ | sound
    · cases refused.symm.trans (parse_of_fault wrong)
      exact wrong
    · obtain ⟨parsed, made⟩ := parse_of_sound sound
      cases refused.symm.trans made
  · exact parse_of_fault

theorem exists_parse_iff {line : String} :
    (∃ parsed, parse line = .ok parsed) ↔ SoundLine line := by
  constructor
  · rintro ⟨parsed, made⟩
    rcases exists_fault_or_sound line with ⟨fault, wrong⟩ | sound
    · cases made.symm.trans (parse_of_fault wrong)
    · exact sound
  · exact parse_of_sound

end Line

theorem compileLine_eq_error {line : String} {allowCapture : Bool} {start : Nat} {fault : Fault} :
    compileLine line allowCapture start = .error fault ↔ LineFault line fault := by
  rw [← Line.parse_eq_error_iff, compileLine]
  cases Line.parse line <;> simp [Except.map]

theorem exists_compileLine_iff {line : String} {allowCapture : Bool} {start : Nat} :
    (∃ pattern, compileLine line allowCapture start = .ok pattern) ↔ SoundLine line := by
  rw [← Line.exists_parse_iff, compileLine]
  cases Line.parse line <;> simp [Except.map]

end Gleaner
