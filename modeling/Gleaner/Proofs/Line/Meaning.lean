import Gleaner.Proofs.Line.Alone
import Gleaner.Proofs.Line.Slots
import Gleaner.Proofs.Regex.Running
import Gleaner.Proofs.Token.Language

/-!
# The meaning of a line

When a line of a description fits a line of a text, said without a pattern: the text falls into
the texts of the tokens, the gaps that they ask for, and margins at both ends, and numerals stand
apart from the words around them unless a token is glued to them. `compileLine_matches_iff` says
that the pattern of a line matches at the start of the physical lines that it fits, and at no other.
-/

namespace Gleaner

/-! ### Fitting -/

/-- Letters, digits, signs and the point. -/
def isWordChar (c : Char) : Bool :=
  c.isAlphanum || c = '+' || c = '.' || c = '-'

/-- The next token follows without a gap, and is not kept apart from this one. -/
def Token.Glues (token : Token) : Prop :=
  ∃ flags, token.flags? = some flags ∧ flags.spacing = .prohibited

/-- A numeral is not part of a longer word. On a side where a token is glued to it, anything may
stand. -/
structure Token.Apart (token : Token) (previous : Option Token) (before after : Option Char) :
    Prop where
  before : token.content = .number → (∀ other ∈ previous, ¬other.Glues) →
    ∀ c ∈ before, ¬isWordChar c
  after : token.content = .number → ¬token.Glues → ∀ c ∈ after, ¬isWordChar c

/-- Tokens take up the rest of a line, behind the text that is already read and the token that
was last to read some. -/
inductive Reading : List Char → Option Token → List Token → List Char → Prop where
  | none (read : List Char) (previous : Option Token) : Reading read previous [] []
  | last {read : List Char} {previous : Option Token} {token : Token} {value margin : List Char}
      (here : value ∈ token.language) (gap : margin ∈ gaps)
      (apart : token.Apart previous read.getLast? margin.head?) :
      Reading read previous [token] (value ++ margin)
  | more {read : List Char} {previous : Option Token} {token next : Token} {tokens : List Token}
      {value gap rest : List Char}
      (here : value ∈ token.language) (spaced : gap ∈ token.spacing.language)
      (apart : token.Apart previous read.getLast? (gap ++ rest).head?)
      (others : Reading (read ++ value ++ gap) (some token) (next :: tokens) rest) :
      Reading read previous (token :: next :: tokens) (value ++ (gap ++ rest))

/-- A line of a description fits a line of a text. -/
def Line.Fits (line : Line) (word : List Char) : Prop :=
  ∃ margin rest, word = margin ++ rest ∧ margin ∈ gaps ∧ Reading margin none line.tokens rest

/-- No literal of the line holds a line feed. -/
def Line.Feedless (line : Line) : Prop :=
  ∀ token ∈ line.tokens, ∀ text ∈ token.literal?, '\n' ∉ text

/-! ### Word boundaries -/

private theorem has_wordBoundary (c : Char) :
    (CharSet.oneOf WordBoundary.chars).has c = isWordChar c := by
  have lower : (CharRange.mk 'a' 'z').has c = true ↔ c.isLower = true := by
    change _ ↔ (decide ('a'.val ≤ c.val) && decide (c.val ≤ 'z'.val)) = true
    simp [CharRange.has, UInt32.le_iff_toNat_le]
  have upper : (CharRange.mk 'A' 'Z').has c = true ↔ c.isUpper = true := by
    change _ ↔ decide ('A'.val ≤ c.val ∧ c.val ≤ 'Z'.val) = true
    simp [CharRange.has, UInt32.le_iff_toNat_le]
  have digit : (CharRange.mk '0' '9').has c = true ↔ c.isDigit = true := by
    change _ ↔ (decide ('0'.val ≤ c.val) && decide (c.val ≤ '9'.val)) = true
    simp [CharRange.has, UInt32.le_iff_toNat_le]
  -- The marks of exponents are listed once more, though they are letters.
  have marks : c = 'd' ∨ c = 'e' → c.isLower = true := by rintro (rfl | rfl) <;> rfl
  have marks' : c = 'D' ∨ c = 'E' → c.isUpper = true := by rintro (rfl | rfl) <;> rfl
  have letter : c.isAlphanum = (c.isUpper || c.isLower || c.isDigit) := rfl
  rw [Bool.eq_iff_iff]
  simp only [CharSet.has_oneOf, WordBoundary.chars, List.exists_mem_cons_iff, List.not_mem_nil,
    false_and, exists_false, or_false, CharRange.has_only, lower, upper, digit, isWordChar,
    letter, Bool.or_eq_true, decide_eq_true_iff]
  grind

theorem any_wordBoundary (c? : Option Char) :
    c?.any (CharSet.oneOf WordBoundary.chars).has = false ↔ ∀ c ∈ c?, ¬isWordChar c := by
  cases c? <;> simp [has_wordBoundary]

theorem Token.joinsNext_iff {token : Token} : token.joinsNext = true ↔ token.Glues := by
  cases token with
  | optionalLine | anything => simp [joinsNext, Glues, content, Content.takesFlags, flags?]
  | literal flags | misc flags | number flags =>
    simp only [joinsNext, Glues, content, Content.takesFlags, flags?, Bool.true_and,
      Option.some.injEq, exists_eq_left']
    exact decide_eq_true_iff

private theorem spans_opening_if {on : Bool} {left word right : List Char} :
    (if on then WordBoundary.opening else .empty).Spans left word right ↔
      word = [] ∧ (on = true → ∀ c ∈ left.getLast?, ¬isWordChar c) := by
  cases on with
  | false => simp
  | true =>
    rw [if_pos rfl, WordBoundary.opening, Regex.spans_look_before, any_wordBoundary]
    simp [and_comm]

private theorem spans_closing_if {on : Bool} {left word right : List Char} :
    (if on then WordBoundary.closing else .empty).Spans left word right ↔
      word = [] ∧ (on = true → ∀ c ∈ right.head?, ¬isWordChar c) := by
  cases on with
  | false => simp
  | true =>
    rw [if_pos rfl, WordBoundary.closing, Regex.spans_look_after, any_wordBoundary]
    simp [and_comm]

namespace PlacedToken

/-- A token with its word boundaries reads its texts where they stand apart. -/
theorem spans_bounded {glued : Bool} {placed : PlacedToken} {previous : Option Token}
    (before : glued = true ↔ ∃ other ∈ previous, other.Glues) {left word right : List Char} :
    (placed.bounded glued).Spans left word right ↔
      word ∈ placed.token.language ∧
        placed.token.Apart previous left.getLast? right.head? := by
  have number : placed.token.isWordBounded = true ↔ placed.token.content = .number :=
    decide_eq_true_iff
  have apart : placed.token.Apart previous left.getLast? right.head? ↔
      ((placed.token.isWordBounded && !glued) = true → ∀ c ∈ left.getLast?, ¬isWordChar c) ∧
      ((placed.token.isWordBounded && !placed.token.joinsNext) = true →
        ∀ c ∈ right.head?, ¬isWordChar c) := by
    have unglued : glued = false ↔ ∀ other ∈ previous, ¬other.Glues := by
      rw [← Bool.not_eq_true, before]
      simp
    simp only [Bool.and_eq_true, Bool.not_eq_true', number, unglued, ← Bool.not_eq_true
      placed.token.joinsNext, Token.joinsNext_iff, and_imp]
    exact ⟨fun ⟨opens, closes⟩ => ⟨opens, closes⟩, fun ⟨opens, closes⟩ => ⟨opens, closes⟩⟩
  have last : ∀ regex : Regex, Regex.concat [regex] = regex := fun _ => rfl
  simp only [bounded, Regex.spans_concat_cons, Regex.spans_append, last, spans_opening_if,
    spans_closing_if, placed.pattern_denotes _ _ _]
  rw [apart]
  -- The assertions read nothing, so the whole text is the token's.
  constructor
  · rintro ⟨_, _, rfl, ⟨rfl, opens⟩, value, _, rfl, here, rfl, closes⟩
    refine ⟨by simpa using here, opens, by simpa using closes⟩
  · rintro ⟨here, opens, closes⟩
    exact ⟨[], word, rfl, ⟨rfl, opens⟩, word, [], by simp, by simpa using here, rfl,
      by simpa using closes⟩

/-- The margin behind the tokens of a line, if there are any. -/
private abbrev lastMargin (placed : List PlacedToken) : Regex :=
  if placed.isEmpty then .empty else margin

private theorem spans_assoc {first second third : Regex} {left word right : List Char} :
    ((first ++ second) ++ third).Spans left word right ↔
      (first ++ (second ++ third)).Spans left word right := by
  simp only [Regex.Spans, Regex.Reads, Regex.ways_append, Way.chain_assoc]
  rfl

/-- The tokens of a line read what they take up. -/
theorem spans_patternOf {glued : Bool} {placed : List PlacedToken} {previous : Option Token}
    (before : glued = true ↔ ∃ other ∈ previous, other.Glues) {read rest : List Char} :
    (patternOf glued placed ++ lastMargin placed).Spans read rest [] ↔
      Reading read previous (placed.map PlacedToken.token) rest := by
  -- On the tokens: what one of them reads is moved to the left context of the next.
  induction placed generalizing glued previous read rest with
  | nil =>
    have blank : (patternOf glued [] ++ lastMargin []).Spans read rest [] ↔ rest = [] := by
      rw [Regex.spans_append]
      simp [patternOf, lastMargin]
    rw [blank]
    constructor
    · rintro rfl
      exact .none read previous
    · intro reading
      cases reading
      rfl
  | cons first others ih =>
    cases others with
    | nil =>
      have margins := Spacing.separator_denotes .optional
      simp only [patternOf, Regex.spans_append, spans_bounded before]
      constructor
      · rintro ⟨value, gap, rfl, ⟨here, apart⟩, spaced⟩
        exact .last here ((margins _ _ _).mp spaced) (by simpa using apart)
      · intro reading
        cases reading with
        | last here gap apart =>
          exact ⟨_, _, rfl, ⟨here, by simpa using apart⟩, (margins _ _ _).mpr gap⟩
    | cons second others =>
      have separated := first.token.spacing.separator_denotes
      have joins : first.token.joinsNext = true ↔ ∃ other ∈ some first.token, other.Glues := by
        simp [Token.joinsNext_iff]
      have rest_iff : ∀ left word, ((first.token.spacing.separator ++
            patternOf first.token.joinsNext (second :: others)) ++ margin).Spans left word [] ↔
          ∃ gap rest, word = gap ++ rest ∧ gap ∈ first.token.spacing.language ∧
            Reading (left ++ gap) (some first.token) (second.token :: others.map token) rest := by
        intro left word
        rw [spans_assoc, Regex.spans_append]
        simp only [separated _ _ _]
        exact exists₂_congr fun gap rest => and_congr_right fun _ => and_congr_right fun _ => ih joins
      -- The margin stands behind all tokens, and has to be brought to the last one.
      change ((first.bounded glued ++ (first.token.spacing.separator ++
        patternOf first.token.joinsNext (second :: others))) ++ margin).Spans read rest [] ↔ _
      rw [spans_assoc, Regex.spans_append]
      simp only [spans_bounded before, rest_iff]
      constructor
      · rintro ⟨value, _, rfl, ⟨here, apart⟩, gap, rest, rfl, spaced, reading⟩
        exact .more here spaced (by simpa using apart) reading
      · intro reading
        cases reading with
        | more here spaced apart reading =>
          exact ⟨_, _, rfl, ⟨here, by simpa using apart⟩, _, _, rfl,
            spaced, reading⟩

end PlacedToken

/-! ### Lines without line feeds -/

theorem Spacing.inLine_separator (spacing : Spacing) : spacing.separator.inLine = true := by
  cases spacing <;> rfl

theorem Token.inLine_fragment {token : Token} (feedless : ∀ text ∈ token.literal?, '\n' ∉ text) :
    token.fragment.inLine = true := by
  cases token with
  | optionalLine => rfl
  | anything => rfl
  | literal flags first rest =>
    -- A repeated literal has no other characters than the literal.
    have once : (Regex.literal (first :: rest)).inLine = true := by
      rw [Regex.literal, Regex.inLine_concat, List.all_map, List.all_eq_true]
      intro c member
      have other : c ≠ '\n' := fun feed => feedless _ rfl (feed ▸ member)
      simp [Regex.inLine, CharSet.has, Ne.symm other]
    simp only [fragment]
    cases flags.quantity <;> exact once
  | misc flags =>
    simp only [fragment]
    cases flags.quantity <;> rfl
  | number flags sign kind =>
    have once : (Numeral.pattern kind sign).inLine = true := by
      -- There are only so many kinds and signs.
      cases kind <;> cases sign <;> decide
    simp only [fragment]
    cases flags.quantity with
    | single => exact once
    | oneOrMore =>
      simp only [Quantity.choose, Regex.inLine_append, Regex.inLine, once,
        Spacing.inLine_separator, Bool.and_self]

theorem PlacedToken.inLine_pattern {placed : PlacedToken}
    (feedless : ∀ text ∈ placed.token.literal?, '\n' ∉ text) : placed.pattern.inLine = true := by
  unfold pattern
  split <;> exact Token.inLine_fragment feedless

theorem Line.Feedless.inLine {line : Line} (feedless : line.Feedless) (allowCapture : Bool)
    (start : Nat) : (innerRegex (placeTokens allowCapture start line.tokens)).inLine = true := by
  have tokens := map_token_placeTokens allowCapture start line.tokens
  have placed : ∀ one ∈ placeTokens allowCapture start line.tokens, one.pattern.inLine = true := by
    intro one member
    refine PlacedToken.inLine_pattern (feedless one.token ?_)
    rw [← tokens]
    exact List.mem_map_of_mem member
  -- The pattern of a line is put together from parts that all stay in the line.
  have inner := PlacedToken.patternOf_induction (motive := fun regex => regex.inLine = true) rfl
    (fun first second => by rw [Regex.inLine_append, first, second, Bool.and_self]) (by decide)
    (by decide) Spacing.inLine_separator placed false
  have margins : ∀ on : Bool, (if on then .empty else margin).inLine = true := by decide
  have first : margin.inLine = true := Spacing.inLine_separator .optional
  simp only [innerRegex, Regex.inLine_concat, List.all_cons, List.all_nil,
    inner, margins, first, Bool.and_self]

/-! ### Physical lines -/

/-- A part of a text that is one of its lines, without the line feeds around it. -/
structure PhysicalLine (text : Array Char) (start stop : Nat) : Prop where
  forward : start ≤ stop
  inside : stop ≤ text.size
  starts : AtLineStart text start
  ends : AtLineEnd text stop
  feedless : '\n' ∉ text.extract start stop

/-- A text falls into what stands before a part of it, the part, and what stands behind it. -/
theorem extract_parts {text : Array Char} {start stop : Nat} (forward : start ≤ stop)
    (inside : stop ≤ text.size) :
    ((text.extract 0 start).toList ++ (text.extract start stop).toList ++
      (text.extract stop text.size).toList).toArray = text := by
  simp only [← Array.toList_append, Array.toArray_toList, Array.extract_append_extract]
  rw [Nat.min_eq_left (Nat.zero_le _), Nat.max_eq_right forward, Array.extract_append_extract,
    Nat.min_eq_left (Nat.zero_le _), Nat.max_eq_right inside, Array.extract_size]

theorem PhysicalLine.lineIn {text : Array Char} {start stop : Nat}
    (line : PhysicalLine text start stop) :
    LineIn (text.extract 0 start).toList (text.extract start stop).toList
      (text.extract stop text.size).toList where
  before c last := by
    have inside := Nat.le_trans line.forward line.inside
    have size : (text.extract 0 start).toList.length = start := by simp; omega
    rw [List.getLast?_eq_getElem?, size, Array.getElem?_toList, Array.getElem?_extract] at last
    -- At the start of the text nothing stands before the line.
    rcases line.starts with rfl | feed
    · simp at last
    · split at last
      · rw [Nat.zero_add, feed, Option.some.injEq] at last
        exact last.symm
      · cases last
  feedless member := line.feedless (Array.mem_toList_iff.mp member)
  behind c first := by
    rw [List.head?_eq_getElem?, Array.getElem?_toList, Array.getElem?_extract] at first
    -- At the end of the text nothing stands behind it.
    rcases line.ends with rfl | feed
    · simp at first
    · split at first
      · rw [Nat.add_zero, feed, Option.some.injEq] at first
        exact first.symm
      · cases first

namespace Line

private theorem spans_innerRegex (line : Line) (allowCapture : Bool) (start : Nat)
    {word : List Char} :
    (innerRegex (placeTokens allowCapture start line.tokens)).Spans [] word [] ↔
      line.Fits word := by
  -- Nothing stands before the first token of a line, so it is not glued.
  have unglued : false = true ↔ ∃ other ∈ (none : Option Token), other.Glues := by simp
  have tokens := map_token_placeTokens allowCapture start line.tokens
  have margins := Spacing.separator_denotes .optional
  have shape : ∀ placed, innerRegex placed =
      margin ++ (PlacedToken.patternOf false placed ++ PlacedToken.lastMargin placed) :=
    fun _ => rfl
  rw [shape, Regex.spans_append]
  simp only [PlacedToken.spans_patternOf unglued, tokens, List.append_nil, List.nil_append]
  exact exists₂_congr fun margin rest =>
    and_congr_right fun _ => and_congr_left fun _ => margins _ _ _

/-- In a line taken alone, the pattern reads the whole line or nothing. -/
theorem exists_reads_alone (line : Line) (allowCapture : Bool) (start : Nat)
    {word : List Char} (feedless : '\n' ∉ word) :
    (∃ stop, (wholeRegex (placeTokens allowCapture start line.tokens)).Reads word.toArray 0 stop) ↔
      line.Fits word := by
  -- There is no line feed to stop at, so the anchor at the end leaves only one end.
  have ended : ∀ stop, AtLineEnd word.toArray stop ↔ stop = word.length := by
    intro stop
    simp only [AtLineEnd, List.size_toArray, List.getElem?_toArray, or_iff_left_iff_imp]
    exact fun feed => absurd (List.mem_of_getElem? feed) feedless
  have begun : AtLineStart word.toArray 0 := Or.inl rfl
  simp only [reads_wholeRegex, ended, begun, true_and, exists_eq_right]
  rw [← spans_innerRegex line allowCapture start, Regex.Spans]
  simp

/-- The pattern of a line matches at the start of a line of a text if the line fits. -/
theorem matchesAt_wholeRegex {line : Line} (feedless : line.Feedless) (allowCapture : Bool)
    (start : Nat) {text : Array Char} {first last : Nat} (physical : PhysicalLine text first last) :
    (wholeRegex (placeTokens allowCapture start line.tokens)).MatchesAt text first ↔
      line.Fits (text.extract first last).toList := by
  have lineIn := physical.lineIn
  have alone := ways_alone lineIn (feedless.inLine allowCapture start)
  have offset : (text.extract 0 first).toList.length = first := by
    have inside := Nat.le_trans physical.forward physical.inside
    simp
    omega
  rw [extract_parts physical.forward physical.inside, offset] at alone
  -- The line is cut out of its text and looked at alone.
  rw [Regex.matchesAt_iff, alone, Ne, List.map_eq_nil_iff, ← Ne, Regex.ways_ne_nil_iff]
  exact exists_reads_alone line allowCapture start lineIn.feedless

end Line

/-- What a written line means: its pattern, without the mark of an optional line, matches at the
start of a line of a text if and only if the line fits. -/
theorem compileLine_matches_iff {source : String} {line : Line} (parsed : Line.parse source = .ok line)
    (feedless : line.Feedless) (allowCapture : Bool) (start : Nat) :
    ∃ pattern whole, compileLine source allowCapture start = .ok pattern ∧
      pattern.optional = line.optional ∧
      pattern.regex = (if line.optional then .optional (.group .bundle whole) else whole) ∧
      ∀ text first last, PhysicalLine text first last →
        (whole.MatchesAt text first ↔ line.Fits (text.extract first last).toList) := by
  -- The pattern is the optional one of this whole, or the whole itself.
  refine ⟨line.pattern allowCapture start,
    Line.wholeRegex (placeTokens allowCapture start line.tokens), ?_, rfl, rfl, ?_⟩
  · simp [compileLine, parsed, Except.map]
  · intro text first last physical
    exact Line.matchesAt_wholeRegex feedless allowCapture start physical

/-- A numeral glued to the text before it, in the second line of a text. -/
theorem compileLine_matches_iff_glued :
    ∃ line, Line.parse "? @x.v= #!+.d" = .ok line ∧ line.Feedless ∧
      ∃ pattern whole, compileLine "? @x.v= #!+.d" true 7 = .ok pattern ∧
        pattern.regex = .optional (.group .bundle whole) ∧
        PhysicalLine "a\nv=1.5 .2\n".toList.toArray 2 10 ∧
        (whole.MatchesAt "a\nv=1.5 .2\n".toList.toArray 2 ↔ line.Fits "v=1.5 .2".toList) := by
  let line : Line := ⟨true, [.literal ⟨.prohibited, false, .single⟩ 'v' ['='],
    .number ⟨.required, true, .oneOrMore⟩ .any .decimal]⟩
  have parsed : Line.parse "? @x.v= #!+.d" = .ok line := by decide +kernel
  have feedless : line.Feedless := by simp [Line.Feedless, line, Token.literal?]
  have physical : PhysicalLine "a\nv=1.5 .2\n".toList.toArray 2 10 :=
    ⟨by decide, by decide, Or.inr (by decide), Or.inr (by decide), by decide +kernel⟩
  obtain ⟨pattern, whole, compiled, -, regex, matches_⟩ :=
    compileLine_matches_iff parsed feedless true 7
  exact ⟨line, parsed, feedless, pattern, whole, compiled, regex, physical, matches_ _ _ _ physical⟩

end Gleaner
