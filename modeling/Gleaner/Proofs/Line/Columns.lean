import Gleaner.Capture.Extractor
import Gleaner.Proofs.Line.Tokens
import Gleaner.Proofs.Token.Fields

/-!
# The columns of a row

A row is read from a piece of text that a sequence of lines takes up, each with its tokens in order.
`Line.Row` says what the row holds: the values of the tokens that are kept, one token behind the
other and one line behind the other. A token that is not repeated gives the text that it stands for;
a repeated one gives the pieces of this text. Only a line that is missing gives null, once for each of
its tokens that are kept.

Values are looked up by the names of groups in all that a match has captured. This comes to the same
as looking at the token itself, since no two groups of a sequence of lines have the same name.
-/

namespace Gleaner

/-! ### What a token gives -/

/-- The texts that are kept of a token which stands for `span`. -/
def Token.Keeps : Token → List Char → List (List Char) → Prop
  | optionalLine, _, _ => False
  | anything _, span, texts => texts = [span] ∧ '\n' ∉ span
  | literal flags first rest, span, texts =>
    match flags.quantity with
    | .single => texts = [span] ∧ span = first :: rest
    | .oneOrMore => texts = fieldsBy isBlank span
  | misc flags, span, texts =>
    match flags.quantity with
    | .single => texts = [span] ∧ span ∈ words
    | .oneOrMore => texts = fieldsBy isBlank span
  -- Numerals are cut at the gaps that the pattern allows between them, and none of them has a
  -- blank.
  | number flags sign kind, span, texts =>
    match flags.quantity with
    | .single => texts = [span] ∧ span ∈ Numeral.language kind sign
    | .oneOrMore =>
      texts = fieldsBy isGap span ∧ texts ≠ [] ∧ ∀ text ∈ texts, text ∈ Numeral.language kind sign

/-- The values of a token which stands for `span`. -/
inductive Token.Column (token : Token) (span : List Char) : List Value → Prop where
  | passed (capture : token.capture = false) : Column token span []
  | kept {texts : List (List Char)} (capture : token.capture = true) (keeps : token.Keeps span texts) :
    Column token span (texts.map fun text => .text (String.ofList text))

/-- Tokens take up a text, with the gaps that they ask for between them, and give values. -/
inductive Columns : List Token → List Char → List Value → Prop where
  | none : Columns [] [] []
  | last {token : Token} {span : List Char} {items : List Value} (here : span ∈ token.language)
    (column : token.Column span items) : Columns [token] span items
  | more {token next : Token} {tokens : List Token} {span gap rest : List Char}
    {items items' : List Value} (here : span ∈ token.language) (column : token.Column span items)
    (spaced : gap ∈ token.spacing.language) (others : Columns (next :: tokens) rest items') :
    Columns (token :: next :: tokens) (span ++ (gap ++ rest)) (items ++ items')

/-- A line takes up a text between its margins and gives values, or it is missing, which only an
optional line can be. -/
inductive Line.Columns (line : Line) : List Char → List Value → Prop where
  | there {before word behind : List Char} {items : List Value} (margin : before ∈ gaps)
    (columns : Gleaner.Columns line.tokens word items) (margin' : behind ∈ gaps) :
    Columns line (before ++ (word ++ behind)) items
  | missing (optional : line.optional = true) :
    Columns line [] (List.replicate (line.tokens.filter Token.capture).length .null)

/-- Lines take up a text, with at most a line feed between two of them, and give a row. -/
inductive Line.Row : List Line → List Char → List Value → Prop where
  | last {line : Line} {word : List Char} {items : List Value} (columns : line.Columns word items) :
    Row [line] word items
  | more {line next : Line} {lines : List Line} {word joint rest : List Char}
    {items items' : List Value} (columns : line.Columns word items)
    (joined : joint = [] ∨ joint = ['\n']) (others : Row (next :: lines) rest items') :
    Row (line :: next :: lines) (word ++ (joint ++ rest)) (items ++ items')

/-- What is kept of a token that is repeated, and of one that is not. -/
theorem Token.keeps_of_mem {token : Token} (capture : token.capture = true) {span : List Char}
    (here : span ∈ token.language) :
    token.Keeps span (if token.quantity.isRepeated then blankFields span else [span]) := by
  cases token with
  | optionalLine => cases capture
  | anything => exact ⟨rfl, here⟩
  | literal flags first rest =>
    obtain ⟨spacing, _, quantity⟩ := flags
    cases quantity with
    | single => exact ⟨rfl, here⟩
    | oneOrMore => exact blankFields_eq span
  | misc flags =>
    obtain ⟨spacing, _, quantity⟩ := flags
    cases quantity with
    | single => exact ⟨rfl, here⟩
    | oneOrMore => exact blankFields_eq span
  | number flags sign kind =>
    obtain ⟨spacing, _, quantity⟩ := flags
    cases quantity with
    | single => exact ⟨rfl, here⟩
    | oneOrMore =>
      obtain ⟨numerals, spaced, each⟩ := mem_spaced.mp here
      have solid word (member : word ∈ numerals) := Numeral.solid_of_mem (each word member)
      -- Numerals hold no blanks at all, so it does not matter that other blanks would cut as well.
      have pieces : fieldsBy isGap span = numerals := by
        refine fieldsBy_spaced (by simp [isGap]) spaced fun word member => ?_
        exact ⟨fun c inWord => isGap_of_isBlank ((solid word member).1 c inWord), (solid word member).2⟩
      change blankFields span = _ ∧ blankFields span ≠ [] ∧ ∀ text ∈ blankFields span, _
      rw [blankFields_spaced spaced solid, pieces]
      exact ⟨rfl, spaced.ne_nil, each⟩

/-! ### Places -/

/-- What is kept of a token is part of the text that it stands for. -/
theorem Token.Keeps.isInfix {token : Token} {span : List Char} {texts : List (List Char)}
    (keeps : token.Keeps span texts) : ∀ text ∈ texts, text <:+: span := by
  -- Whatever the token, its whole text is kept or the pieces of it.
  have whole (same : texts = [span]) : ∀ text ∈ texts, text <:+: span := by
    rw [same, List.forall_mem_singleton]
  have pieces {cuts : Char → Bool} (same : texts = fieldsBy cuts span) :
      ∀ text ∈ texts, text <:+: span := by
    rw [same]
    exact isInfix_of_mem_fieldsBy
  cases token with
  | optionalLine => cases keeps
  | anything => exact whole keeps.1
  | literal flags =>
    cases quantity : flags.quantity <;> simp only [Keeps, quantity] at keeps
    · exact whole keeps.1
    · exact pieces keeps
  | misc flags =>
    cases quantity : flags.quantity <;> simp only [Keeps, quantity] at keeps
    · exact whole keeps.1
    · exact pieces keeps
  | number flags =>
    cases quantity : flags.quantity <;> simp only [Keeps, quantity] at keeps
    · exact whole keeps.1
    · exact pieces keeps.1

theorem Token.Column.isInfix {token : Token} {span : List Char} {items : List Value}
    (column : token.Column span items) {text : String} (member : .text text ∈ items) :
    text.toList <:+: span := by
  cases column with
  | passed => cases member
  | kept capture keeps =>
    obtain ⟨kept, isKept, same⟩ := List.mem_map.mp member
    cases same
    rw [String.toList_ofList]
    exact keeps.isInfix kept isKept

theorem Columns.isInfix {tokens : List Token} {word : List Char} {items : List Value}
    (columns : Columns tokens word items) {text : String} (member : .text text ∈ items) :
    text.toList <:+: word := by
  induction columns with
  | none => cases member
  | last _ column => exact column.isInfix member
  | @more _ _ _ span gap rest _ _ _ column _ _ ih =>
    rcases List.mem_append.mp member with here | behind
    · exact (column.isInfix here).trans (List.prefix_append span _).isInfix
    · exact (ih behind).trans ((List.suffix_append gap rest).trans (List.suffix_append span _)).isInfix

theorem Line.Columns.isInfix {line : Line} {word : List Char} {items : List Value}
    (columns : line.Columns word items) {text : String} (member : .text text ∈ items) :
    text.toList <:+: word := by
  cases columns with
  | @there before word behind _ _ columns _ =>
    exact (columns.isInfix member).trans
      ((List.prefix_append word behind).isInfix.trans (List.suffix_append before _).isInfix)
  | missing => cases List.eq_of_mem_replicate member

/-- Every text of a row is part of the text that the row is read from. -/
theorem Line.Row.isInfix {lines : List Line} {word : List Char} {items : List Value}
    (row : Row lines word items) {text : String} (member : .text text ∈ items) :
    text.toList <:+: word := by
  induction row with
  | last columns => exact columns.isInfix member
  | @more _ _ _ word joint rest _ _ columns _ _ ih =>
    rcases List.mem_append.mp member with here | behind
    · exact (columns.isInfix here).trans (List.prefix_append word _).isInfix
    · exact (ih behind).trans ((List.suffix_append joint rest).trans (List.suffix_append word _)).isInfix

/-! ### Widths -/

/-- A token that is kept once gives one value. -/
theorem Token.Column.length_eq {token : Token} {span : List Char} {items : List Value}
    (column : token.Column span items) (single : token.capture = true → token.quantity = .single) :
    items.length = ([token].filter Token.capture).length := by
  cases column with
  | passed capture => simp [capture]
  | kept capture keeps =>
    -- The quantity decides between one text and pieces.
    have once := single capture
    cases token with
    | optionalLine => cases keeps
    | anything => simp [keeps.1, capture]
    | literal flags | misc flags | number flags =>
      simp only [Token.quantity, flags?, Option.map_some, Option.getD_some] at once
      simp only [Keeps, once] at keeps
      simp [keeps.1, capture]

theorem Columns.length_eq {tokens : List Token} {word : List Char} {items : List Value}
    (columns : Columns tokens word items)
    (single : ∀ token ∈ tokens, token.capture = true → token.quantity = .single) :
    items.length = (tokens.filter Token.capture).length := by
  induction columns with
  | none => rfl
  | last _ column => exact column.length_eq (single _ List.mem_cons_self)
  | @more token next tokens _ _ _ _ _ _ column _ _ ih =>
    obtain ⟨here, others⟩ := List.forall_mem_cons.mp single
    have split : (token :: next :: tokens).filter Token.capture =
        [token].filter Token.capture ++ (next :: tokens).filter Token.capture :=
      List.filter_append [token] _
    rw [split, List.length_append, List.length_append, column.length_eq here, ih others]

theorem Line.Columns.length_eq {line : Line} {word : List Char} {items : List Value}
    (columns : line.Columns word items)
    (single : ∀ token ∈ line.tokens.filter Token.capture, token.quantity = .single) :
    items.length = (line.tokens.filter Token.capture).length := by
  cases columns with
  | there _ columns _ =>
    apply columns.length_eq
    exact fun token member capture => single token (List.mem_filter.mpr ⟨member, capture⟩)
  | missing => exact List.length_replicate

/-- Where no token is kept repeatedly, a row has one value for each token that is kept. -/
theorem Line.Row.length_eq {lines : List Line} {word : List Char} {items : List Value}
    (row : Row lines word items) (single : ∀ token ∈ kept lines, token.quantity = .single) :
    items.length = (kept lines).length := by
  induction row with
  | last columns =>
    simp only [kept, List.flatMap_cons, List.flatMap_nil, List.append_nil] at single ⊢
    exact columns.length_eq single
  | more columns _ _ ih =>
    rw [kept_cons, List.forall_mem_append] at single
    rw [kept_cons, List.length_append, List.length_append, columns.length_eq single.1, ih single.2]

/-! ### Looking up what was captured -/

/-- The values of a slot, looked up in what was captured. -/
def Slot.valuesAmong (captures : List Capture) (text : Array Char) (slot : Slot) : List Value :=
  slot.values ⟨0, 0, captures⟩ text

namespace Slot

variable {slot : Slot} {text : Array Char} {captures captures' : List Capture}

private theorem find?_eq_none (apart : ∀ capture ∈ captures, capture.name ≠ slot.name) :
    captures.find? (fun capture => capture.name = slot.name) = none := by
  rw [List.find?_eq_none]
  simpa using apart

/-- What others have captured before does not count. -/
theorem valuesAmong_append_left (apart : ∀ capture ∈ captures', capture.name ≠ slot.name) :
    slot.valuesAmong (captures ++ captures') text = slot.valuesAmong captures text := by
  simp only [valuesAmong, values, Match.group?, List.find?_append, find?_eq_none apart, Option.or_none]

/-- What others have captured since does not count. -/
theorem valuesAmong_append_right (apart : ∀ capture ∈ captures, capture.name ≠ slot.name) :
    slot.valuesAmong (captures ++ captures') text = slot.valuesAmong captures' text := by
  simp only [valuesAmong, values, Match.group?, List.find?_append, find?_eq_none apart, Option.none_or]

end Slot

/-- Two parts of a pattern with different names find their own captures, and nothing else. -/
theorem flatMap_valuesAmong {slots slots' : List Slot} {captures captures' : List Capture}
    (nodup : ((slots ++ slots').map Slot.name).Nodup)
    (named : ∀ capture ∈ captures, capture.name ∈ slots.map Slot.name)
    (named' : ∀ capture ∈ captures', capture.name ∈ slots'.map Slot.name) (text : Array Char) :
    (slots ++ slots').flatMap (Slot.valuesAmong (captures' ++ captures) text) =
      slots.flatMap (Slot.valuesAmong captures text) ++
        slots'.flatMap (Slot.valuesAmong captures' text) := by
  rw [List.map_append, List.nodup_append] at nodup
  obtain ⟨-, -, differ⟩ := nodup
  rw [List.flatMap_append]
  congr 1
  -- Names of the second part are not found among the captures of the first.
  · apply List.flatMap_congr
    intro slot member
    apply Slot.valuesAmong_append_right
    exact fun capture captured => (differ _ (List.mem_map_of_mem member) _ (named' capture captured)).symm
  -- What the first part has captured stands behind and is not reached.
  · apply List.flatMap_congr
    intro slot member
    apply Slot.valuesAmong_append_left
    exact fun capture captured => differ _ (named capture captured) _ (List.mem_map_of_mem member)

/-- Where nothing was captured, every slot is null. -/
theorem flatMap_valuesAmong_nil (slots : List Slot) (text : Array Char) :
    slots.flatMap (Slot.valuesAmong [] text) = List.replicate slots.length .null := by
  induction slots with
  | nil => rfl
  | cons slot rest ih =>
    rw [List.flatMap_cons, ih, List.length_cons, List.replicate_succ]
    rfl

/-! ### Tokens -/

/-- The text between two places. -/
def between (text : Array Char) (start stop : Nat) : List Char :=
  (text.extract start stop).toList

theorem between_append {text : Array Char} {first second third : Nat} (forward : first ≤ second)
    (forward' : second ≤ third) :
    between text first second ++ between text second third = between text first third := by
  rw [between, between, ← Array.toList_append, extract_append forward forward']
  rfl

theorem between_self (text : Array Char) (pos : Nat) : between text pos pos = [] := by
  simp [between]

namespace PlacedToken

variable {text : Array Char} {start stop : Nat}

theorem name_of_mem_capturesAt {placed : PlacedToken} :
    ∀ capture ∈ placed.capturesAt start stop, capture.name ∈ placed.slot?.toList.map Slot.name := by
  obtain ⟨token, slot⟩ := placed
  cases slot <;> simp [capturesAt, slot?, Slot.name]

theorem column_of_reads {placed : PlacedToken} (slotted : placed.slot.isSome = placed.token.capture)
    (here : between text start stop ∈ placed.token.language) :
    placed.token.Column (between text start stop)
      (placed.slot?.toList.flatMap (Slot.valuesAmong (placed.capturesAt start stop) text)) := by
  obtain ⟨token, slot⟩ := placed
  cases slot with
  | none => exact .passed slotted.symm
  | some index =>
    have values : (PlacedToken.mk token (some index)).slot?.toList.flatMap
        (Slot.valuesAmong (capturesAt ⟨token, some index⟩ start stop) text) =
        (if token.quantity.isRepeated then blankFields (between text start stop)
          else [between text start stop]).map fun text => .text (String.ofList text) := by
      -- The name is looked up among one capture, which has this name.
      simp only [slot?, Option.map_some, Option.toList_some, List.flatMap_singleton,
        Slot.valuesAmong, Slot.values, Match.group?, capturesAt, List.map_cons, List.map_nil, Slot.name,
        List.find?_cons, decide_true, between]
      split <;> rfl
    rw [values]
    exact .kept slotted.symm (Token.keeps_of_mem slotted.symm here)

end PlacedToken

namespace TokensAt

variable {text : Array Char} {placed : List PlacedToken} {start stop : Nat} {captures : List Capture}

theorem forward (tokens : TokensAt text placed start stop captures) : start ≤ stop := by
  induction tokens with
  | none => exact Nat.le_refl _
  | last reads => exact reads.forward
  | more reads gap _ ih => exact Nat.le_trans reads.forward (Nat.le_trans gap.forward ih)

theorem names (tokens : TokensAt text placed start stop captures) :
    ∀ capture ∈ captures, capture.name ∈ (placed.filterMap PlacedToken.slot?).map Slot.name := by
  induction tokens with
  | none => simp
  | @last placed start stop _ =>
    intro capture captured
    rw [PlacedToken.filterMap_slot?_cons, List.filterMap_nil, List.append_nil]
    exact PlacedToken.name_of_mem_capturesAt capture captured
  | @more placed next rest start stop _ _ _ _ _ _ ih =>
    intro capture captured
    rw [PlacedToken.filterMap_slot?_cons, List.map_append, List.mem_append]
    -- The captures of the first token were made first and stand last.
    rcases List.mem_append.mp captured with behind | here
    · exact Or.inr (ih capture behind)
    · exact Or.inl (PlacedToken.name_of_mem_capturesAt capture here)

/-- The tokens of a line give the columns of a row. -/
theorem columns (tokens : TokensAt text placed start stop captures)
    (slotted : ∀ one ∈ placed, one.slot.isSome = one.token.capture)
    (nodup : ((placed.filterMap PlacedToken.slot?).map Slot.name).Nodup) (inside : stop ≤ text.size) :
    Columns (placed.map PlacedToken.token) (between text start stop)
      ((placed.filterMap PlacedToken.slot?).flatMap (Slot.valuesAmong captures text)) := by
  -- On the tokens: what the first one has captured is found behind the captures of the others.
  induction tokens with
  | none pos =>
    rw [between_self]
    exact .none
  | @last placed start stop reads =>
    have here := placed.token.fragment_denotes.mem_of_reads reads inside
    rw [PlacedToken.filterMap_slot?_cons, List.filterMap_nil, List.append_nil]
    exact .last here (PlacedToken.column_of_reads (slotted _ List.mem_cons_self) here)
  | @more placed next rest start stop start' stop' captures reads gap others ih =>
    obtain ⟨isSlotted, slotted⟩ := List.forall_mem_cons.mp slotted
    have gapForward := gap.forward
    have behind := others.forward
    have here := placed.token.fragment_denotes.mem_of_reads reads (by omega)
    have spaced := placed.token.spacing.separator_denotes.mem_of_reads gap (by omega)
    rw [PlacedToken.filterMap_slot?_cons] at nodup ⊢
    rw [flatMap_valuesAmong nodup PlacedToken.name_of_mem_capturesAt others.names,
      ← between_append reads.forward (Nat.le_trans gapForward behind), ← between_append gapForward behind]
    rw [List.map_append] at nodup
    exact .more here (PlacedToken.column_of_reads isSlotted here) spaced
      (ih slotted nodup.of_append_right inside)

end TokensAt

/-! ### Lines -/

theorem feed_of_reads_lineJoint {text : Array Char} {start stop : Nat}
    (joined : lineJoint.Reads text start stop) (inside : stop ≤ text.size) :
    between text start stop = [] ∨ between text start stop = ['\n'] := by
  have member := ((Regex.Denotes.char .lineBreak).optional).mem_of_reads joined inside
  rcases member with ⟨c, single, isFeed⟩ | nothing
  · rw [show c = '\n' by simpa [CharSet.has] using isFeed] at single
    exact Or.inr single
  · exact Or.inl nothing

namespace Line

variable {text : Array Char} {pos : Nat} {way : Way}

theorem columns_of_mem_whole {line : Line} {start : Nat}
    (nodup : ((line.pattern true start).slots.map Slot.name).Nodup)
    (member : way ∈ (wholeRegex (placeTokens true start line.tokens)).ways text pos)
    (inside : way.stop ≤ text.size) :
    line.Columns (between text pos way.stop)
      ((line.pattern true start).slots.flatMap (Slot.valuesAmong way.captures text)) := by
  obtain ⟨first, last, margin, tokens, margin'⟩ := tokensAt_of_mem member
  have forward := tokens.forward
  have behind := margin'.forward
  have before := (Spacing.separator_denotes .optional).mem_of_reads margin (by omega)
  -- A line without tokens has only one margin.
  have gap : between text last way.stop ∈ gaps := by
    split at margin'
    · rw [Regex.reads_empty.mp margin', between_self]
      exact List.forall_mem_nil _
    · exact (Spacing.separator_denotes .optional).mem_of_reads margin' inside
  have columns := tokens.columns (slotted_placeTokens start line.tokens) nodup (by omega)
  rw [map_token_placeTokens] at columns
  -- The text is put together from margin, tokens and margin.
  rw [← between_append margin.forward (Nat.le_trans forward behind), ← between_append forward behind]
  exact .there before columns gap

/-- A match of a line gives its columns, or passes over it. -/
theorem columns_of_mem {line : Line} {start : Nat}
    (nodup : ((line.pattern true start).slots.map Slot.name).Nodup)
    (member : way ∈ (line.pattern true start).regex.ways text pos) (inside : way.stop ≤ text.size) :
    line.Columns (between text pos way.stop)
      ((line.pattern true start).slots.flatMap (Slot.valuesAmong way.captures text)) := by
  by_cases optional : line.optional = true
  · simp only [pattern, optional, if_true] at member
    rcases List.mem_append.mp member with there | missing
    · exact columns_of_mem_whole nodup there inside
    · -- A missing line reads nothing and leaves nothing to be looked up.
      cases List.mem_singleton.mp missing
      have count : (line.pattern true start).slots.length =
          (line.tokens.filter Token.capture).length :=
        (length_slots_placeTokens true start line.tokens).trans (groupCount_true line.tokens)
      have nulls := flatMap_valuesAmong_nil (line.pattern true start).slots text
      rw [count] at nulls
      rw [Way.stop_stay, Way.captures_stay, between_self, nulls]
      exact .missing optional
  · simp only [pattern, optional] at member
    exact columns_of_mem_whole nodup member inside

/-- A match of several lines is a match of the first, a joint and a match of the others. -/
theorem exists_of_mem_sequence {line second : Line} {rest : List Line} {start : Nat}
    (member : way ∈ (sequence true start (line :: second :: rest)).regex.ways text pos) :
    ∃ first joint others, first ∈ (line.pattern true start).regex.ways text pos ∧
      lineJoint.Reads text first.stop joint ∧
      others ∈ (sequence true (line.pattern true start).nextGroup (second :: rest)).regex.ways text
        joint ∧
      way = ⟨others.stop, others.captures ++ first.captures⟩ := by
  obtain ⟨first, inFirst, _, behind, rfl⟩ := Regex.mem_ways_concat_cons.mp member
  obtain ⟨joint, inJoint, others, inOthers, rfl⟩ := Regex.mem_ways_concat_cons.mp behind
  -- A joint has no group, so it captures nothing.
  have silent : joint.captures = [] := Regex.captures_eq_nil rfl inJoint
  refine ⟨first, joint.stop, others, inFirst, ⟨joint, inJoint, rfl⟩, inOthers, ?_⟩
  simp [Way.after, silent]

/-- A match of a sequence of lines gives a row. -/
theorem row_of_mem {lines : List Line} (some : lines ≠ []) {start : Nat}
    (nodup : ((sequence true start lines).slots.map Slot.name).Nodup)
    (member : way ∈ (sequence true start lines).regex.ways text pos) (inside : way.stop ≤ text.size) :
    Row lines (between text pos way.stop)
      ((sequence true start lines).slots.flatMap (Slot.valuesAmong way.captures text)) := by
  induction lines generalizing start pos way with
  | nil => exact absurd rfl some
  | cons line rest ih =>
    cases rest with
    | nil => exact .last (columns_of_mem nodup member inside)
    | cons second rest =>
      obtain ⟨first, joint, others, inFirst, joined, inOthers, rfl⟩ := exists_of_mem_sequence member
      dsimp only at inside ⊢
      have begun := (Regex.within_ways text _ _ _ inFirst).1
      have behind := joined.forward
      have moved := (Regex.within_ways text _ _ _ inOthers).1
      -- What the first line captures and what the others capture have different names.
      have named := Regex.name_mem_groupNames inFirst
      have named' := Regex.name_mem_groupNames inOthers
      rw [groupNames_pattern] at named
      rw [groupNames_sequence] at named'
      have slots_eq : (sequence true start (line :: second :: rest)).slots =
          (line.pattern true start).slots ++
            (sequence true (line.pattern true start).nextGroup (second :: rest)).slots := rfl
      rw [slots_eq] at nodup ⊢
      rw [flatMap_valuesAmong nodup named named',
        ← between_append begun (Nat.le_trans behind moved), ← between_append behind moved]
      rw [List.map_append] at nodup
      apply Row.more
      · exact columns_of_mem nodup.of_append_left inFirst (by omega)
      · exact feed_of_reads_lineJoint joined (by omega)
      · exact ih (by simp) nodup.of_append_right inOthers inside

end Line

end Gleaner
