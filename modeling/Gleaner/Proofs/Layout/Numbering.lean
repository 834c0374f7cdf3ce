import Gleaner.Proofs.Layout.Reading
import Gleaner.Proofs.Line.Slots

/-!
# Numbering the groups of a section

The groups of a section are numbered in one go: each line goes on where the line before it stopped,
and within a line each token that is kept takes one number. So the numbers are consecutive as long
as there are any left, and a section that is cut in two is numbered in the same way if its second
half goes on where the first one stopped.
-/

namespace Gleaner

/-! ### Slots and tokens -/

/-- What a slot tells about its token. -/
def Slot.kind (slot : Slot) : Content × Quantity :=
  (slot.content, slot.quantity)

/-- What a token's slot tells about it. -/
def Token.slotKind (token : Token) : Content × Quantity :=
  (token.content, token.quantity)

theorem map_kind_placeTokens (start : Nat) (tokens : List Token) :
    ((placeTokens true start tokens).filterMap PlacedToken.slot?).map Slot.kind =
      (tokens.filter Token.capture).map Token.slotKind := by
  -- On the tokens, with the number of the next group generalized.
  induction tokens generalizing start with
  | nil => rfl
  | cons token rest ih =>
    rw [placeTokens]
    cases captured : token.capture with
    -- A token that is kept takes a slot and a number; any other leaves both as they are.
    | true =>
      rw [List.filter_cons_of_pos captured, List.map_cons, ← ih (groupAfter start 1)]
      simp only [Token.needsGroup, captured, Bool.and_true, if_true]
      rfl
    | false =>
      rw [List.filter_cons_of_neg (by simp [captured]), ← ih start]
      simp only [Token.needsGroup, captured, Bool.and_true, Bool.false_eq_true, if_false]
      rfl

theorem groupCount_false (tokens : List Token) : groupCount false tokens = 0 := by
  simp [groupCount, Token.needsGroup]

theorem groupCount_append (allowCapture : Bool) (first second : List Token) :
    groupCount allowCapture (first ++ second) =
      groupCount allowCapture first + groupCount allowCapture second :=
  List.countP_append

theorem groupAfter_eq {number count : Nat} (inRange : number + count < UInt64.size) :
    groupAfter number count = number + count :=
  Nat.mod_eq_of_lt inRange

theorem groupsFrom_eq_range' {number count : Nat} (inRange : number + count ≤ UInt64.size) :
    groupsFrom number count = List.range' number count := by
  rw [groupsFrom, List.range'_eq_map_range]
  apply List.map_congr_left
  intro i below
  rw [List.mem_range] at below
  exact groupAfter_eq (by omega)

theorem GroupName.text_injective : Function.Injective GroupName.text := by
  intro name other same
  have read := ofChars?_text name
  rw [same, ofChars?_text] at read
  exact (Option.some.inj read).symm

namespace Line

theorem map_kind_sequence (start : Nat) (lines : List Line) :
    (sequence true start lines).slots.map Slot.kind = (kept lines).map Token.slotKind := by
  induction lines generalizing start with
  | nil => rfl
  | cons line rest ih =>
    have here := map_kind_placeTokens start line.tokens
    rw [kept_cons, List.map_append, ← here]
    -- The last line has no joint behind it, so it is a case of its own.
    cases rest with
    | nil => simp [sequence, pattern, kept]
    | cons second rest =>
      rw [← ih (line.pattern true start).nextGroup]
      exact List.map_append

/-- The numbers that are free behind a sequence of lines are those that none of its groups took. -/
theorem nextGroup_sequence (allowCapture : Bool) {start : Nat} (isNumber : start < UInt64.size)
    (lines : List Line) :
    (sequence allowCapture start lines).nextGroup =
      groupAfter start (groupCount allowCapture (lines.flatMap tokens)) := by
  induction lines generalizing start with
  | nil => exact Eq.symm (groupAfter_eq isNumber)
  | cons line rest ih =>
    rw [List.flatMap_cons, groupCount_append]
    cases rest with
    | nil => simp [sequence, pattern, groupCount]
    | cons second rest =>
      -- The numbers of the further lines go on where this line's end.
      rw [← groupAfter_groupAfter, ← ih (groupAfter_lt _ _)]
      rfl

end Line

/-! ### Sections cut in two -/

/-- A pattern is that of two sequences of lines, one behind the other. -/
structure LinePattern.Joins (whole first second : LinePattern) : Prop where
  text : whole.regex.text = first.regex.text ++ "\\n?" ++ second.regex.text
  nextGroup : whole.nextGroup = second.nextGroup
  optional : whole.optional = (first.optional && second.optional)
  slots : whole.slots = first.slots ++ second.slots

theorem Regex.text_concat_three (first second third : Regex) :
    (concat [first, second, third]).text = first.text ++ second.text ++ third.text := by
  rw [text, text, text, text, ← String.ofList_append, ← String.ofList_append, List.append_assoc]
  rfl

namespace LinePattern.Joins

variable {whole half first more second third : LinePattern}

/-- It does not matter which of two joints is looked at first. -/
theorem assoc (outer : whole.Joins first more) (inner : more.Joins second third)
    (begun : half.Joins first second) : whole.Joins half third where
  text := by
    rw [outer.text, inner.text, begun.text]
    simp only [String.append_assoc]
  nextGroup := outer.nextGroup.trans inner.nextGroup
  optional := by
    rw [outer.optional, inner.optional, begun.optional, Bool.and_assoc]
  slots := by
    rw [outer.slots, inner.slots, begun.slots, List.append_assoc]

end LinePattern.Joins

namespace Line

theorem sequence_cons (allowCapture : Bool) (start : Nat) (line : Line) {rest : List Line}
    (more : rest ≠ []) :
    (sequence allowCapture start (line :: rest)).Joins (line.pattern allowCapture start)
      (sequence allowCapture (line.pattern allowCapture start).nextGroup rest) := by
  obtain ⟨next, others, rfl⟩ := List.exists_cons_of_ne_nil more
  refine ⟨?_, rfl, rfl, rfl⟩
  have joint : lineJoint.text = "\\n?" := by decide
  rw [sequence, Regex.text_concat_three, joint]
  exact List.cons_ne_nil next others

/-- A sequence of lines goes on where its first half stopped. -/
theorem sequence_append (allowCapture : Bool) (start : Nat) {first second : List Line}
    (some : first ≠ []) (some' : second ≠ []) :
    (sequence allowCapture start (first ++ second)).Joins (sequence allowCapture start first)
      (sequence allowCapture (sequence allowCapture start first).nextGroup second) := by
  induction first generalizing start with
  | nil => exact absurd rfl some
  | cons line rest ih =>
    cases rest with
    | nil => exact sequence_cons allowCapture start line some'
    | cons next rest =>
      -- The joint behind the first line belongs to the first half.
      have more : next :: rest ≠ [] := List.cons_ne_nil next rest
      have whole := sequence_cons allowCapture start line
        (List.append_ne_nil_of_left_ne_nil more second)
      have half := sequence_cons allowCapture start line more
      have later := ih (line.pattern allowCapture start).nextGroup more
      rw [← half.nextGroup] at later
      exact whole.assoc later half

end Line

theorem parseLines_append {first second : List String} (some : first ≠ []) (some' : second ≠ [])
    {lines : List Line} :
    parseLines (first ++ second) = .ok lines ↔
      ∃ begun others, parseLines first = .ok begun ∧ parseLines second = .ok others ∧
        begun ++ others = lines := by
  -- Only an empty section is treated apart, and neither half is one.
  have parsed {texts : List String} (some : texts ≠ []) : parseLines texts = texts.mapM Line.parse := by
    simp [parseLines, some]
  rw [parsed some, parsed some', parsed (List.append_ne_nil_of_left_ne_nil some second),
    List.mapM_append, except_bind_eq_ok]
  constructor
  · rintro ⟨begun, ok, read⟩
    obtain ⟨others, ok', same⟩ := except_bind_eq_ok.mp read
    exact ⟨begun, others, ok, ok', Except.ok.inj same⟩
  · rintro ⟨begun, others, ok, ok', rfl⟩
    exact ⟨begun, ok, except_bind_eq_ok.mpr ⟨others, ok', rfl⟩⟩

/-! ### Sections -/

/-- The slots of a pattern are those of some tokens, with consecutive numbers, and the groups that are
opened in its text are those of the slots. -/
structure LinePattern.Numbers (pattern : LinePattern) (start : Nat) (tokens : List Token) : Prop where
  nextGroup : pattern.nextGroup = start + tokens.length
  index : pattern.slots.map Slot.index = List.range' start tokens.length
  kind : pattern.slots.map Slot.kind = tokens.map Token.slotKind
  distinct : (pattern.slots.map fun slot => slot.name.text).Nodup
  groups : ∃ tree, Regex.read pattern.regex.text = some tree ∧
    tree.groupNames = pattern.slots.map Slot.name

theorem Line.groups_sequence (allowCapture : Bool) (start : Nat) (lines : List Line) :
    ∃ tree, Regex.read (sequence allowCapture start lines).regex.text = some tree ∧
      tree.groupNames = (sequence allowCapture start lines).slots.map Slot.name := by
  have back := (tidy_sequence allowCapture start lines).readAs
  exact ⟨_, back.read, back.groupNames.trans (groupNames_sequence allowCapture start lines)⟩

theorem Line.numbers_sequence {start : Nat} {lines : List Line}
    (inRange : start + (kept lines).length < UInt64.size) :
    (sequence true start lines).Numbers start (kept lines) where
  nextGroup := by
    -- Below the largest number the counter does not wrap around.
    rw [nextGroup_sequence true (by omega), groupCount_true]
    exact groupAfter_eq inRange
  index := by
    rw [map_index_sequence (by omega), groupsFrom_eq_range' (by omega)]
  kind := map_kind_sequence start lines
  distinct := by
    have names : ((sequence true start lines).slots.map Slot.name).Nodup :=
      nodup_names_sequence (by omega) (by omega)
    simpa [Function.comp_def] using names.map GroupName.text_injective
  groups := groups_sequence true start lines

/-- The groups of a section have consecutive numbers, one for each token that is kept. Without
captures there are none. A section in two halves is compiled exactly if its halves are, one behind
the other. -/
theorem compileLines_numbers :
    (∀ texts start pattern, compileLines texts true start = .ok pattern →
      ∃ lines, parseLines texts = .ok lines ∧
        (start + (Line.kept lines).length < UInt64.size →
          pattern.Numbers start (Line.kept lines))) ∧
    (∀ texts start pattern, start < UInt64.size → compileLines texts false start = .ok pattern →
      pattern.slots = [] ∧ pattern.nextGroup = start ∧
        ∃ tree, Regex.read pattern.regex.text = some tree ∧ tree.groupNames = []) ∧
    ∀ first second allowCapture start, first ≠ [] → second ≠ [] →
      (∀ whole, compileLines (first ++ second) allowCapture start = .ok whole →
        ∃ begun others, compileLines first allowCapture start = .ok begun ∧
          compileLines second allowCapture begun.nextGroup = .ok others ∧
            whole.Joins begun others) ∧
      ∀ begun others, compileLines first allowCapture start = .ok begun →
        compileLines second allowCapture begun.nextGroup = .ok others →
          ∃ whole, compileLines (first ++ second) allowCapture start = .ok whole ∧
            whole.Joins begun others := by
  refine ⟨fun texts start pattern compiled => ?_, fun texts start pattern isNumber compiled => ?_,
    fun first second allowCapture start some some' => ⟨fun whole compiled => ?_,
      fun begun others compiled compiled' => ?_⟩⟩
  -- Numbering is a matter of the parsed lines; that they are parsed is what compiling adds.
  · obtain ⟨lines, parsed, rfl⟩ := compileLines_eq_ok.mp compiled
    exact ⟨lines, parsed, Line.numbers_sequence⟩
  · obtain ⟨lines, parsed, rfl⟩ := compileLines_eq_ok.mp compiled
    have noSlots := Line.slots_sequence_false start lines
    obtain ⟨tree, read, names⟩ := Line.groups_sequence false start lines
    refine ⟨noSlots, ?_, tree, read, ?_⟩
    · rw [Line.nextGroup_sequence false isNumber, groupCount_false]
      exact groupAfter_eq isNumber
    · rw [names, noSlots, List.map_nil]
  · obtain ⟨lines, parsed, rfl⟩ := compileLines_eq_ok.mp compiled
    -- A section can be cut wherever there is a line on both sides.
    obtain ⟨begun, others, ok, ok', rfl⟩ := (parseLines_append some some').mp parsed
    refine ⟨_, _, compileLines_eq_ok.mpr ⟨begun, ok, rfl⟩,
      compileLines_eq_ok.mpr ⟨others, ok', rfl⟩, ?_⟩
    exact Line.sequence_append allowCapture start (ne_nil_of_parseLines ok) (ne_nil_of_parseLines ok')
  · obtain ⟨begun, ok, rfl⟩ := compileLines_eq_ok.mp compiled
    obtain ⟨others, ok', rfl⟩ := compileLines_eq_ok.mp compiled'
    refine ⟨_, compileLines_eq_ok.mpr ⟨_, (parseLines_append some some').mpr ⟨_, _, ok, ok', rfl⟩, rfl⟩,
      ?_⟩
    exact Line.sequence_append allowCapture start (ne_nil_of_parseLines ok) (ne_nil_of_parseLines ok')

/-- A literal that looks like a group, a token that is not kept, a line that may be missing; and the
same section cut in two. -/
theorem compileLines_numbers_split :
    ∃ begun others whole, compileLines ["@!.(?P<g9>", "? ~ #!+-i"] true 3 = .ok begun ∧
      compileLines ["&x!. &!."] true begun.nextGroup = .ok others ∧
      compileLines ["@!.(?P<g9>", "? ~ #!+-i", "&x!. &!."] true 3 = .ok whole ∧
      whole.Joins begun others ∧ whole.nextGroup = 7 ∧
      whole.slots.map Slot.index = [3, 4, 5, 6] ∧
      whole.slots.map Slot.kind =
        [(.string, .single), (.number, .oneOrMore), (.misc, .single), (.misc, .single)] := by
  let lines : List Line := [
    ⟨false, [.literal ⟨.required, true, .single⟩ '(' "?P<g9>".toList]⟩,
    ⟨true, [.anything false, .number ⟨.required, true, .oneOrMore⟩ .negative .integer]⟩,
    ⟨false, [.misc ⟨.prohibited, true, .single⟩, .misc ⟨.required, true, .single⟩]⟩]
  have parsed : parseLines ["@!.(?P<g9>", "? ~ #!+-i", "&x!. &!."] = .ok lines := by decide +kernel
  have compiled := compileLines_eq_ok.mpr ⟨lines, parsed, (rfl : Line.sequence true 3 lines = _)⟩
  obtain ⟨begun, others, ok, ok', joins⟩ := (compileLines_numbers.2.2
    ["@!.(?P<g9>", "? ~ #!+-i"] ["&x!. &!."] true 3 (by simp) (by simp)).1 _ compiled
  obtain ⟨lines', parsed', numbers⟩ := compileLines_numbers.1 _ 3 _ compiled
  cases parsed.symm.trans parsed'
  have numbered := numbers (by decide)
  exact ⟨begun, others, _, ok, ok', compiled, joins, numbered.nextGroup, numbered.index, numbered.kind⟩

end Gleaner
