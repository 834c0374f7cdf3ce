import Gleaner.Proofs.Layout.Captures
import Gleaner.Proofs.Layout.Meant
import Gleaner.Proofs.Layout.Shape
import Gleaner.Proofs.Line.Induction

/-!
# The text of a pattern means what was meant

The patterns of lines, of sequences of lines and of blocks are tidy: there are parentheses wherever
the text would otherwise be read as something else. So the text of each of them is read as the
sequence of its pieces, whatever characters occur in literals, and these are the pieces that the
description means. The named groups in the text of a block are those of its parts.
-/

namespace Gleaner

open Regex

/-! ### Parentheses are where they are needed -/

theorem Numeral.tidy_pattern (kind : NumberKind) (sign : Sign) :
    (pattern kind sign).Tidy false := by
  have digit : CharSet.digit.Readable := fun _ => rfl
  have point : Numeral.point.Tidy false := CharSet.readable_exactly '.'
  have signs : (CharSet.oneOf [.only '+', .only '-']).Readable := fun _ => rfl
  have lead : sign.lead.Tidy false := by
    cases sign with
    | positive => exact ⟨rfl, fun _ => rfl⟩
    | negative => exact CharSet.readable_exactly '-'
    | any => exact ⟨rfl, signs⟩
  have digits : digits.Tidy false := ⟨rfl, digit⟩
  have maybeDigits : maybeDigits.Tidy false := ⟨rfl, digit⟩
  have marker : (char (.oneOf [.only 'd', .only 'e', .only 'D', .only 'E'])).Tidy false :=
    fun _ => rfl
  have exponent : exponent.Tidy false := ⟨marker, ⟨rfl, signs⟩, digits⟩
  have float : float.Tidy false :=
    ⟨rfl, ⟨digits, point, maybeDigits⟩, ⟨maybeDigits, point, digits⟩⟩
  have scientific : scientific.Tidy false :=
    ⟨rfl, ⟨digits, ⟨rfl, point⟩, maybeDigits, exponent⟩, ⟨maybeDigits, point, digits, exponent⟩⟩
  -- The kinds are unions of the ones before, so they are tidy because these are.
  refine ⟨lead, ?_⟩
  cases kind with
  | integer => exact digits
  | float => exact float
  | scientific => exact scientific
  | decimal => exact ⟨rfl, scientific.mono, float.mono⟩
  | general => exact ⟨rfl, scientific.mono, rfl, float.mono, digits.mono⟩

theorem Spacing.tidy_separator (spacing : Spacing) : spacing.separator.Tidy false := by
  have gap : CharSet.gap.Readable := fun _ => rfl
  cases spacing with
  | required | optional => exact ⟨rfl, gap⟩
  | prohibited => trivial

theorem Token.tidy_fragment (token : Token) : token.fragment.Tidy false := by
  -- Once or repeated, a fragment is tidy if both of its forms are.
  have chosen {quantity : Quantity} {once repeated : Regex} (tidy : once.Tidy false)
      (tidy' : repeated.Tidy false) : (quantity.choose once repeated).Tidy false := by
    cases quantity with
    | single => exact tidy
    | oneOrMore => exact tidy'
  cases token with
  | optionalLine => trivial
  | anything capture => exact ⟨rfl, fun _ => rfl⟩
  | literal flags first rest =>
    have once := Tidy.literal (first :: rest)
    exact chosen once ⟨rfl, once.mono⟩
  | misc flags =>
    have once : wordPattern.Tidy false := ⟨rfl, fun _ => rfl⟩
    exact chosen once ⟨rfl, once.mono⟩
  | number flags sign kind =>
    have once := Numeral.tidy_pattern kind sign
    exact chosen once ⟨once, rfl, Spacing.tidy_separator .required, once⟩

theorem PlacedToken.tidy_pattern (placed : PlacedToken) : placed.pattern.Tidy false := by
  have fragment := placed.token.tidy_fragment
  unfold pattern
  split
  · exact fragment
  · exact fragment.mono

theorem tidy_lineJoint : lineJoint.Tidy false :=
  ⟨rfl, fun _ => rfl⟩

namespace Line

theorem tidy_wholeRegex (placed : List PlacedToken) : (wholeRegex placed).Tidy false :=
  wholeRegex_induction trivial And.intro (fun _ => rfl) (fun _ => rfl) Spacing.tidy_separator
    (fun one _ => one.tidy_pattern) ⟨rfl, trivial, fun _ => rfl⟩ ⟨rfl, trivial, fun _ => rfl⟩

theorem tidy_pattern (line : Line) (allowCapture : Bool) (start : Nat) :
    (line.pattern allowCapture start).regex.Tidy false := by
  have whole := tidy_wholeRegex (placeTokens allowCapture start line.tokens)
  simp only [pattern]
  split
  · exact ⟨rfl, whole.mono⟩
  · exact whole

theorem tidy_sequence (allowCapture : Bool) (start : Nat) (lines : List Line) :
    (sequence allowCapture start lines).regex.Tidy false :=
  sequence_induction trivial And.intro tidy_lineJoint
    (fun line _ start => line.tidy_pattern allowCapture start) start

end Line

theorem Outlines.tidy_repeated {body : Outline} (tidy : body.regex.Tidy false) :
    (repeated body).regex.Tidy false :=
  ⟨tidy, rfl, tidy_lineJoint, tidy⟩

theorem Outlines.tidy_regex {outlines : Outlines}
    (head : ∀ head ∈ outlines.head, head.regex.Tidy false) (body : outlines.body.regex.Tidy false)
    (tail : ∀ tail ∈ outlines.tail, tail.regex.Tidy false) (keep : Bool) :
    (outlines.regex keep).Tidy false :=
  regex_induction trivial And.intro tidy_lineJoint (fun _ _ tidy => tidy.mono)
    (fun _ _ tidy => ⟨rfl, tidy⟩) (fun _ _ _ tidy => ⟨rfl, tidy⟩) head body tail keep

theorem Section.tidy_outline {content : Section} {outline? : Option Outline}
    (outlined : content.outline = .ok outline?) :
    ∀ outline ∈ outline?, outline.regex.Tidy false := by
  intro outline found
  apply outline_induction (motive := fun outline => outline.regex.Tidy false)
    (fun lines => Line.tidy_sequence false 0 lines)
    fun _ head body tail => Outlines.tidy_regex head body tail false
  rw [outlined, Option.mem_def.mp found]

/-- The parts of a template are tidy, one by one. -/
theorem Template.tidy_outlines (template : Template) :
    (∀ head ∈ template.outlines.head, head.regex.Tidy false) ∧
      template.outlines.body.regex.Tidy false ∧
      ∀ tail ∈ template.outlines.tail, tail.regex.Tidy false := by
  obtain ⟨headed, bodied, tailed⟩ := Outlines.ofParts_eq_ok.mp template.outlines_eq
  exact ⟨Section.tidy_outline headed, Section.tidy_outline bodied _ rfl,
    Section.tidy_outline tailed⟩

theorem Template.tidy_pattern (template : Template) (keep : Bool) :
    (template.pattern keep).Tidy false := by
  obtain ⟨head, body, tail⟩ := template.tidy_outlines
  exact Outlines.tidy_regex head body tail keep

/-! ### The pieces are those that are meant -/

theorem Numeral.pieces_pattern (kind : NumberKind) (sign : Sign) :
    (pattern kind sign).pieces = [Meant.lead sign, Meant.magnitude kind] := by
  cases kind <;> cases sign <;> rfl

namespace Token

theorem pieces_fragment (token : Token) : token.fragment.pieces = Meant.token token := by
  cases token with
  | optionalLine | anything => rfl
  | literal flags first rest =>
    have chars := branches_literal (first :: rest)
    cases quantity : flags.quantity <;>
      simp only [fragment, quantity, Quantity.choose, pieces, branches, chars, piecesOf, ofBranches,
        concat, Meant.token, Meant.often]
  | misc flags => cases quantity : flags.quantity <;>
      simp only [fragment, quantity, Quantity.choose, Meant.token, Meant.often] <;> rfl
  | number flags sign kind =>
    have once := Numeral.pieces_pattern kind sign
    have tidy : (Spacing.separator .required ++ Numeral.pattern kind sign).Tidy false :=
      ⟨Spacing.tidy_separator .required, Numeral.tidy_pattern kind sign⟩
    have again := tidy.canonical_eq
    rw [pieces_append, once] at again
    cases quantity : flags.quantity with
    | single => simpa only [fragment, quantity, Quantity.choose, Meant.token] using once
    | oneOrMore =>
      simp only [fragment, quantity, Quantity.choose, Meant.token, pieces_append, once]
      exact congrArg (fun more => _ ++ [star .greedy (group .plain more)]) again

theorem isWordBounded_eq (token : Token) : token.isWordBounded = Meant.isNumeral token := by
  cases token <;> rfl

theorem joinsNext_eq (token : Token) : token.joinsNext = Meant.gluesNext token := by
  cases token <;> rfl

theorem pieces_separator (token : Token) : token.spacing.separator.pieces = Meant.gap token := by
  cases token with
  | optionalLine | anything => rfl
  | literal flags | misc flags | number flags =>
    obtain ⟨spacing, capture, quantity⟩ := flags
    cases spacing <;> rfl

end Token

namespace PlacedToken

theorem pieces_pattern (placed : PlacedToken) :
    placed.pattern.pieces = match placed.slot with
      | none => Meant.token placed.token
      | some number => [group (.named (.slot number)) (concat (Meant.token placed.token))] := by
  obtain ⟨token, slot⟩ := placed
  cases slot with
  | none => exact token.pieces_fragment
  | some number =>
    rw [pattern, pieces_group, token.tidy_fragment.canonical_eq, token.pieces_fragment]

theorem pieces_bounded (glued : Bool) (placed : PlacedToken) :
    (placed.bounded glued).pieces =
      (if Meant.isNumeral placed.token && !glued then [look .before false Meant.word] else []) ++
        placed.pattern.pieces ++
        if Meant.isNumeral placed.token && !Meant.gluesNext placed.token then
          [look .after false Meant.word] else [] := by
  have boundary (on : Bool) (side : Side) :
      (if on then look side false (.oneOf WordBoundary.chars) else .empty : Regex).pieces =
        if on then [look side false Meant.word] else [] := by
    cases on <;> rfl
  rw [bounded, pieces_concat, ← Token.isWordBounded_eq, ← Token.joinsNext_eq]
  simp only [List.flatMap_cons, List.flatMap_nil, List.append_nil, WordBoundary.opening,
    WordBoundary.closing, boundary, List.append_assoc]

/-- A token, what divides it from the next one if there is one, and the others. -/
theorem pieces_patternOf_cons (glued : Bool) (placed : PlacedToken) (rest : List PlacedToken) :
    (patternOf glued (placed :: rest)).pieces =
      (placed.bounded glued).pieces ++
        (if rest.isEmpty then [] else placed.token.spacing.separator.pieces) ++
        (patternOf placed.token.joinsNext rest).pieces := by
  cases rest with
  | nil =>
    simp only [patternOf, List.isEmpty_nil, if_true, List.append_nil]
    exact (List.append_nil _).symm
  | cons next rest => simp [patternOf]

end PlacedToken

/-- The first token takes the next number if it is kept, and the others go on from there. -/
theorem placeTokens_cons (allowCapture : Bool) (number : Nat) (token : Token) (rest : List Token) :
    placeTokens allowCapture number (token :: rest) =
      ⟨token, if token.capture && allowCapture then some number else none⟩ ::
        placeTokens allowCapture
          (if token.capture && allowCapture then (number + 1) % UInt64.size else number) rest := by
  cases kept : token.capture && allowCapture <;>
    simp [placeTokens, Token.needsGroup, groupAfter, kept]

theorem isEmpty_placeTokens (allowCapture : Bool) (number : Nat) (tokens : List Token) :
    (placeTokens allowCapture number tokens).isEmpty = tokens.isEmpty := by
  cases tokens with
  | nil => rfl
  | cons token rest => rw [placeTokens_cons]; rfl

/-- The tokens of a line, behind a token that may be glued to the first of them. -/
theorem pieces_tokens (allowCapture : Bool) (number : Nat) (before : Option Token)
    (tokens : List Token) :
    (PlacedToken.patternOf (before.any Meant.gluesNext)
      (placeTokens allowCapture number tokens)).pieces =
        Meant.tokens allowCapture number before tokens := by
  induction tokens generalizing number before with
  | nil => rfl
  | cons here rest ih =>
    rw [placeTokens_cons, PlacedToken.pieces_patternOf_cons, PlacedToken.pieces_bounded,
      PlacedToken.pieces_pattern, Token.pieces_separator, Token.joinsNext_eq, isEmpty_placeTokens]
    have others := ih (if here.capture && allowCapture then (number + 1) % UInt64.size else number)
      (some here)
    rw [Option.any_some] at others
    rw [others, Meant.tokens]
    cases here.capture && allowCapture <;> simp only [Bool.false_eq_true, if_false, if_true]

namespace Line

theorem pieces_pattern (line : Line) (allowCapture : Bool) (number : Nat) :
    (line.pattern allowCapture number).regex.pieces = Meant.line allowCapture number line := by
  have tidy : (wholeRegex (placeTokens allowCapture number line.tokens)).Tidy false :=
    tidy_wholeRegex _
  have whole : (wholeRegex (placeTokens allowCapture number line.tokens)).pieces =
      [Meant.lineStart, star .greedy Meant.blank] ++
        Meant.tokens allowCapture number none line.tokens ++
        (if line.tokens.isEmpty then [] else [star .greedy Meant.blank]) ++ [Meant.lineEnd] := by
    have inside := pieces_tokens allowCapture number none line.tokens
    rw [Option.any_none] at inside
    rw [wholeRegex, pieces_concat, isEmpty_placeTokens]
    simp only [List.flatMap_cons, List.flatMap_nil, inside]
    cases line.tokens.isEmpty <;> simp <;> rfl
  simp only [pattern, Meant.line]
  split
  · rw [← whole, ← tidy.canonical_eq]
    rfl
  · exact whole

theorem pieces_sequence (allowCapture : Bool) (number : Nat) (lines : List Line) :
    (sequence allowCapture number lines).regex.pieces =
      Meant.sequence allowCapture number lines := by
  induction lines generalizing number with
  | nil => rfl
  | cons line rest ih =>
    cases rest with
    | nil =>
      rw [sequence, pieces_pattern]
      simp [Meant.sequence, Meant.lines]
    | cons next rest =>
      have others := ih (line.pattern allowCapture number).nextGroup
      calc (sequence allowCapture number (line :: next :: rest)).regex.pieces
          = (line.pattern allowCapture number).regex.pieces ++ ([Meant.joint] ++
              (sequence allowCapture (line.pattern allowCapture number).nextGroup
                (next :: rest)).regex.pieces) := rfl
        _ = Meant.line allowCapture number line ++ ([Meant.joint] ++
              Meant.sequence allowCapture (line.pattern allowCapture number).nextGroup
                (next :: rest)) := by rw [pieces_pattern, others]
        _ = Meant.sequence allowCapture number (line :: next :: rest) := by
          simp only [Meant.sequence, Meant.lines, List.intercalate_cons_cons, List.append_assoc]
          rfl

end Line

/-- A part as it is meant: what its pattern adds to a sequence. -/
def Outline.phrase (outline : Outline) : Meant.Phrase :=
  ⟨outline.regex.pieces, outline.optional⟩

namespace Outlines

theorem pieces_wrap (keep : Bool) (part : Part) {outline : Outline}
    (tidy : outline.regex.Tidy false) :
    (wrap keep part outline).pieces = [Meant.wrapped keep part outline.phrase] := by
  simp only [wrap, Meant.wrapped, Outline.phrase, ← tidy.canonical_eq]
  split <;> rfl

theorem phrase_repeated {body : Outline} (tidy : body.regex.Tidy false) :
    (repeated body).phrase = ⟨body.phrase.pieces ++
      [star .greedy (group .bundle (concat (Meant.joint :: body.phrase.pieces)))], false⟩ := by
  have again : (lineJoint ++ body.regex).Tidy false := ⟨tidy_lineJoint, tidy⟩
  have inside := again.canonical_eq
  rw [pieces_append] at inside
  rw [Outline.phrase, repeated, pieces_append]
  exact congrArg (fun more => Meant.Phrase.mk (_ ++ [star .greedy (group .bundle more)]) false) inside

theorem pieces_regex {outlines : Outlines}
    (head : ∀ head ∈ outlines.head, head.regex.Tidy false) (body : outlines.body.regex.Tidy false)
    (tail : ∀ tail ∈ outlines.tail, tail.regex.Tidy false) (keep : Bool) :
    (outlines.regex keep).pieces =
      Meant.block keep (outlines.head.map Outline.phrase) outlines.body.phrase
        (outlines.tail.map Outline.phrase) := by
  have bodies := pieces_wrap keep .body (tidy_repeated body)
  rw [phrase_repeated body] at bodies
  obtain ⟨head?, body₁, tail?⟩ := outlines
  rw [regex, pieces_concat]
  simp only [List.flatMap_cons, List.flatMap_nil, List.append_nil, bodies, Meant.block]
  rw [List.append_assoc]
  congr 1
  · cases head? with
    | none => rfl
    | some outline =>
      simp only [Option.map_some, Option.getD_some, pieces_append,
        pieces_wrap keep .head (head outline rfl)]
      rfl
  · congr 1
    cases tail? with
    | none => rfl
    | some outline =>
      simp only [Option.map_some, Option.getD_some, pieces_append,
        pieces_wrap keep .tail (tail outline rfl)]
      rfl

end Outlines

/-- What is seen of a section from the whole block is what the section means. -/
theorem Section.phrase?_eq {content : Section} {outline? : Option Outline}
    (outlined : content.outline = .ok outline?) :
    Meant.phrase? content = outline?.map Outline.phrase := by
  induction content generalizing outline? with
  | absent =>
    cases outlined
    rfl
  | line text =>
    obtain ⟨pattern, compiled, rfl⟩ := except_map_eq_ok.mp outlined
    obtain ⟨line, parsed, rfl⟩ := compileLine_eq_ok.mp compiled
    simp only [Meant.phrase?, parsed, Except.toOption, Option.map_some, ← Line.pieces_pattern]
    rfl
  | lines texts =>
    obtain ⟨pattern, compiled, rfl⟩ := except_map_eq_ok.mp outlined
    obtain ⟨lines, parsed, rfl⟩ := compileLines_eq_ok.mp compiled
    obtain ⟨-, each⟩ := parseLines_eq_ok.mp parsed
    simp only [Meant.phrase?, except_mapM_eq_ok.mpr each, Except.toOption, Option.map_some,
      ← Line.pieces_sequence, ← Line.optional_sequence_eq false 0]
    rfl
  | nested head body tail ih ih' ih'' =>
    obtain ⟨outlines, made, rfl⟩ := except_map_eq_ok.mp outlined
    obtain ⟨headed, bodied, tailed⟩ := Outlines.ofParts_eq_ok.mp made
    have pieces := Outlines.pieces_regex (tidy_outline headed) (tidy_outline bodied _ rfl)
      (tidy_outline tailed) false
    rw [Meant.phrase?, ih headed, ih' bodied, ih'' tailed, Option.map_some, Option.map_some,
      ← pieces]
    rfl

/-- The pattern of a template is the one that its layout means. -/
theorem Template.layout?_eq (template : Template) (keep : Bool) :
    Meant.layout? template.layout keep = some (concat (template.pattern keep).pieces) := by
  obtain ⟨headed, bodied, tailed⟩ := Outlines.ofParts_eq_ok.mp template.outlines_eq
  obtain ⟨head, body, tail⟩ := template.tidy_outlines
  rw [pattern, Outlines.pieces_regex head body tail keep, Meant.layout?,
    Section.phrase?_eq headed, Section.phrase?_eq bodied, Section.phrase?_eq tailed]
  rfl

/-- The parts of a block that are not absent. -/
def Layout.present (layout : Layout) : List Part :=
  Part.all.filter fun part => layout.part part ≠ .absent

theorem Section.isSome_outline {content : Section} {outline? : Option Outline}
    (outlined : content.outline = .ok outline?) : outline?.isSome ↔ content ≠ .absent := by
  cases content with
  | absent =>
    cases outlined
    simp
  | line | lines | nested =>
    obtain ⟨_, -, rfl⟩ := except_map_eq_ok.mp outlined
    simp

/-- The named groups of a block's pattern are its parts, or there are none. -/
theorem Template.groupNames_pattern (template : Template) (keep : Bool) :
    (template.pattern keep).groupNames =
      if keep then template.layout.present.map .part else [] := by
  obtain ⟨headed, bodied, tailed⟩ := Outlines.ofParts_eq_ok.mp template.outlines_eq
  have body : template.layout.body ≠ .absent := (Section.isSome_outline bodied).mp rfl
  rw [pattern, template.nameless.groupNames_regex]
  by_cases head : template.layout.head = .absent <;>
    by_cases tail : template.layout.tail = .absent <;>
    simp [Section.isSome_outline headed, Section.isSome_outline tailed, Layout.present, Part.all,
      Layout.part, head, body, tail]

/-- The text of a pattern is read as the tree that the description means: for lines and blocks
alike, with or without captures, and whatever the literals. What is read matches in the same ways as
the pattern, and its named groups are those of the tokens or parts that are kept. -/
theorem pattern_texts_read_back :
    (∀ texts allowCapture start pattern, compileLines texts allowCapture start = .ok pattern →
      ∃ lines, parseLines texts = .ok lines ∧
        pattern.regex.ReadAs (concat (Meant.sequence allowCapture start lines)) ∧
        (concat (Meant.sequence allowCapture start lines)).groupNames =
          pattern.slots.map Slot.name) ∧
    (∀ text allowCapture start pattern, compileLine text allowCapture start = .ok pattern →
      ∃ line, Line.parse text = .ok line ∧
        pattern.regex.ReadAs (concat (Meant.line allowCapture start line)) ∧
        (concat (Meant.line allowCapture start line)).groupNames = pattern.slots.map Slot.name) ∧
    ∀ (template : Template) (keep : Bool), ∃ tree, Meant.layout? template.layout keep = some tree ∧
      (template.pattern keep).ReadAs tree ∧
      tree.groupNames = if keep then template.layout.present.map .part else [] := by
  refine ⟨fun texts allowCapture start pattern compiled => ?_,
    fun text allowCapture start pattern compiled => ?_, fun template keep => ?_⟩
  · obtain ⟨lines, parsed, rfl⟩ := compileLines_eq_ok.mp compiled
    have back := (Line.tidy_sequence allowCapture start lines).readAs
    rw [Line.pieces_sequence] at back
    exact ⟨lines, parsed, back,
      back.groupNames.trans (Line.groupNames_sequence allowCapture start lines)⟩
  · -- One line is a sequence of one.
    obtain ⟨line, parsed, rfl⟩ := compileLine_eq_ok.mp compiled
    have back := (line.tidy_pattern allowCapture start).readAs
    rw [Line.pieces_pattern] at back
    exact ⟨line, parsed, back,
      back.groupNames.trans (Line.groupNames_sequence allowCapture start [line])⟩
  · have back := (template.tidy_pattern keep).readAs
    exact ⟨_, template.layout?_eq keep, back,
      back.groupNames.trans (template.groupNames_pattern keep)⟩

/-- Literals with a bracket that is never closed, a bar and a mark; a numeral that is glued to one
of them; and a block with such a line for its head. -/
theorem pattern_texts_read_back_bracket :
    (∃ pattern, compileLines ["@!.(a|b", "? #x.+i @+?"] true 3 = .ok pattern ∧
      pattern.regex.text = "(?:^|(?<=\\n))[ \\t]*(?P<g3>\\(a\\|b)[ \\t]*(?:$|(?=\\n))\\n?" ++
        "(?:(?:^|(?<=\\n))[ \\t]*(?<![a-zA-Z0-9deDE+.-])[+]?\\d+(\\?)+[ \\t]*(?:$|(?=\\n)))?" ∧
      Regex.read pattern.regex.text = some (concat
        [Meant.lineStart, star .greedy Meant.blank,
          group (.named (.slot 3)) (concat [char (.exactly '('), char (.exactly 'a'),
            char (.exactly '|'), char (.exactly 'b')]),
          star .greedy Meant.blank, Meant.lineEnd, optional (char .lineBreak),
          optional (group .bundle (concat
            [Meant.lineStart, star .greedy Meant.blank, look .before false Meant.word,
              optional (char (.oneOf [.only '+'])), plus .greedy (char .digit),
              plus .greedy (group .plain (char (.exactly '?'))), star .greedy Meant.blank,
              Meant.lineEnd]))])) ∧
    ∃ template, Template.make ⟨.line "? @.[", .line "~!", .absent⟩ = .ok template ∧
      (template.pattern true).text =
        "(?P<head>(?:(?:^|(?<=\\n))[ \\t]*\\[[ \\t]*(?:$|(?=\\n)))?)?\\n?" ++
        "(?P<body>(?:^|(?<=\\n))[ \\t]*.*?[ \\t]*(?:$|(?=\\n))" ++
        "(?:\\n?(?:^|(?<=\\n))[ \\t]*.*?[ \\t]*(?:$|(?=\\n)))*)" ∧
      Regex.read (template.pattern true).text = some (concat
        [optional (group (.named (.part .head)) (optional (group .bundle (concat
            [Meant.lineStart, star .greedy Meant.blank, char (.exactly '['),
              star .greedy Meant.blank, Meant.lineEnd])))),
          optional (char .lineBreak),
          group (.named (.part .body)) (concat
            [Meant.lineStart, star .greedy Meant.blank, star .lazy (char .inLine),
              star .greedy Meant.blank, Meant.lineEnd,
              star .greedy (group .bundle (concat
                [optional (char .lineBreak), Meant.lineStart, star .greedy Meant.blank,
                  star .lazy (char .inLine), star .greedy Meant.blank, Meant.lineEnd]))])]) := by
  constructor
  · let literal : Token := .literal ⟨.required, true, .single⟩ '(' ['a', '|', 'b']
    let numeral : Token := .number ⟨.prohibited, false, .single⟩ .positive .integer
    let mark : Token := .literal ⟨.required, false, .oneOrMore⟩ '?' []
    have parsed : parseLines ["@!.(a|b", "? #x.+i @+?"] =
        .ok [⟨false, [literal]⟩, ⟨true, [numeral, mark]⟩] := by decide +kernel
    have compiled := compileLines_eq_ok.mpr ⟨_, parsed, (rfl : Line.sequence true 3 _ = _)⟩
    obtain ⟨lines, parsed', back, -⟩ := pattern_texts_read_back.1 _ _ _ _ compiled
    cases parsed.symm.trans parsed'
    exact ⟨_, compiled, by decide +kernel, back.read⟩
  · have texts : (Layout.outlines ⟨.line "? @.[", .line "~!", .absent⟩).map
        (fun outlines => (outlines.regex true).text) = .ok
          ("(?P<head>(?:(?:^|(?<=\\n))[ \\t]*\\[[ \\t]*(?:$|(?=\\n)))?)?\\n?" ++
            "(?P<body>(?:^|(?<=\\n))[ \\t]*.*?[ \\t]*(?:$|(?=\\n))" ++
            "(?:\\n?(?:^|(?<=\\n))[ \\t]*.*?[ \\t]*(?:$|(?=\\n)))*)") := by
      decide +kernel
    obtain ⟨outlines, outlined, text⟩ := except_map_eq_ok.mp texts
    let template : Template := ⟨_, outlines, outlined⟩
    obtain ⟨tree, meant, back, -⟩ := pattern_texts_read_back.2.2 template true
    exact ⟨template, Template.make_eq_ok.mpr rfl, text, back.read.trans (meant.symm.trans
      (show Meant.layout? ⟨.line "? @.[", .line "~!", .absent⟩ true = some _ by decide +kernel))⟩

end Gleaner
