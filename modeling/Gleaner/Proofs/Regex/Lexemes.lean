import Gleaner.Regex.Spelling
import Mathlib.Data.List.Chain
import Mathlib.Tactic.Common

/-!
# The lexemes of a pattern's text

The text of a pattern is read in two steps, of which this is the first: cutting it into lexemes.
The lexer knows the part of the common grammar of patterns that is needed here, under its default
flags. What it does not know it refuses, in particular counted repetitions, flags, back references,
set operations and escapes of letters other than `\d`, `\n` and `\t`.

A mark of interrogation is the only character whose meaning depends on what stands before it. So
lexemes are found again in the text that they make up, if each such mark stands behind something
that it can apply to.
-/

namespace Gleaner

/-- What a parenthesis opens. -/
inductive Opening where
  | group (kind : GroupKind)
  | look (side : Side) (wanted : Bool)
deriving DecidableEq, Repr, Inhabited

/-- A smallest part of a pattern's text that means something by itself. -/
inductive Lexeme where
  | set (members : CharSet)
  | textStart
  | textEnd
  | bar
  | opening (parenthesis : Opening)
  | closing
  | maybe
  | star (greed : Greed)
  | plus (greed : Greed)
deriving DecidableEq, Repr, Inhabited

def Opening.spell : Opening → List Char
  | group kind => kind.opening
  | look side wanted => side.opening wanted

def Lexeme.spell : Lexeme → List Char
  | set members => members.spell
  | textStart => ['^']
  | textEnd => ['$']
  | bar => ['|']
  | opening parenthesis => parenthesis.spell
  | closing => [')']
  | maybe => ['?']
  | star greed => '*' :: greed.mark
  | plus greed => '+' :: greed.mark

/-- The lexemes of a pattern. -/
def Regex.lexemes : Regex → List Lexeme
  | empty => []
  | char set => [.set set]
  | textStart => [.textStart]
  | textEnd => [.textEnd]
  | look side wanted set => [.opening (.look side wanted), .set set, .closing]
  | seq first second => first.lexemes ++ second.lexemes
  | alt first second => first.lexemes ++ .bar :: second.lexemes
  | optional body => body.lexemes ++ [.maybe]
  | star greed body => body.lexemes ++ [.star greed]
  | plus greed body => body.lexemes ++ [.plus greed]
  | group kind body => .opening (.group kind) :: (body.lexemes ++ [.closing])

theorem Regex.spell_eq_flatMap (regex : Regex) :
    regex.spell = regex.lexemes.flatMap Lexeme.spell := by
  induction regex <;> simp_all [spell, lexemes, Lexeme.spell, Opening.spell]

/-! ### The lexer -/

/-- What was read from a text, made into something else; the rest of the text stays. -/
def readAs {α β : Type} (f : α → β) (read : Option (α × List Char)) : Option (β × List Char) :=
  read.map (Prod.map f id)

@[simp] theorem readAs_some {α β : Type} (f : α → β) (value : α) (rest : List Char) :
    readAs f (some (value, rest)) = some (f value, rest) := rfl

@[simp] theorem readAs_eq_some {α β : Type} {f : α → β} {read : Option (α × List Char)} {result : β}
    {rest : List Char} :
    readAs f read = some (result, rest) ↔ ∃ value, read = some (value, rest) ∧ f value = result := by
  simp [readAs, Prod.map, and_comm]

/-- The name of a group from its characters. -/
def GroupName.ofChars? (chars : List Char) : Option GroupName :=
  match Part.ofKey? (String.ofList chars) with
  | some key => some (.part key)
  | none =>
    let name := slot (Nat.ofDigitChars 10 chars.tail 0)
    if name.text.toList = chars then some name else none

/-- Reads what stands behind a parenthesis that opens. -/
def Opening.read : List Char → Option (Opening × List Char)
  | '?' :: ':' :: rest => some (.group .bundle, rest)
  | '?' :: '=' :: rest => some (.look .after true, rest)
  | '?' :: '!' :: rest => some (.look .after false, rest)
  | '?' :: '<' :: '=' :: rest => some (.look .before true, rest)
  | '?' :: '<' :: '!' :: rest => some (.look .before false, rest)
  -- A named group: its name reaches to the next angle bracket.
  | '?' :: 'P' :: '<' :: rest =>
    match rest.dropWhile (· ≠ '>') with
    | [] => none
    | _ :: behind => (GroupName.ofChars? (rest.takeWhile (· ≠ '>'))).map fun name =>
      (.group (.named name), behind)
  -- No other mark behind a parenthesis is known.
  | '?' :: _ => none
  | rest => some (.group .plain, rest)

/-- Whether a character always stands for itself inside a bracketed set. -/
def standsInSet (c : Char) : Bool :=
  c ∉ ['\\', '[', ']', '^', '-', '&', '~']

/-- Reads the inside of a bracketed set and its end. A hyphen between two characters makes a range;
it stands for itself only as the last character. -/
def CharSet.readRanges : List Char → Option (List CharRange × List Char)
  | [] => none
  | ']' :: rest => some ([], rest)
  | '-' :: ']' :: rest => some ([.only '-'], rest)
  | '\\' :: 't' :: rest => readAs (.only '\t' :: ·) (readRanges rest)
  | '\\' :: 'n' :: rest => readAs (.only '\n' :: ·) (readRanges rest)
  -- A hyphen before the end of the set stands for itself, also behind another character.
  | c :: '-' :: ']' :: rest =>
    if standsInSet c then some ([.only c, .only '-'], rest) else none
  | first :: '-' :: last :: rest =>
    if standsInSet first && standsInSet last then
      readAs (⟨first, last⟩ :: ·) (readRanges rest)
    else none
  | c :: rest =>
    if standsInSet c then readAs (.only c :: ·) (readRanges rest)
    else none

/-- Reads a bracketed set behind its first bracket. An empty set cannot be written. -/
def CharSet.readBracketed : List Char → Option (CharSet × List Char)
  | ']' :: _ | '^' :: ']' :: _ => none
  | '^' :: rest => readAs .noneOf (readRanges rest)
  | rest => readAs .oneOf (readRanges rest)

/-- Reads what stands behind a backslash. -/
def CharSet.readEscape : List Char → Option (CharSet × List Char)
  | [] => none
  | 'd' :: rest => some (.digit, rest)
  | 'n' :: rest => some (.lineBreak, rest)
  | c :: rest => if metaChars.contains c then some (.exactly c, rest) else none

/-- Reads the mark behind a repetition, if there is one. -/
def Greed.read : List Char → Greed × List Char
  | '?' :: rest => (.lazy, rest)
  | rest => (.greedy, rest)

namespace Lexeme

/-- The lexeme at the start of a text, and the rest of the text. -/
def next : List Char → Option (Lexeme × List Char)
  | [] => none
  | '\\' :: rest => readAs .set (CharSet.readEscape rest)
  | '[' :: rest => readAs .set (CharSet.readBracketed rest)
  | '(' :: rest => readAs .opening (Opening.read rest)
  | '*' :: rest => some (.star (Greed.read rest).1, (Greed.read rest).2)
  | '+' :: rest => some (.plus (Greed.read rest).1, (Greed.read rest).2)
  | '.' :: rest => some (.set .inLine, rest)
  | '^' :: rest => some (.textStart, rest)
  | '$' :: rest => some (.textEnd, rest)
  | '|' :: rest => some (.bar, rest)
  | ')' :: rest => some (.closing, rest)
  | '?' :: rest => some (.maybe, rest)
  -- All other characters stand for themselves, unless they have a meaning here.
  | c :: rest => if metaChars.contains c then none else some (.set (.exactly c), rest)

private theorem length_readRanges {text rest : List Char} {ranges : List CharRange}
    (read : CharSet.readRanges text = some (ranges, rest)) : rest.length ≤ text.length := by
  fun_induction CharSet.readRanges text generalizing ranges <;> grind [readAs_eq_some]

private theorem length_opening {text rest : List Char} {opening : Opening}
    (read : Opening.read text = some (opening, rest)) : rest.length ≤ text.length := by
  unfold Opening.read at read
  split at read
  case h_6 rest' =>
    have dropped := (List.dropWhile_sublist (· ≠ '>') (l := rest')).length_le
    grind [Option.map_eq_some_iff]
  all_goals grind

/-- A lexeme takes something away from the text. -/
theorem length_of_next {text rest : List Char} {lexeme : Lexeme}
    (read : next text = some (lexeme, rest)) : rest.length < text.length := by
  -- One bound for each reader that `next` hands the rest to.
  have escaped {text rest : List Char} {members : CharSet}
      (read : CharSet.readEscape text = some (members, rest)) : rest.length ≤ text.length := by
    unfold CharSet.readEscape at read
    grind
  have bracketed {text rest : List Char} {members : CharSet}
      (read : CharSet.readBracketed text = some (members, rest)) : rest.length ≤ text.length := by
    unfold CharSet.readBracketed at read
    grind [readAs_eq_some, → length_readRanges]
  have greed (text : List Char) : (Greed.read text).2.length ≤ text.length := by
    unfold Greed.read
    grind
  unfold next at read
  grind [readAs_eq_some, → length_opening]

/-- Cuts a text into lexemes. -/
def lex (text : List Char) : Option (List Lexeme) :=
  match _read : next text with
  | none => if text.isEmpty then some [] else none
  | some (lexeme, rest) => (lex rest).map (lexeme :: ·)
termination_by text.length
decreasing_by exact length_of_next _read

theorem lex_nil : lex [] = some [] := by
  simp [lex, next]

theorem lex_of_next {text rest : List Char} {lexeme : Lexeme}
    (read : next text = some (lexeme, rest)) : lex text = (lex rest).map (lexeme :: ·) := by
  rw [lex]
  split
  next none => rw [read] at none; cases none
  next found =>
    rw [read] at found
    cases found
    rfl

end Lexeme

/-! ### Lexemes are found again -/

/-- A set that is read as itself in front of every text. -/
def CharSet.Readable (members : CharSet) : Prop :=
  ∀ rest, Lexeme.next (members.spell ++ rest) = some (.set members, rest)

/-- Whatever the character, a literal is never anything but a literal. -/
theorem CharSet.readable_exactly (c : Char) : (exactly c).Readable := by
  intro rest
  by_cases escaped : metaChars.contains c
  · -- Behind a backslash only the two letters would be taken for something else.
    have notLetter : c ≠ 'd' ∧ c ≠ 'n' := by
      constructor <;> rintro rfl <;> revert escaped <;> decide
    simp only [spell, escapeChar, escaped, if_true, List.cons_append, List.nil_append, Lexeme.next]
    unfold readEscape
    split <;> grind [readAs_some]
  · have itself : (exactly c).spell ++ rest = c :: rest := by
      rw [spell, escapeChar, if_neg escaped]
      rfl
    -- All characters with a case of their own in the lexer are escaped.
    rw [itself]
    unfold Lexeme.next
    split <;> simp_all [metaChars]

namespace GroupName

theorem toList_text_slot (index : Nat) : (slot index).text.toList = 'g' :: Nat.toDigits 10 index := by
  simp [text, Nat.toList_repr]

theorem ofChars?_text (name : GroupName) : ofChars? name.text.toList = some name := by
  cases name with
  | part key => cases key <;> decide
  | slot index =>
    -- No part has a key that begins like the name of a slot.
    have noKey : Part.ofKey? (slot index).text = none := by
      have letter (key : Part) : key.key.toList.head? ≠ some 'g' := by cases key <;> decide
      simp only [Part.ofKey?, List.find?_eq_none, decide_eq_true_eq]
      intro key _ same
      apply letter key
      rw [same, toList_text_slot]
      rfl
    -- The digits behind the letter are those of the number.
    have value : Nat.ofDigitChars 10 (slot index).text.toList.tail 0 = index := by
      rw [toList_text_slot]
      exact Nat.ofDigitChars_toDigits (by decide) (by decide)
    simp only [ofChars?, String.ofList_toList, noKey, value, if_true]

theorem ne_of_mem_text {name : GroupName} {c : Char} (member : c ∈ name.text.toList) : c ≠ '>' := by
  rintro rfl
  cases name with
  | part key => cases key <;> revert member <;> decide
  | slot index =>
    rw [toList_text_slot, List.mem_cons] at member
    rcases member with letter | digit
    · revert letter
      decide
    · have isDigit := Nat.isDigit_of_mem_toDigits (by decide) (by decide) digit
      revert isDigit
      decide

end GroupName

/-- Whether a lexeme ends something that a repetition can apply to. -/
def Lexeme.endsUnit : Lexeme → Bool
  | set _ | closing => true
  | _ => false

/-- The text behind an opening does not change what opens, unless it begins with a mark. -/
theorem Opening.next_spell (parenthesis : Opening) {rest : List Char}
    (unmarked : rest.head? ≠ some '?') :
    Lexeme.next (parenthesis.spell ++ rest) = some (.opening parenthesis, rest) := by
  cases parenthesis with
  | look side wanted => cases side <;> cases wanted <;> rfl
  | group kind =>
    cases kind with
    | bundle => rfl
    | plain =>
      have behind : Opening.read rest = some (.group .plain, rest) := by
        unfold Opening.read
        split <;> simp_all
      simp [spell, GroupKind.opening, Lexeme.next, behind]
    | named name =>
      -- The name ends at the first angle bracket, since it has none of its own.
      have inside : ∀ c ∈ name.text.toList, decide (c ≠ '>') = true := fun c member =>
        decide_eq_true (GroupName.ne_of_mem_text member)
      have behind : Opening.read ('?' :: 'P' :: '<' :: (name.text.toList ++ '>' :: rest)) =
          some (.group (.named name), rest) := by
        rw [Opening.read, List.takeWhile_append_of_pos inside, List.dropWhile_append_of_pos inside]
        simp [GroupName.ofChars?_text]
      simp [spell, GroupKind.opening, Lexeme.next, behind]

namespace Lexeme

/-- A lexeme that reads as itself. -/
def Readable : Lexeme → Prop
  | set members => members.Readable
  | _ => True

/-- A mark stands only behind something that it can apply to. -/
def Follows (first second : Lexeme) : Prop :=
  second = maybe → first.endsUnit

private theorem next_spell {lexeme : Lexeme} (readable : lexeme.Readable) {rest : List Char}
    (apart : lexeme.endsUnit ∨ rest.head? ≠ some '?') :
    next (lexeme.spell ++ rest) = some (lexeme, rest) := by
  -- A greedy repetition ends before a text that begins with no mark.
  have greedy (unmarked : rest.head? ≠ some '?') : Greed.read rest = (.greedy, rest) := by
    unfold Greed.read
    split <;> simp_all
  cases lexeme with
  | set members => exact readable rest
  | textStart | textEnd | bar | closing | maybe => rfl
  | opening parenthesis => exact parenthesis.next_spell (by simpa [endsUnit] using apart)
  | star greed | plus greed =>
    cases greed with
    | lazy => rfl
    | greedy => simp_all [spell, Greed.mark, next, endsUnit]

private theorem head?_spell {lexeme : Lexeme} (readable : lexeme.Readable) (other : lexeme ≠ maybe)
    (rest : List Char) : (lexeme.spell ++ rest).head? ≠ some '?' := by
  cases lexeme with
  | set members =>
    -- A set whose text began with a mark would be read as one.
    intro marked
    obtain ⟨behind, text_eq⟩ := List.head?_eq_some_iff.mp marked
    have read : next (members.spell ++ rest) = some (set members, rest) := readable rest
    rw [← spell, text_eq] at read
    cases read
  | maybe => exact absurd rfl other
  | opening parenthesis =>
    cases parenthesis with
    | look side wanted => cases side <;> cases wanted <;> simp [spell, Opening.spell, Side.opening]
    | group kind => cases kind <;> simp [spell, Opening.spell, GroupKind.opening]
  | textStart | textEnd | bar | closing | star | plus => simp [spell]

/-- Readable lexemes in a proper order are found again in their text. -/
theorem lex_flatMap_spell {lexemes : List Lexeme} (readable : ∀ lexeme ∈ lexemes, lexeme.Readable)
    (proper : lexemes.IsChain Follows) : lex (lexemes.flatMap spell) = some lexemes := by
  induction lexemes with
  | nil => exact lex_nil
  | cons lexeme rest ih =>
    have others := ih (fun other member => readable other (List.mem_cons_of_mem _ member)) proper.tail
    -- A greedy repetition or a plain parenthesis before a mark would swallow it.
    have apart : lexeme.endsUnit ∨ (rest.flatMap spell).head? ≠ some '?' := by
      cases rest with
      | nil => exact Or.inr (by simp)
      | cons second rest =>
        by_cases mark : second = maybe
        · exact Or.inl ((List.isChain_cons_cons.mp proper).1 mark)
        · exact Or.inr (head?_spell (readable second (by simp)) mark _)
    have read := next_spell (readable lexeme (List.mem_cons_self ..)) apart
    rw [List.flatMap_cons, lex_of_next read, others]
    rfl

end Lexeme

end Gleaner
