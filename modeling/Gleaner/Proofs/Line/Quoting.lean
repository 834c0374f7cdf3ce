import Gleaner.Proofs.Line.Cutting

/-!
# Quoting

A string can be written as a word in many ways. It may be divided, and each of its parts written
between quotes of either kind, behind backslashes, or as it is; only double quotes admit every part.
`split_quoted` says that cutting a line undoes all of these: whatever styles were chosen and
whatever blanks stand between the words, the strings come back, each with the place of its written
form.
-/

namespace Gleaner.Word

/-- The ways to write a part of a word. -/
inductive Style where
  | double
  | single
  | escaped
  | bare
deriving DecidableEq, Repr

/-- A character between double quotes; a quote and a backslash stand behind a backslash there. -/
def guarded (c : Char) : List Char :=
  if c = '\x22' ∨ c = '\\' then ['\\', c] else [c]

namespace Style

def write : Style → List Char → List Char
  | double, text => '\x22' :: (text.flatMap guarded ++ ['\x22'])
  | single, text => '\x27' :: (text ++ ['\x27'])
  | escaped, text => text.flatMap fun c => ['\\', c]
  | bare, text => text

/-- Whether a part of a word can be written in a style. -/
def Admits : Style → List Char → Prop
  | double, _ => True
  | single, text => '\x27' ∉ text
  | escaped, text => text ≠ [] ∧ '\n' ∉ text
  | bare, text => text ≠ [] ∧ ∀ c ∈ text, c ∉ special

end Style

/-- A part of a word in a style that admits it. -/
structure Fragment where
  style : Style
  text : List Char
  admitted : style.Admits text

/-- A string written as a word, part by part. -/
structure Quoted where
  fragments : List Fragment
  nonempty : fragments ≠ []

namespace Quoted

def text (quoted : Quoted) : List Char :=
  quoted.fragments.flatMap Fragment.text

def written (quoted : Quoted) : List Char :=
  quoted.fragments.flatMap fun fragment => fragment.style.write fragment.text

end Quoted

/-- A written word and the blanks before it. -/
structure Cell where
  gap : List Char
  word : Quoted

namespace Cell

def write (cells : List Cell) : List Char :=
  cells.flatMap fun cell => cell.gap ++ cell.word.written

/-- The strings that were written, with the places of their written forms in a text that begins at
byte `offset`. -/
def words (offset : Nat) : List Cell → List Word
  | [] => []
  | cell :: rest =>
    let start := offset + byteLength cell.gap
    let stop := start + byteLength cell.word.written
    ⟨cell.word.text, ⟨start, stop⟩⟩ :: words stop rest

end Cell

/-! ### Fragments are made of lexemes -/

theorem doubleRun_guarded (text : List Char) : DoubleRun (text.flatMap guarded) := by
  induction text with
  | nil => exact .nil
  | cons c rest ih =>
    rw [List.flatMap_cons, guarded]
    split
    -- A quote and a backslash stand behind a backslash, and neither is a line feed.
    next quoting =>
      refine .hidden ?_ ih
      rcases quoting with rfl | rfl <;> decide
    next plain =>
      obtain ⟨quote, escape⟩ := not_or.mp plain
      exact .plain quote escape ih

theorem unescape_plain {c : Char} (escape : c ≠ '\\') (rest : List Char) :
    unescape (c :: rest) = c :: unescape rest := by
  cases rest <;> simp [unescape, escape]

theorem unescape_guarded (text : List Char) : unescape (text.flatMap guarded) = text := by
  induction text with
  | nil => rfl
  | cons c rest ih =>
    rw [List.flatMap_cons, guarded]
    split
    next quoting =>
      rw [List.cons_append, List.cons_append, List.nil_append, unescape,
        if_pos (by simpa using quoting), ih]
    next plain => rw [List.cons_append, unescape_plain (not_or.mp plain).2, List.nil_append, ih]

theorem written_escaped {text : List Char} (some : text ≠ []) (feeds : '\n' ∉ text) :
    Written text (text.flatMap fun c => ['\\', c]) := by
  induction text with
  | nil => exact absurd rfl some
  | cons c rest ih =>
    obtain ⟨feed, others⟩ := not_or.mp (mt List.mem_cons.mpr feeds)
    have here : Lexeme [c] ['\\', c] := .escaped (Ne.symm feed)
    by_cases last : rest = []
    · subst last
      exact .one here
    · exact .more here (ih last others)

theorem Fragment.form (fragment : Fragment) :
    Written fragment.text (fragment.style.write fragment.text) := by
  obtain ⟨style, text, admitted⟩ := fragment
  cases style with
  | double =>
    have lexeme := Lexeme.double (doubleRun_guarded text)
    rw [unescape_guarded] at lexeme
    exact .one lexeme
  | single => exact .one (.single admitted)
  | escaped => exact written_escaped admitted.1 admitted.2
  | bare => exact .of_bare admitted.1 admitted.2

theorem Quoted.form (quoted : Quoted) : Written quoted.text quoted.written := by
  obtain ⟨fragments, nonempty⟩ := quoted
  simp only [text, written]
  induction fragments with
  | nil => exact absurd rfl nonempty
  | cons fragment rest ih =>
    rw [List.flatMap_cons, List.flatMap_cons]
    by_cases last : rest = []
    · subst last
      simpa using fragment.form
    · exact fragment.form.append (ih last)

/-! ### Lines of quoted words -/

theorem Cell.laid {cells : List Cell} {trail : List Char}
    (blank : ∀ cell ∈ cells, cell.gap ⊆ blanks) (apart : ∀ cell ∈ cells.tail, cell.gap ≠ [])
    (trailing : trail ⊆ blanks) (offset : Nat) :
    Laid offset (words offset cells) (write cells ++ trail) := by
  induction cells generalizing offset with
  | nil => exact .none trailing
  | cons cell rest ih =>
    obtain ⟨here, others⟩ := List.forall_mem_cons.mp blank
    have laid := ih others fun next member => apart next (List.mem_of_mem_tail member)
    rw [write, List.flatMap_cons, List.append_assoc, List.append_assoc]
    refine .word here rfl cell.word.form rfl (fun c first => ?_) (laid _)
    -- The word ends at a blank: one before the next word, or one of those at the end.
    cases rest with
    | nil => exact trailing (List.mem_of_mem_head? first)
    | cons next rest =>
      have gap_some := apart next List.mem_cons_self
      rw [List.flatMap_cons, List.append_assoc, List.append_assoc,
        List.head?_append_of_ne_nil _ gap_some] at first
      exact others next List.mem_cons_self (List.mem_of_mem_head? first)

/-- Strings written in any styles, with blanks between them, are the words of the line, each at the
place of its written form. -/
theorem split_quoted {cells : List Cell} {trail : List Char}
    (blank : ∀ cell ∈ cells, cell.gap ⊆ blanks) (apart : ∀ cell ∈ cells.tail, cell.gap ≠ [])
    (trailing : trail ⊆ blanks) :
    split (String.ofList (Cell.write cells ++ trail)) = .ok (Cell.words 0 cells) := by
  rw [split_eq_ok_iff, String.toList_ofList]
  exact Cell.laid blank apart trailing 0

/-- All styles in one line, with an empty string, a line feed between quotes and a character of two
bytes. -/
theorem split_quoted_mixed :
    ∃ (cells : List Cell) (trail : List Char),
      (∀ cell ∈ cells, cell.gap ⊆ blanks) ∧ (∀ cell ∈ cells.tail, cell.gap ≠ []) ∧
      trail ⊆ blanks ∧
      String.ofList (Cell.write cells ++ trail) =
        "@.\"a\\\"b\\\\\" \t\"\"\r\n\x27x\ny \x27\\\x27\\éz\n" ∧
      split "@.\"a\\\"b\\\\\" \t\"\"\r\n\x27x\ny \x27\\\x27\\éz\n" =
        .ok [⟨"@.a\"b\\".toList, ⟨0, 10⟩⟩, ⟨[], ⟨12, 14⟩⟩, ⟨"x\ny \x27éz".toList, ⟨16, 28⟩⟩] := by
  let cells : List Cell :=
    [⟨[], ⟨[⟨.bare, ['@', '.'], by simp [Style.Admits, special, blanks]⟩,
        ⟨.double, ['a', '\x22', 'b', '\\'], trivial⟩], by simp⟩⟩,
      ⟨[' ', '\t'], ⟨[⟨.double, [], trivial⟩], by simp⟩⟩,
      ⟨['\r', '\n'], ⟨[⟨.single, ['x', '\n', 'y', ' '], by simp [Style.Admits]⟩,
        ⟨.escaped, ['\x27', 'é'], by simp [Style.Admits]⟩,
        ⟨.bare, ['z'], by simp [Style.Admits, special, blanks]⟩], by simp⟩⟩]
  have blank : ∀ cell ∈ cells, cell.gap ⊆ blanks := by simp [cells, blanks]
  have apart : ∀ cell ∈ cells.tail, cell.gap ≠ [] := by simp [cells]
  have trailing : ['\n'] ⊆ blanks := by decide
  have text : String.ofList (Cell.write cells ++ ['\n']) =
      "@.\"a\\\"b\\\\\" \t\"\"\r\n\x27x\ny \x27\\\x27\\éz\n" := by decide +kernel
  have words : Cell.words 0 cells = [⟨"@.a\"b\\".toList, ⟨0, 10⟩⟩, ⟨[], ⟨12, 14⟩⟩,
      ⟨"x\ny \x27éz".toList, ⟨16, 28⟩⟩] := by decide +kernel
  refine ⟨cells, ['\n'], blank, apart, trailing, text, ?_⟩
  rw [← text, ← words]
  exact split_quoted blank apart trailing

end Gleaner.Word
