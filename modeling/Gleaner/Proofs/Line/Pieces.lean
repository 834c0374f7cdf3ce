import Gleaner.Line.Word
import Mathlib.Data.List.Basic
import Mathlib.Data.List.TakeWhile
import Mathlib.Tactic.Common

/-!
# What a word is written with

A lexeme is the smallest part of a word: a bare character, a character behind a backslash, or a
quoted run. A word is written with one or more lexemes, one directly behind the other. The pieces
that a line is cut into are made of lexemes, and where a line has no piece although it has not come
to a blank or to its end, a quote is not closed or a backslash hides nothing.
-/

namespace Gleaner.Word

/-! ### Lexemes and words -/

/-- The characters that stand between words. -/
def blanks : List Char :=
  [' ', '\t', '\r', '\n']

/-- The characters that do not stand for themselves outside of quotes. -/
def special : List Char :=
  '\x22' :: '\x27' :: '\\' :: blanks

/-- The inside of a run between double quotes. A backslash goes with the character behind it, which
is no line feed, and a quote stands behind a backslash only. -/
inductive DoubleRun : List Char → Prop where
  | nil : DoubleRun []
  | plain {c : Char} {rest : List Char} (quote : c ≠ '\x22') (escape : c ≠ '\\')
    (others : DoubleRun rest) : DoubleRun (c :: rest)
  | hidden {c : Char} {rest : List Char} (feed : c ≠ '\n') (others : DoubleRun rest) :
    DoubleRun ('\\' :: c :: rest)

/-- What a lexeme stands for, and how it is written. -/
inductive Lexeme : List Char → List Char → Prop where
  | bare {c : Char} (bare : c ∉ special) : Lexeme [c] [c]
  | escaped {c : Char} (feed : c ≠ '\n') : Lexeme [c] ['\\', c]
  | single {raw : List Char} (quotes : '\x27' ∉ raw) : Lexeme raw ('\x27' :: (raw ++ ['\x27']))
  | double {raw : List Char} (run : DoubleRun raw) :
    Lexeme (unescape raw) ('\x22' :: (raw ++ ['\x22']))

/-- What a word stands for, and how it is written: by lexemes without a blank between them. -/
inductive Written : List Char → List Char → Prop where
  | one {text written : List Char} (lexeme : Lexeme text written) : Written text written
  | more {text written texts writtens : List Char} (lexeme : Lexeme text written)
    (others : Written texts writtens) : Written (text ++ texts) (written ++ writtens)

/-- A text that falls into whole lexemes and blanks. -/
inductive Complete : List Char → Prop where
  | nil : Complete []
  | blank {c : Char} {rest : List Char} (blank : c ∈ blanks) (others : Complete rest) :
    Complete (c :: rest)
  | lexeme {text written rest : List Char} (lexeme : Lexeme text written)
    (others : Complete rest) : Complete (written ++ rest)

/-- A text with which no lexeme begins although it begins with no blank, and the reason. -/
inductive Breaks : LineCause → List Char → Prop where
  | single {rest : List Char} (quotes : '\x27' ∉ rest) : Breaks .unterminatedQuote ('\x27' :: rest)
  | double {rest : List Char}
    (runs : ∀ raw after, DoubleRun raw → rest ≠ raw ++ '\x22' :: after) :
    Breaks .unterminatedQuote ('\x22' :: rest)
  | last : Breaks .danglingEscape ['\\']
  | feed {rest : List Char} : Breaks .danglingEscape ('\\' :: '\n' :: rest)

theorem isCut_iff {c : Char} : isCut c = true ↔ c ∈ blanks := by
  simp [isCut, blanks, or_assoc]

theorem isBare_iff {c : Char} : isBare c = true ↔ c ∉ special := by
  have uncut : isCut c = false ↔ c ∉ blanks := by rw [← isCut_iff, Bool.not_eq_true]
  simp only [isBare, Bool.and_eq_true, Bool.not_eq_true', uncut, decide_eq_true_eq, special,
    List.mem_cons, not_or]
  tauto

/-! ### Quoted runs -/

theorem takeSingle_append {raw : List Char} (quotes : '\x27' ∉ raw) (after : List Char) :
    takeSingle (raw ++ '\x27' :: after) = some (raw, after) := by
  induction raw with
  | nil => simp [takeSingle]
  | cons c raw ih =>
    obtain ⟨here, others⟩ := not_or.mp (mt List.mem_cons.mpr quotes)
    simp [takeSingle, Ne.symm here, ih others]

theorem not_mem_of_takeSingle {text raw after : List Char}
    (taken : takeSingle text = some (raw, after)) : '\x27' ∉ raw := by
  induction text generalizing raw with
  | nil => cases taken
  | cons c rest ih =>
    rw [takeSingle] at taken
    split at taken
    -- The quote ends the run.
    next =>
      cases taken
      exact List.not_mem_nil
    -- Any other character belongs to it.
    next quote =>
      obtain ⟨⟨raw', after'⟩, found, same⟩ := Option.map_eq_some_iff.mp taken
      cases same
      exact mt List.mem_cons.mp (not_or.mpr ⟨Ne.symm quote, ih found⟩)

theorem takeSingle_eq_none {text : List Char} : takeSingle text = none ↔ '\x27' ∉ text := by
  induction text with
  | nil => simp [takeSingle]
  | cons c rest ih =>
    rw [takeSingle]
    split
    next quote => simp [quote]
    next quote => simp [ih, Ne.symm quote]

theorem takeDouble_plain {c : Char} (quote : c ≠ '\x22') (escape : c ≠ '\\') (text : List Char) :
    takeDouble (c :: text) = (takeDouble text).map fun (raw, after) => (c :: raw, after) := by
  cases text <;> simp [takeDouble, quote, escape]

theorem takeDouble_append {raw : List Char} (run : DoubleRun raw) (after : List Char) :
    takeDouble (raw ++ '\x22' :: after) = some (raw, after) := by
  induction run with
  | nil => cases after <;> simp [takeDouble]
  | plain quote escape _ ih =>
    rw [List.cons_append, takeDouble_plain quote escape, ih]
    rfl
  | hidden feed _ ih => simp [takeDouble, feed, ih]

theorem doubleRun_of_takeDouble {text raw after : List Char}
    (taken : takeDouble text = some (raw, after)) : DoubleRun raw := by
  fun_induction takeDouble text generalizing raw with
  -- The text ends, here and in the third case, before the quote is found.
  | case1 => cases taken
  | case2 =>
    cases taken
    exact .nil
  | case3 => cases taken
  -- The quote is found.
  | case4 =>
    cases taken
    exact .nil
  | case5 => cases taken
  -- A backslash takes the next character with it.
  | case6 next rest feed _ ih =>
    obtain ⟨⟨raw', after'⟩, found, same⟩ := Option.map_eq_some_iff.mp taken
    cases same
    exact .hidden feed (ih found)
  | case7 c next rest quote escape ih =>
    obtain ⟨⟨raw', after'⟩, found, same⟩ := Option.map_eq_some_iff.mp taken
    cases same
    exact .plain quote escape (ih found)

theorem takeDouble_eq_none {text : List Char} :
    takeDouble text = none ↔ ∀ raw after, DoubleRun raw → text ≠ raw ++ '\x22' :: after := by
  constructor
  · rintro missing raw after run rfl
    rw [takeDouble_append run] at missing
    cases missing
  · intro runs
    rw [Option.eq_none_iff_forall_ne_some]
    rintro ⟨raw, after⟩ taken
    exact runs raw after (doubleRun_of_takeDouble taken) (takeDouble_eq taken)

/-! ### Written forms -/

theorem Written.append {text written texts writtens : List Char} (first : Written text written)
    (second : Written texts writtens) : Written (text ++ texts) (written ++ writtens) := by
  induction first with
  | one lexeme => exact .more lexeme second
  | more lexeme _ ih =>
    rw [List.append_assoc, List.append_assoc]
    exact .more lexeme ih

/-- Bare characters are a word, written as they are. -/
theorem Written.of_bare {text : List Char} (some : text ≠ []) (bare : ∀ c ∈ text, c ∉ special) :
    Written text text := by
  induction text with
  | nil => exact absurd rfl some
  | cons c rest ih =>
    obtain ⟨here, others⟩ := List.forall_mem_cons.mp bare
    by_cases last : rest = []
    · subst last
      exact .one (.bare here)
    · exact .more (.bare here) (ih last others)

/-- A lexeme begins with a character that is no blank. -/
theorem Lexeme.exists_cons {text written : List Char} (lexeme : Lexeme text written) :
    ∃ c rest, written = c :: rest ∧ c ∉ blanks := by
  cases lexeme with
  | @bare c bare =>
    refine ⟨c, [], rfl, fun blank => bare ?_⟩
    simp [special, blank]
  | escaped => exact ⟨_, _, rfl, by decide⟩
  | single => exact ⟨_, _, rfl, by decide⟩
  | double => exact ⟨_, _, rfl, by decide⟩

theorem Written.exists_cons {text written : List Char} (word : Written text written) :
    ∃ c rest, written = c :: rest ∧ c ∉ blanks := by
  cases word with
  | one lexeme => exact lexeme.exists_cons
  | more lexeme _ =>
    obtain ⟨c, rest, rfl, solid⟩ := lexeme.exists_cons
    exact ⟨c, _, List.cons_append, solid⟩

theorem Written.ne_nil {text written : List Char} (word : Written text written) : written ≠ [] := by
  obtain ⟨c, rest, rfl, -⟩ := word.exists_cons
  exact List.cons_ne_nil c rest

theorem Complete.gap_append {gap rest : List Char} (complete : Complete rest)
    (blank : gap ⊆ blanks) : Complete (gap ++ rest) := by
  induction gap with
  | nil => exact complete
  | cons c gap ih =>
    obtain ⟨here, others⟩ := List.cons_subset.mp blank
    exact .blank here (ih others)

theorem Complete.written_append {text written rest : List Char} (complete : Complete rest)
    (form : Written text written) : Complete (written ++ rest) := by
  induction form with
  | one lexeme => exact .lexeme lexeme complete
  | more lexeme _ ih =>
    rw [List.append_assoc]
    exact .lexeme lexeme ih

/-! ### One piece -/

/-- What a taken piece says about a text that begins with no blank: the piece is made of lexemes, or
the text breaks. -/
def Taken (text : List Char) : Except LineCause Piece → Prop
  | .ok piece => Written piece.text piece.written
  | .error cause => Breaks cause text

theorem takePiece_taken {c : Char} (solid : c ∉ blanks) (rest : List Char) :
    Taken (c :: rest) (takePiece c rest) := by
  unfold takePiece
  -- The first character decides: a quote of either kind, a backslash, or a bare character.
  split
  next quote =>
    subst quote
    cases taken : takeSingle rest with
    | none => exact .single (takeSingle_eq_none.mp taken)
    | some found => exact .one (.single (not_mem_of_takeSingle taken))
  next quote =>
  split
  next quote' =>
    subst quote'
    cases taken : takeDouble rest with
    | none => exact .double (takeDouble_eq_none.mp taken)
    | some found => exact .one (.double (doubleRun_of_takeDouble taken))
  next quote' =>
  split
  next escape =>
    subst escape
    cases rest with
    | nil => exact .last
    | cons hidden after =>
      by_cases feed : hidden = '\n'
      · subst feed
        exact .feed
      · simp only [if_neg feed]
        exact .one (.escaped feed)
  next escape =>
    have bare : c ∉ special := by simp [special, quote, quote', escape, solid]
    refine .of_bare (List.cons_ne_nil _ _) (List.forall_mem_cons.mpr ⟨bare, fun d member => ?_⟩)
    exact isBare_iff.mp (List.mem_takeWhile_imp member)

theorem written_of_takePiece {c : Char} {rest : List Char} (solid : c ∉ blanks) {piece : Piece}
    (taken : takePiece c rest = .ok piece) : Written piece.text piece.written := by
  have spec := takePiece_taken solid rest
  rwa [taken] at spec

/-- No piece can be taken exactly where the text breaks. -/
theorem takePiece_eq_error {c : Char} (solid : c ∉ blanks) {rest : List Char} {cause : LineCause} :
    takePiece c rest = .error cause ↔ Breaks cause (c :: rest) := by
  constructor
  · intro refused
    -- What is not taken breaks, as every text does one or the other.
    have spec := takePiece_taken solid rest
    rwa [refused] at spec
  · intro breaks
    -- One case for each way to break.
    cases breaks with
    | single quotes => simp [takePiece, takeSingle_eq_none.mpr quotes]
    | double runs => simp [takePiece, takeDouble_eq_none.mpr runs]
    | last => simp [takePiece]
    | feed => simp [takePiece]

end Gleaner.Word
