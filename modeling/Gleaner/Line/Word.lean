import Gleaner.Fault

/-!
# Words of a line

A line of a description is cut into words at its blanks. A word is made of pieces that stand
together without a blank: bare characters, characters behind a backslash, and quoted runs, in
which blanks do not cut. Between single quotes every character stands for itself; between double
quotes a backslash takes away the meaning of a quote or a backslash, and stands for itself before
any other character.
-/

namespace Gleaner

/-- A word of a line without its quoting, and the bytes of its written form. -/
structure Word where
  text : List Char
  span : Span
deriving DecidableEq, Repr, Inhabited

namespace Word

/-- The characters that cut words. -/
def isCut (c : Char) : Bool :=
  c = ' ' || c = '\t' || c = '\r' || c = '\n'

/-- The characters that stand for themselves outside of quotes. -/
def isBare (c : Char) : Bool :=
  !isCut c && c ≠ '\x22' && c ≠ '\x27' && c ≠ '\\'

/-- A piece of a word: its characters, the characters it is written with, and what follows it. -/
structure Piece where
  text : List Char
  written : List Char
  after : List Char
deriving DecidableEq, Repr, Inhabited

/-- The characters up to the next single quote, and what follows it. -/
def takeSingle : List Char → Option (List Char × List Char)
  | [] => none
  | c :: rest =>
    if c = '\x27' then some ([], rest)
    else (takeSingle rest).map fun (raw, after) => (c :: raw, after)

/-- The characters up to the next double quote that is not behind a backslash, and what follows
it. A backslash hides the next character, which must not be a line feed. -/
def takeDouble : List Char → Option (List Char × List Char)
  | [] => none
  | [c] => if c = '\x22' then some ([], []) else none
  | c :: next :: rest =>
    if c = '\x22' then some ([], next :: rest)
    else if c = '\\' then
      if next = '\n' then none
      else (takeDouble rest).map fun (raw, after) => (c :: next :: raw, after)
    -- Only the character is taken: the one behind it may be the quote.
    else (takeDouble (next :: rest)).map fun (raw, after) => (c :: raw, after)

/-- The characters that the inside of a double-quoted run stands for. -/
def unescape : List Char → List Char
  | [] => []
  | [c] => [c]
  | c :: next :: rest =>
    -- Before any other character the backslash stays, and that character is looked at anew.
    if c = '\\' && (next = '\x22' || next = '\\') then next :: unescape rest
    else c :: unescape (next :: rest)

/-- The piece of a word that begins with `c`, a character that cuts no words. -/
def takePiece (c : Char) (rest : List Char) : Except LineCause Piece :=
  if c = '\x27' then
    match takeSingle rest with
    | some (raw, after) => .ok ⟨raw, c :: raw ++ [c], after⟩
    | none => .error .unterminatedQuote
  else if c = '\x22' then
    match takeDouble rest with
    | some (raw, after) => .ok ⟨unescape raw, c :: raw ++ [c], after⟩
    | none => .error .unterminatedQuote
  else if c = '\\' then
    match rest with
    | [] => .error .danglingEscape
    | next :: after =>
      if next = '\n' then .error .danglingEscape else .ok ⟨[next], [c, next], after⟩
  else
    -- Bare characters are taken together, up to the first that cuts or quotes.
    .ok ⟨c :: rest.takeWhile isBare, c :: rest.takeWhile isBare, rest.dropWhile isBare⟩

theorem takeSingle_eq {text raw after : List Char}
    (taken : takeSingle text = some (raw, after)) : text = raw ++ '\x27' :: after := by
  induction text generalizing raw with
  | nil => cases taken
  | cons c rest ih =>
    rw [takeSingle] at taken
    split at taken
    next quote =>
      cases taken
      simp [quote]
    next =>
      obtain ⟨⟨raw', after'⟩, found, same⟩ := Option.map_eq_some_iff.mp taken
      cases same
      simp [← ih found]

theorem takeDouble_eq {text raw after : List Char}
    (taken : takeDouble text = some (raw, after)) : text = raw ++ '\x22' :: after := by
  fun_induction takeDouble text generalizing raw with
  | case1 => cases taken
  | case2 =>
    cases taken
    rfl
  | case3 => cases taken
  | case4 =>
    cases taken
    rfl
  | case5 => cases taken
  -- The hidden character goes with its backslash, and both are part of the raw text.
  | case6 next rest _ _ ih =>
    obtain ⟨⟨raw', after'⟩, found, same⟩ := Option.map_eq_some_iff.mp taken
    cases same
    simp [← ih found]
  | case7 c next rest _ _ ih =>
    obtain ⟨⟨raw', after'⟩, found, same⟩ := Option.map_eq_some_iff.mp taken
    cases same
    simp [← ih found]

/-- A piece is cut off the text in front of it, and nothing is lost. -/
theorem takePiece_eq {c : Char} {rest : List Char} {piece : Piece}
    (taken : takePiece c rest = .ok piece) : c :: rest = piece.written ++ piece.after := by
  unfold takePiece at taken
  split at taken
  next quote =>
    split at taken
    next raw after single =>
      cases taken
      simp [takeSingle_eq single, quote]
    next => cases taken
  next =>
    split at taken
    next quote =>
      split at taken
      next raw after double =>
        cases taken
        simp [takeDouble_eq double, quote]
      next => cases taken
    next =>
      split at taken
      next =>
        split at taken
        next => cases taken
        next next_ after =>
          split at taken
          · cases taken
          · cases taken
            rfl
      next =>
        cases taken
        simp

theorem takePiece_written_ne_nil {c : Char} {rest : List Char} {piece : Piece}
    (taken : takePiece c rest = .ok piece) : piece.written ≠ [] := by
  unfold takePiece at taken
  repeat' split at taken
  all_goals
    cases taken
    try simp

private theorem takePiece_length {c : Char} {rest : List Char} {piece : Piece}
    (taken : takePiece c rest = .ok piece) : piece.after.length < (c :: rest).length := by
  have written := List.length_pos_iff.mpr (takePiece_written_ne_nil taken)
  rw [takePiece_eq taken, List.length_append]
  omega

/-- Puts a piece in front of the words behind it. It belongs to the first of them if that begins
where the piece ends, and is a word of its own otherwise. -/
def glue (piece : Word) : List Word → List Word
  | [] => [piece]
  | next :: rest =>
    if piece.span.stop = next.span.start then
      -- The two are one word, which reaches from the piece to the end of the word.
      ⟨piece.text ++ next.text, ⟨piece.span.start, next.span.stop⟩⟩ :: rest
    else piece :: next :: rest

/-- The words of the rest of a line, which begins at byte `offset`. A fault comes with the byte at
which the offending piece begins. -/
def splitFrom (offset : Nat) (text : List Char) : Except (LineCause × Nat) (List Word) :=
  match text with
  | [] => .ok []
  | c :: rest =>
    if isCut c then splitFrom (offset + c.utf8Size) rest
    else
      match _taken : takePiece c rest with
      | .error cause => .error (cause, offset)
      | .ok piece =>
        -- The bytes are those of the written form, with its quotes and backslashes.
        let stop := offset + byteLength piece.written
        match splitFrom stop piece.after with
        | .ok words => .ok (glue ⟨piece.text, ⟨offset, stop⟩⟩ words)
        | .error fault => .error fault
termination_by text.length
decreasing_by
  · exact Nat.lt_succ_self _
  · exact takePiece_length _taken

/-- The words of a line, or the fault of its first incomplete piece. -/
def split (line : String) : Except Fault (List Word) :=
  match splitFrom 0 line.toList with
  | .ok words => .ok words
  | .error (cause, start) => .error (.badLine cause ⟨line, ⟨start, byteLength line.toList⟩⟩)

end Word

end Gleaner
