import Gleaner.Proofs.Line.Pieces

/-!
# How a line is cut into words

`Laid` says how words stand in a text, with blanks between them, and `splitFrom_eq_ok_iff` that the
words of a line are those that stand in it. By `splitFrom_eq_error_iff` a line that cannot be cut
consists of whole lexemes and blanks up to the place where it breaks.
-/

namespace Gleaner.Word

/-! ### One step of the cutting -/

theorem splitFrom_blank {c : Char} (blank : c ∈ blanks) (offset : Nat) (rest : List Char) :
    splitFrom offset (c :: rest) = splitFrom (offset + c.utf8Size) rest := by
  rw [splitFrom, if_pos (isCut_iff.mpr blank)]

theorem splitFrom_gap {gap : List Char} (blank : gap ⊆ blanks) (offset : Nat) (rest : List Char) :
    splitFrom offset (gap ++ rest) = splitFrom (offset + byteLength gap) rest := by
  induction gap generalizing offset with
  | nil => rfl
  | cons c gap ih =>
    obtain ⟨here, others⟩ := List.cons_subset.mp blank
    rw [List.cons_append, splitFrom_blank here, ih others, byteLength_cons, Nat.add_assoc]

theorem splitFrom_piece {c : Char} {rest : List Char} (solid : c ∉ blanks) {piece : Piece}
    (taken : takePiece c rest = .ok piece) (offset : Nat) :
    splitFrom offset (c :: rest) =
      (splitFrom (offset + byteLength piece.written) piece.after).map
        (glue ⟨piece.text, ⟨offset, offset + byteLength piece.written⟩⟩) := by
  -- The match carries its equation for the sake of termination, so it is split, not rewritten.
  rw [splitFrom, if_neg (mt isCut_iff.mp solid)]
  split
  next refused =>
    rw [taken] at refused
    cases refused
  next taken' =>
    cases taken.symm.trans taken'
    dsimp only
    cases splitFrom (offset + byteLength piece.written) piece.after <;> rfl

theorem splitFrom_breaks {cause : LineCause} {text : List Char} (breaks : Breaks cause text)
    (offset : Nat) : splitFrom offset text = .error (cause, offset) := by
  -- Nothing that breaks begins with a blank.
  obtain ⟨c, rest, rfl, solid⟩ : ∃ c rest, text = c :: rest ∧ c ∉ blanks := by
    cases breaks <;> exact ⟨_, _, rfl, by decide⟩
  have refused := (takePiece_eq_error solid).mpr breaks
  rw [splitFrom, if_neg (mt isCut_iff.mp solid)]
  split
  next refused' =>
    cases refused.symm.trans refused'
    rfl
  next taken =>
    rw [refused] at taken
    cases taken

/-- Pieces that stand together are one piece. -/
theorem glue_glue (first second : List Char) (start between stop : Nat) (words : List Word) :
    glue ⟨first, ⟨start, between⟩⟩ (glue ⟨second, ⟨between, stop⟩⟩ words) =
      glue ⟨first ++ second, ⟨start, stop⟩⟩ words := by
  cases words with
  | nil => simp [glue]
  | cons next rest => by_cases together : stop = next.span.start <;> simp [glue, together]

theorem map_glue_glue (first second : List Char) (start between stop : Nat)
    (words : Except (LineCause × Nat) (List Word)) :
    (words.map (glue ⟨second, ⟨between, stop⟩⟩)).map (glue ⟨first, ⟨start, between⟩⟩) =
      words.map (glue ⟨first ++ second, ⟨start, stop⟩⟩) := by
  cases words with
  | error fault => rfl
  | ok words => exact congrArg Except.ok (glue_glue first second start between stop words)

theorem takePiece_bare {c : Char} (bare : c ∉ special) (rest : List Char) :
    takePiece c rest =
      .ok ⟨c :: rest.takeWhile isBare, c :: rest.takeWhile isBare, rest.dropWhile isBare⟩ := by
  simp only [special, List.mem_cons, not_or] at bare
  obtain ⟨quote, quote', escape, -⟩ := bare
  simp [takePiece, quote, quote', escape]

/-- A bare character counts for itself, although it is taken together with those behind it. -/
theorem splitFrom_bare {c : Char} (bare : c ∉ special) (offset : Nat) (rest : List Char) :
    splitFrom offset (c :: rest) =
      (splitFrom (offset + c.utf8Size) rest).map
        (glue ⟨[c], ⟨offset, offset + c.utf8Size⟩⟩) := by
  have solid : ∀ {d : Char}, d ∉ special → d ∉ blanks :=
    fun bare blank => bare (by simp [special, blank])
  rw [splitFrom_piece (solid bare) (takePiece_bare bare rest)]
  cases rest with
  | nil => simp
  | cons d rest =>
    by_cases more : isBare d = true
    · -- The next character is taken with this one here, and alone on the other side.
      have bare' := isBare_iff.mp more
      rw [splitFrom_piece (solid bare') (takePiece_bare bare' rest)]
      simp only [List.takeWhile_cons_of_pos more, List.dropWhile_cons_of_pos more]
      rw [map_glue_glue, byteLength_cons, Nat.add_assoc]
      rfl
    · simp [List.takeWhile_cons_of_neg more, List.dropWhile_cons_of_neg more]

theorem splitFrom_lexeme {text written : List Char} (lexeme : Lexeme text written) (offset : Nat)
    (rest : List Char) :
    splitFrom offset (written ++ rest) =
      (splitFrom (offset + byteLength written) rest).map
        (glue ⟨text, ⟨offset, offset + byteLength written⟩⟩) := by
  -- Except for a bare character, a lexeme is just the piece that is taken.
  cases lexeme with
  | bare bare => exact splitFrom_bare bare offset rest
  | @escaped c feed =>
    have taken : takePiece '\\' (c :: rest) = .ok ⟨[c], ['\\', c], rest⟩ := by
      simp [takePiece, feed]
    exact splitFrom_piece (by decide) taken offset
  | single quotes =>
    have taken : takePiece '\x27' (text ++ '\x27' :: rest) =
        .ok ⟨text, '\x27' :: text ++ ['\x27'], rest⟩ := by
      simp [takePiece, takeSingle_append quotes]
    simpa using splitFrom_piece (by decide) taken offset
  | @double raw run =>
    have taken : takePiece '\x22' (raw ++ '\x22' :: rest) =
        .ok ⟨unescape raw, '\x22' :: raw ++ ['\x22'], rest⟩ := by
      simp [takePiece, takeDouble_append run]
    simpa using splitFrom_piece (by decide) taken offset

theorem splitFrom_written {text written : List Char} (word : Written text written) (offset : Nat)
    (rest : List Char) :
    splitFrom offset (written ++ rest) =
      (splitFrom (offset + byteLength written) rest).map
        (glue ⟨text, ⟨offset, offset + byteLength written⟩⟩) := by
  induction word generalizing offset with
  | one lexeme => exact splitFrom_lexeme lexeme offset rest
  | more lexeme _ ih =>
    rw [List.append_assoc, splitFrom_lexeme lexeme, ih, map_glue_glue, byteLength_append,
      Nat.add_assoc]

/-- What follows complete lexemes is cut on its own, and the words found before it are put in front
of the words found there. -/
theorem splitFrom_complete {text : List Char} (complete : Complete text) (offset : Nat) :
    ∃ before : List Word → List Word, ∀ rest,
      splitFrom offset (text ++ rest) = (splitFrom (offset + byteLength text) rest).map before := by
  induction complete generalizing offset with
  | nil =>
    refine ⟨id, fun rest => ?_⟩
    cases split : splitFrom offset rest <;> simp [Except.map, split]
  | @blank c text blank _ ih =>
    obtain ⟨before, splits⟩ := ih (offset + c.utf8Size)
    refine ⟨before, fun rest => ?_⟩
    rw [List.cons_append, splitFrom_blank blank, splits, byteLength_cons, Nat.add_assoc]
  -- The lexeme is glued to what is found behind it, whatever that is.
  | @lexeme text written others lexeme _ ih =>
    obtain ⟨before, splits⟩ := ih (offset + byteLength written)
    refine ⟨glue ⟨text, ⟨offset, offset + byteLength written⟩⟩ ∘ before, fun rest => ?_⟩
    rw [List.append_assoc, splitFrom_lexeme lexeme, splits, byteLength_append, Nat.add_assoc]
    cases splitFrom (offset + (byteLength written + byteLength others)) rest <;> rfl

/-! ### Words in a text -/

/-- Words that stand in a text which begins at byte `offset`, with blanks between them, each at the
place of its written form. -/
inductive Laid : Nat → List Word → List Char → Prop where
  | none {offset : Nat} {gap : List Char} (blank : gap ⊆ blanks) : Laid offset [] gap
  | word {offset start stop : Nat} {gap text written rest : List Char} {words : List Word}
    (blank : gap ⊆ blanks) (begins : start = offset + byteLength gap)
    (form : Written text written) (ends : stop = start + byteLength written)
    (apart : ∀ c ∈ rest.head?, c ∈ blanks) (others : Laid stop words rest) :
    Laid offset (⟨text, ⟨start, stop⟩⟩ :: words) (gap ++ (written ++ rest))

theorem byteLength_pos {text : List Char} (some : text ≠ []) : 0 < byteLength text := by
  obtain ⟨c, rest, rfl⟩ := List.exists_cons_of_ne_nil some
  have := c.utf8Size_pos
  rw [byteLength_cons]
  omega

namespace Laid

/-- Blanks in front of words move nothing but the place where the text begins. -/
theorem gap_append {offset : Nat} {words : List Word} {gap text : List Char} (blank : gap ⊆ blanks)
    (laid : Laid (offset + byteLength gap) words text) : Laid offset words (gap ++ text) := by
  cases laid with
  | none blank' => exact .none (List.append_subset.mpr ⟨blank, blank'⟩)
  | word blank' begins form ends apart others =>
    rw [← List.append_assoc]
    refine .word (List.append_subset.mpr ⟨blank, blank'⟩) ?_ form ends apart others
    rw [begins, byteLength_append, Nat.add_assoc]

theorem first {offset stop : Nat} {words : List Word} {text written rest : List Char}
    (form : Written text written) (ends : stop = offset + byteLength written)
    (apart : ∀ c ∈ rest.head?, c ∈ blanks) (laid : Laid stop words rest) :
    Laid offset (⟨text, ⟨offset, stop⟩⟩ :: words) (written ++ rest) :=
  .word (List.nil_subset _) rfl form ends apart laid

/-- A written form in front of words is a word of its own, or the beginning of the first one. -/
theorem glue {offset : Nat} {words : List Word} {text written rest : List Char}
    (form : Written text written) (laid : Laid (offset + byteLength written) words rest) :
    Laid offset (glue ⟨text, ⟨offset, offset + byteLength written⟩⟩ words) (written ++ rest) := by
  cases laid with
  | none blank =>
    exact .first form rfl (fun c first => blank (List.mem_of_mem_head? first)) (.none blank)
  | @word _ start stop gap text' written' rest words blank begins form' ends apart others =>
    by_cases together : gap = []
    -- No blank between them: the two forms are one word.
    · subst together
      rw [byteLength_nil, Nat.add_zero] at begins
      subst begins
      rw [Word.glue, if_pos rfl, List.nil_append, ← List.append_assoc]
      refine .first (form.append form') ?_ apart others
      rw [ends, byteLength_append, Nat.add_assoc]
    -- A gap keeps them apart, by their places as well as by its blanks.
    · have gap_pos := byteLength_pos together
      have parted : offset + byteLength written ≠ start := by omega
      rw [Word.glue, if_neg parted]
      refine .first form rfl (fun c first => ?_) (.word blank begins form' ends apart others)
      rw [List.head?_append_of_ne_nil gap together] at first
      exact blank (List.mem_of_mem_head? first)

/-- Each word has its written form at its place. -/
theorem exists_written {offset : Nat} {words : List Word} {text : List Char}
    (laid : Laid offset words text) {word : Word} (member : word ∈ words) :
    ∃ before written behind, text = before ++ (written ++ behind) ∧ Written word.text written ∧
      word.span =
        ⟨offset + byteLength before, offset + byteLength before + byteLength written⟩ := by
  induction laid with
  | none => cases member
  | @word offset start stop gap text written rest words _ begins form ends _ _ ih =>
    rcases List.mem_cons.mp member with rfl | later
    · exact ⟨gap, written, rest, rfl, form, by rw [ends, begins]⟩
    · obtain ⟨before, written', behind, rfl, form', place⟩ := ih later
      refine ⟨gap ++ (written ++ before), written', behind, by simp, form', ?_⟩
      rw [place, ends, begins]
      simp only [byteLength_append, Nat.add_assoc]

/-- A blank at the beginning of a text lies before all words. -/
theorem lt_start {offset : Nat} {words : List Word} {text : List Char}
    (laid : Laid offset words text) (apart : ∀ c ∈ text.head?, c ∈ blanks) :
    ∀ word ∈ words, offset < word.span.start := by
  intro word member
  obtain ⟨before, written, behind, rfl, form, place⟩ := laid.exists_written member
  -- A written form begins with no blank, so something stands before it.
  have some : before ≠ [] := by
    rintro rfl
    obtain ⟨c, rest, rfl, solid⟩ := form.exists_cons
    exact solid (apart c rfl)
  have before_pos := byteLength_pos some
  rw [place]
  exact Nat.lt_add_of_pos_right before_pos

/-- A word that a blank follows is not joined to the next one. -/
theorem glue_apart {stop : Nat} {words : List Word} {rest : List Char}
    (laid : Laid stop words rest) (apart : ∀ c ∈ rest.head?, c ∈ blanks) (text : List Char)
    (start : Nat) :
    Word.glue ⟨text, ⟨start, stop⟩⟩ words = ⟨text, ⟨start, stop⟩⟩ :: words := by
  cases words with
  | nil => rfl
  | cons next words =>
    have later := laid.lt_start apart next List.mem_cons_self
    rw [Word.glue, if_neg (Nat.ne_of_lt later)]

theorem complete {offset : Nat} {words : List Word} {text : List Char}
    (laid : Laid offset words text) : Complete text := by
  induction laid with
  | none blank => simpa using Complete.nil.gap_append blank
  | word blank _ form _ _ _ ih => exact (ih.written_append form).gap_append blank

end Laid

/-- The words of a line are those that stand in it. -/
theorem splitFrom_eq_ok_iff {offset : Nat} {text : List Char} {words : List Word} :
    splitFrom offset text = .ok words ↔ Laid offset words text := by
  constructor
  · intro split
    -- Along the reader: a blank, a piece in front of what is read behind it, or a fault.
    fun_induction splitFrom offset text generalizing words with
    | case1 =>
      cases split
      exact .none (List.nil_subset _)
    | case2 offset c rest cut ih =>
      have blank : [c] ⊆ blanks := List.cons_subset.mpr ⟨isCut_iff.mp cut, List.nil_subset _⟩
      refine Laid.gap_append blank ?_
      simpa using ih split
    | case3 => cases split
    | case4 offset c rest uncut piece taken stop words' found =>
      rename_i ih
      cases split
      rw [takePiece_eq taken]
      exact Laid.glue (written_of_takePiece (mt isCut_iff.mpr uncut) taken) (ih found)
    | case5 => cases split
  · intro laid
    -- Along the words as they stand.
    induction laid with
    | @none offset gap blank =>
      have gone := splitFrom_gap blank offset []
      rwa [List.append_nil, splitFrom] at gone
    | @word offset start stop gap text written rest words blank begins form ends apart others ih =>
      rw [splitFrom_gap blank, splitFrom_written form, ← begins, ← ends, ih]
      exact congrArg Except.ok (others.glue_apart apart text start)

/-- A line cannot be cut exactly if it breaks behind complete lexemes, and there it is given up. -/
theorem splitFrom_eq_error_iff {offset place : Nat} {text : List Char} {cause : LineCause} :
    splitFrom offset text = .error (cause, place) ↔
      ∃ complete broken, text = complete ++ broken ∧ Complete complete ∧ Breaks cause broken ∧
        place = offset + byteLength complete := by
  constructor
  · intro refused
    fun_induction splitFrom offset text with
    | case1 => cases refused
    | case2 offset c rest cut ih =>
      obtain ⟨complete, broken, rfl, whole, breaks, rfl⟩ := ih refused
      refine ⟨c :: complete, broken, rfl, .blank (isCut_iff.mp cut) whole, breaks, ?_⟩
      rw [byteLength_cons, Nat.add_assoc]
    -- Here no piece can be taken.
    | case3 offset c rest uncut cause' taken =>
      cases refused
      have breaks := (takePiece_eq_error (mt isCut_iff.mpr uncut)).mp taken
      exact ⟨[], c :: rest, rfl, .nil, breaks, rfl⟩
    | case4 => cases refused
    -- The fault lies behind the piece, which is complete.
    | case5 offset c rest uncut piece taken stop fault found ih =>
      cases refused
      obtain ⟨complete, broken, same, whole, breaks, rfl⟩ := ih found
      have form := written_of_takePiece (mt isCut_iff.mpr uncut) taken
      refine ⟨piece.written ++ complete, broken, ?_, whole.written_append form, breaks, ?_⟩
      · rw [takePiece_eq taken, same, List.append_assoc]
      · rw [byteLength_append, ← Nat.add_assoc]
  -- Complete lexemes do not change what the reader meets behind them.
  · rintro ⟨complete, broken, rfl, whole, breaks, rfl⟩
    obtain ⟨before, splits⟩ := splitFrom_complete whole offset
    rw [splits, splitFrom_breaks breaks]
    rfl

/-- A text can be cut exactly if it falls into whole lexemes and blanks. -/
theorem exists_splitFrom_iff {offset : Nat} {text : List Char} :
    (∃ words, splitFrom offset text = .ok words) ↔ Complete text := by
  constructor
  · rintro ⟨words, split⟩
    exact (splitFrom_eq_ok_iff.mp split).complete
  · intro complete
    obtain ⟨before, splits⟩ := splitFrom_complete complete offset
    have split := splits []
    rw [List.append_nil, splitFrom] at split
    exact ⟨before [], split⟩

/-! ### Whole lines -/

theorem split_eq_ok_iff {line : String} {words : List Word} :
    split line = .ok words ↔ Laid 0 words line.toList := by
  rw [← splitFrom_eq_ok_iff, split]
  cases splitFrom 0 line.toList <;> simp

theorem exists_split_iff {line : String} :
    (∃ words, split line = .ok words) ↔ Complete line.toList := by
  simp only [split_eq_ok_iff, ← splitFrom_eq_ok_iff, exists_splitFrom_iff]

theorem split_eq_error_iff {line : String} {fault : Fault} :
    split line = .error fault ↔
      ∃ cause complete broken, line.toList = complete ++ broken ∧ Complete complete ∧
        Breaks cause broken ∧
        fault = .badLine cause ⟨line, ⟨byteLength complete, byteLength line.toList⟩⟩ := by
  -- The reader's place becomes a span that reaches to the end of the line.
  have refused : split line = .error fault ↔
      ∃ cause place, splitFrom 0 line.toList = .error (cause, place) ∧
        fault = .badLine cause ⟨line, ⟨place, byteLength line.toList⟩⟩ := by
    rw [split]
    cases splitFrom 0 line.toList with
    | ok words => simp
    | error found => simp [Prod.ext_iff, eq_comm]
  rw [refused]
  constructor
  · rintro ⟨cause, place, splits, rfl⟩
    obtain ⟨complete, broken, same, whole, breaks, rfl⟩ := splitFrom_eq_error_iff.mp splits
    exact ⟨cause, complete, broken, same, whole, breaks, by rw [Nat.zero_add]⟩
  · rintro ⟨cause, complete, broken, same, whole, breaks, rfl⟩
    refine ⟨cause, byteLength complete, splitFrom_eq_error_iff.mpr ?_, rfl⟩
    exact ⟨complete, broken, same, whole, breaks, (Nat.zero_add _).symm⟩

end Gleaner.Word
