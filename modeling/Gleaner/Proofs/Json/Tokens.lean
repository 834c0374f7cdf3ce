import Gleaner.Proofs.Json.Text
import Mathlib.Data.List.TakeWhile

/-!
# Tokens

The readers of strings and scalars take a token off a text, and which one does not depend on what
follows it: a string ends by itself, and a name or number ends where a blank, a comma or a closing
bracket follows. A token that can be read can be skimmed as well, and ends at the same place. So a
text that is a token by itself is read the same way in front of other texts.
-/

namespace Gleaner.Json

/-! ### Readers of tokens -/

/-- What a reader takes off a text does not depend on what follows, as long as `follows` holds of
it. -/
def Local {α : Type} (follows : List Char → Prop)
    (reader : List Char → Except TextFault (α × List Char)) : Prop :=
  ∀ text value rest, reader text = .ok (value, rest) →
    ∃ token, text = token ++ rest ∧
      ∀ rest', follows rest' → reader (token ++ rest') = .ok (value, rest')

/-- A reader takes tokens: which text it takes depends neither on what follows nor on the care with
which it is read, apart from tokens that can only be skimmed. -/
structure TakesTokens {α : Type} (follows : List Char → Prop)
    (reader : Care → List Char → Except TextFault (α × List Char)) : Prop where
  ends : follows []
  token (care : Care) : Local follows (reader care)
  skims {text rest : List Char} {value : α} (taken : reader .keep text = .ok (value, rest)) :
    ∃ value', reader .skim text = .ok (value', rest)

/-- What a reader makes of a text that it takes as a whole. -/
def whole? {α : Type} (reader : List Char → Except TextFault (α × List Char)) (text : List Char) :
    Option α :=
  match reader text with
  | .ok (value, []) => some value
  | _ => none

theorem whole?_eq_some {α : Type} {reader : List Char → Except TextFault (α × List Char)}
    {text : List Char} {value : α} :
    whole? reader text = some value ↔ reader text = .ok (value, []) := by
  unfold whole?
  split
  next value' taken => simp [taken]
  -- When something is left over, or nothing is read, there is no whole value either way.
  next other =>
    constructor
    · intro found
      cases found
    · intro taken
      exact absurd taken (other value)

namespace TakesTokens

variable {α : Type} {follows : List Char → Prop}
  {reader : Care → List Char → Except TextFault (α × List Char)} {care : Care}
  {text rest : List Char} {value : α}

theorem skimmed (takes : TakesTokens follows reader)
    (taken : reader care text = .ok (value, rest)) :
    ∃ value', reader .skim text = .ok (value', rest) := by
  cases care with
  | keep => exact takes.skims taken
  | skim => exact ⟨value, taken⟩

theorem isSome_skim (takes : TakesTokens follows reader)
    (read : (whole? (reader care) text).isSome) :
    (whole? (reader .skim) text).isSome := by
  obtain ⟨value, taken⟩ := Option.isSome_iff_exists.mp read
  obtain ⟨value', skimmed⟩ := takes.skimmed (whole?_eq_some.mp taken)
  exact Option.isSome_iff_exists.mpr ⟨value', whole?_eq_some.mpr skimmed⟩

/-- What is taken is a token by itself. -/
theorem exists_token (takes : TakesTokens follows reader)
    (taken : reader care text = .ok (value, rest)) :
    ∃ token, text = token ++ rest ∧ (whole? (reader .skim) token).isSome := by
  obtain ⟨value', skimmed⟩ := takes.skimmed taken
  obtain ⟨token, rfl, again⟩ := takes.token .skim _ _ _ skimmed
  have alone := again [] takes.ends
  rw [List.append_nil] at alone
  exact ⟨token, rfl, Option.isSome_iff_exists.mpr ⟨value', whole?_eq_some.mpr alone⟩⟩

/-- In front of what may follow it, a token is read as it is by itself. -/
theorem toOption_append (takes : TakesTokens follows reader) {token : List Char}
    (proper : (whole? (reader .skim) token).isSome) (follow : follows rest) (care : Care) :
    (reader care (token ++ rest)).toOption = (whole? (reader care) token).map (·, rest) := by
  have extend {care : Care} {value : α} (alone : reader care token = .ok (value, [])) :
      reader care (token ++ rest) = .ok (value, rest) := by
    obtain ⟨token', same, again⟩ := takes.token care _ _ _ alone
    rw [List.append_nil] at same
    rw [same]
    exact again rest follow
  obtain ⟨value', alone⟩ := Option.isSome_iff_exists.mp proper
  have skimmed := extend (whole?_eq_some.mp alone)
  ext ⟨value, rest'⟩
  simp only [toOption_eq_some, Option.map_eq_some_iff, Prod.mk.injEq, whole?_eq_some]
  constructor
  · intro taken
    -- Both the token and what was taken end where the skimmed token does.
    obtain ⟨value'', skimmed'⟩ := takes.skimmed taken
    rw [skimmed] at skimmed'
    cases skimmed'
    obtain ⟨token', same, again⟩ := takes.token care _ _ _ taken
    rw [← List.append_cancel_right same] at again
    refine ⟨value, ?_, rfl, rfl⟩
    simpa using again [] takes.ends
  · rintro ⟨_, taken, rfl, rfl⟩
    exact extend taken

theorem map {β : Type} {follows' : List Char → Prop} (takes : TakesTokens follows reader)
    (f : α → β) (ends : follows' []) (within : ∀ rest, follows' rest → follows rest) :
    TakesTokens follows' fun care text => do
      let (value, rest) ← reader care text
      return (f value, rest) where
  ends := ends
  token care := by
    intro text value rest taken
    obtain ⟨⟨value', rest'⟩, taken, made⟩ := except_bind_eq_ok.mp taken
    cases made
    obtain ⟨token, rfl, again⟩ := takes.token care _ _ _ taken
    -- What follows is looked at by the reader alone, never by `f`.
    refine ⟨token, rfl, fun rest' follow => ?_⟩
    simp only [again rest' (within rest' follow)]
    rfl
  skims := by
    intro text rest value taken
    obtain ⟨⟨value', rest'⟩, taken, made⟩ := except_bind_eq_ok.mp taken
    cases made
    obtain ⟨value'', skimmed⟩ := takes.skims taken
    refine ⟨f value'', ?_⟩
    simp only [skimmed]
    rfl

/-- A reader that never comes back empty-handed takes the rest of a token behind its first
character. -/
theorem behind (takes : TakesTokens follows reader)
    (some : ∀ care text value rest, reader care text = .ok (value, rest) →
      rest.length < text.length)
    (c : Char) : TakesTokens follows fun care text => reader care (c :: text) where
  ends := takes.ends
  token care := by
    intro text value rest taken
    obtain ⟨token, same, again⟩ := takes.token care _ _ _ taken
    -- The token is not empty, so it begins with the character in front.
    cases token with
    | nil =>
      have shorter := some care _ _ _ taken
      rw [same, List.nil_append] at shorter
      exact absurd shorter (Nat.lt_irrefl _)
    | cons first token =>
      obtain ⟨rfl, rfl⟩ := List.cons.inj same
      exact ⟨token, rfl, again⟩
  skims := takes.skims

end TakesTokens

/-! ### Strings -/

/-- Strings end by themselves, so anything may follow them. -/
def Anything (_ : List Char) : Prop := True

theorem local_takeHex : Local Anything takeHex := by
  intro text unit rest taken
  unfold takeHex at taken
  split at taken
  next a b c d after =>
    split at taken
    next a' b' c' d' hexA hexB hexC hexD =>
      cases taken
      -- The token is the four digits, whatever follows them.
      refine ⟨[a, b, c, d], rfl, fun rest' _ => ?_⟩
      simp [takeHex, hexA, hexB, hexC, hexD]
    next => cases taken
  next => cases taken

theorem local_takeLow (high : Nat) : Local Anything (takeLow high) := by
  intro text value rest taken
  unfold takeLow at taken
  split at taken
  next => cases taken
  next => cases taken
  next behind =>
    -- The second half is again four digits, behind a backslash and the letter.
    obtain ⟨⟨low, after⟩, hex, made⟩ := except_bind_eq_ok.mp taken
    obtain ⟨token, rfl, again⟩ := local_takeHex _ _ _ hex
    dsimp only at made
    split at made
    next => cases made
    next inside =>
      obtain ⟨value_eq, rfl⟩ := Prod.mk.inj (Except.ok.inj made)
      refine ⟨'\\' :: 'u' :: token, rfl, fun rest' _ => ?_⟩
      simp only [takeLow, List.cons_append, again rest' trivial, bind, Except.bind, inside,
        ← value_eq]
      rfl
  next => cases taken

/-- An escape without digits is a single letter. -/
theorem takeEscape_letter (care : Care) {letter : Char} (plain : letter ≠ 'u') (rest : List Char) :
    takeEscape care (letter :: rest) =
      (takeEscape care [letter]).map fun taken => (taken.1, rest) := by
  simp only [takeEscape, if_neg plain]
  repeat' split
  all_goals rfl

theorem local_takeEscape (care : Care) : Local Anything (takeEscape care) := by
  intro text value rest taken
  cases text with
  | nil => cases taken
  | cons letter behind =>
  by_cases isHex : letter = 'u'
  · rw [takeEscape, if_pos isHex] at taken
    obtain ⟨⟨unit, after⟩, hex, made⟩ := except_bind_eq_ok.mp taken
    obtain ⟨token, rfl, again⟩ := local_takeHex _ _ _ hex
    dsimp only at made
    split at made
    next skimmed =>
      cases made
      refine ⟨letter :: token, rfl, fun rest' _ => ?_⟩
      simp [takeEscape, isHex, again rest' trivial, bind, Except.bind, skimmed]
    next kept =>
      split at made
      next => cases made
      next notLow =>
        split at made
        next high =>
          -- The second half of a surrogate pair belongs to the escape.
          obtain ⟨token', rfl, again'⟩ := local_takeLow _ _ _ _ made
          refine ⟨letter :: token ++ token', by simp, fun rest' _ => ?_⟩
          simp only [takeEscape, List.cons_append, List.append_assoc, isHex, if_true,
            again _ trivial, bind, Except.bind, kept, if_false, notLow, high, again' rest' trivial]
          rfl
        next notHigh =>
          cases made
          refine ⟨letter :: token, rfl, fun rest' _ => ?_⟩
          simp only [takeEscape, List.cons_append, isHex, if_true, again _ trivial, bind,
            Except.bind, kept, if_false, notLow, notHigh]
          rfl
  · rw [takeEscape_letter care isHex] at taken
    obtain ⟨⟨c, after⟩, alone, made⟩ := except_map_eq_ok.mp taken
    cases made
    refine ⟨[letter], rfl, fun rest' _ => ?_⟩
    rw [List.singleton_append, takeEscape_letter care isHex, alone]
    rfl

theorem local_takeString (care : Care) (found : List Char) :
    Local Anything (takeString care found) := by
  intro text value rest taken
  fun_induction takeString care found text with
  | case1 => cases taken
  | case2 =>
    cases taken
    refine ⟨['\x22'], rfl, fun rest' _ => ?_⟩
    rw [List.singleton_append, takeString, if_pos rfl]
  | case3 => cases taken
  | case4 found escape c after escaped noQuote ih =>
    obtain ⟨token, rfl, again⟩ := local_takeEscape _ _ _ _ escaped
    obtain ⟨token', rfl, again'⟩ := ih taken
    refine ⟨'\\' :: token ++ token', by simp, fun rest' _ => ?_⟩
    -- The escape is read the same way before any text, in particular before the rest of the string.
    rw [List.cons_append, List.cons_append, List.append_assoc,
      takeString_escape (again (token' ++ rest') trivial)]
    exact again' rest' trivial
  | case5 => cases taken
  | case6 found c after noQuote noEscape printed ih =>
    obtain ⟨token, rfl, again⟩ := ih taken
    refine ⟨c :: token, rfl, fun rest' _ => ?_⟩
    -- A character that stands for itself: no quote, no escape, no control character.
    rw [List.cons_append, takeString, if_neg noQuote, if_neg noEscape, if_neg printed]
    exact again rest' trivial

/-- An escape that can be read can be skimmed, or it is a surrogate pair and its halves can be skimmed
one after the other. -/
theorem skim_takeEscape {text rest : List Char} {c : Char}
    (taken : takeEscape .keep text = .ok (c, rest)) :
    (∃ c', takeEscape .skim text = .ok (c', rest)) ∨
      ∃ c' c'' more, takeEscape .skim text = .ok (c', '\\' :: more) ∧
        takeEscape .skim more = .ok (c'', rest) := by
  cases text with
  | nil => cases taken
  | cons letter behind =>
  by_cases isHex : letter = 'u'
  · rw [takeEscape, if_pos isHex] at taken
    obtain ⟨⟨unit, after⟩, hex, made⟩ := except_bind_eq_ok.mp taken
    have skimmed : takeEscape .skim (letter :: behind) = .ok (' ', after) := by
      simp [takeEscape, isHex, hex, bind, Except.bind]
    simp only [reduceCtorEq, if_false] at made
    -- Reading looks at the unit, skimming does not: a low half alone is refused.
    split at made
    next => cases made
    split at made
    -- A high half takes a second escape with it, which skimming meets as an escape of its own.
    next =>
      right
      unfold takeLow at made
      split at made
      next => cases made
      next => cases made
      next behind' =>
        obtain ⟨⟨low, after'⟩, hex', made'⟩ := except_bind_eq_ok.mp made
        dsimp only at made'
        split at made'
        next => cases made'
        next =>
          obtain ⟨-, rfl⟩ := Prod.mk.inj (Except.ok.inj made')
          refine ⟨' ', ' ', 'u' :: behind', skimmed, ?_⟩
          simp [takeEscape, hex', bind, Except.bind]
      next => cases made
    -- Any other unit is one character, read or skimmed.
    next =>
      cases made
      exact .inl ⟨_, skimmed⟩
  -- The short escapes do not depend on the care.
  · left
    refine ⟨c, ?_⟩
    rw [takeEscape, if_neg isHex] at taken ⊢
    exact taken

/-- A string that can be read can be skimmed. -/
theorem skim_takeString {found found' text rest : List Char} {value : String}
    (taken : takeString .keep found text = .ok (value, rest)) :
    ∃ value', takeString .skim found' text = .ok (value', rest) := by
  fun_induction takeString .keep found text generalizing found' with
  | case1 => cases taken
  | case2 =>
    cases taken
    exact ⟨_, by rw [takeString, if_pos rfl]⟩
  | case3 => cases taken
  | case4 found escape c after escaped noQuote ih =>
    -- A pair that is read as one character is skimmed as two.
    rcases skim_takeEscape escaped with ⟨c', skimmed⟩ | ⟨c', c'', more, skimmed, skimmed'⟩
    · rw [takeString_escape skimmed]
      exact ih taken
    · rw [takeString_escape skimmed, takeString_escape skimmed']
      exact ih taken
  | case5 => cases taken
  | case6 found c after noQuote noEscape printed ih =>
    obtain ⟨value', skimmed⟩ := ih taken
    exact ⟨value', by rw [takeString, if_neg noQuote, if_neg noEscape, if_neg printed, skimmed]⟩

theorem takesTokens_readString : TakesTokens Anything readString where
  ends := trivial
  token care := local_takeString care []
  skims := skim_takeString

end Gleaner.Json
