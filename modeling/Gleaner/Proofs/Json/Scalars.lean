import Gleaner.Proofs.Json.Tokens

/-!
# Tokens of scalars

A number is digits, perhaps a point with digits and perhaps an exponent, and each of these ends
where the next one begins. Whether it is read or skimmed, it is the same number; only its range is
looked at or not. A name has no choice at all. So scalars of every kind are tokens where a blank, a
comma or a closing bracket follows.
-/

namespace Gleaner.Json

/-! ### Numbers -/

/-- The first character of a text, if there is one, belongs to a set. -/
def HeadIn (set : Char → Prop) (text : List Char) : Prop :=
  ∀ c ∈ text.head?, set c

theorem HeadIn.nil (set : Char → Prop) : HeadIn set [] := fun _ member => nomatch member

theorem HeadIn.mono {set set' : Char → Prop} {text : List Char} (begins : HeadIn set text)
    (within : ∀ c, set c → set' c) : HeadIn set' text :=
  fun c member => within c (begins c member)

theorem HeadIn.append {set : Char → Prop} {first second : List Char} (begins : HeadIn set first)
    (goesOn : HeadIn set second) : HeadIn set (first ++ second) := by
  cases first with
  | nil => exact goesOn
  | cons c rest => exact begins

/-- A character with which no number goes on. -/
def EndsNumber (c : Char) : Prop :=
  c.isDigit = false ∧ c ≠ '.' ∧ c ≠ 'e' ∧ c ≠ 'E'

instance : DecidablePred EndsNumber := fun _ => inferInstanceAs (Decidable (_ ∧ _))

theorem takeDigits_append {digits rest : List Char} (areDigits : ∀ c ∈ digits, c.isDigit = true)
    (ends : HeadIn (·.isDigit = false) rest) : takeDigits (digits ++ rest) = (digits, rest) := by
  have none : rest.takeWhile Char.isDigit = [] ∧ rest.dropWhile Char.isDigit = rest := by
    cases rest with
    | nil => exact ⟨rfl, rfl⟩
    | cons c rest =>
      have other : c.isDigit = false := ends c rfl
      simp [other]
  rw [takeDigits, List.takeWhile_append_of_pos areDigits, List.dropWhile_append_of_pos areDigits,
    none.1, none.2, List.append_nil]

theorem takeDigits_eq {text digits rest : List Char} (taken : takeDigits text = (digits, rest)) :
    text = digits ++ rest ∧ ∀ c ∈ digits, c.isDigit = true := by
  obtain ⟨rfl, rfl⟩ := Prod.mk.inj taken
  exact ⟨List.takeWhile_append_dropWhile.symm, fun c member => List.mem_takeWhile_imp member⟩

/-- The digits that were taken are taken in front of anything that does not begin with one. -/
theorem takeDigits_again {text digits rest rest' : List Char}
    (taken : takeDigits text = (digits, rest)) (ends : HeadIn (·.isDigit = false) rest') :
    takeDigits (digits ++ rest') = (digits, rest') :=
  takeDigits_append (takeDigits_eq taken).2 ends

theorem exists_digit_of_takeDigits {text digits rest : List Char}
    (taken : takeDigits text = (digits, rest)) (some : digits ≠ []) :
    ∃ d more, text = d :: more ∧ d.isDigit = true := by
  obtain ⟨rfl, areDigits⟩ := takeDigits_eq taken
  obtain ⟨d, more, rfl⟩ := List.exists_cons_of_ne_nil some
  exact ⟨d, more ++ rest, rfl, areDigits d List.mem_cons_self⟩

theorem takeWhole_eq_ok {care : Care} {text digits rest : List Char} :
    takeWhole care text = .ok (digits, rest) ↔
      takeDigits text = (digits, rest) ∧ digits ≠ [] ∧ ∀ d more, digits ≠ '0' :: d :: more := by
  unfold takeWhole
  -- The digits matter only as a list from here on.
  generalize takeDigits text = taken
  obtain ⟨found, after⟩ := taken
  dsimp only
  constructor
  · intro read
    split at read
    next => cases read
    next => cases read
    next some whole =>
      cases read
      exact ⟨rfl, some, whole⟩
  · rintro ⟨same, some, whole⟩
    cases same
    split
    next => exact absurd rfl some
    next => exact absurd rfl (whole _ _)
    next => rfl

/-- Digits behind a mark: at least one. -/
theorem someDigits_eq_ok {α : Type} (fault : List Char → TextFault) (make : List Char → α)
    {text rest : List Char} {value : α} :
    (if (takeDigits text).1.isEmpty then .error (fault (takeDigits text).2)
      else .ok (make (takeDigits text).1, (takeDigits text).2) : Except TextFault (α × List Char)) =
        .ok (value, rest) ↔
      ∃ digits, takeDigits text = (digits, rest) ∧ digits ≠ [] ∧ make digits = value := by
  generalize takeDigits text = taken
  obtain ⟨found, after⟩ := taken
  cases found with
  | nil => simp
  | cons d more => simp [and_comm]

theorem takeFraction_eq_ok {care : Care} {text rest : List Char} {fraction : Option (List Char)} :
    takeFraction care text = .ok (fraction, rest) ↔
      (∃ behind digits, text = '.' :: behind ∧ takeDigits behind = (digits, rest) ∧ digits ≠ [] ∧
        fraction = some digits) ∨
      (HeadIn (· ≠ '.') text ∧ fraction = none ∧ text = rest) := by
  unfold takeFraction
  split
  next behind =>
    -- A text that begins with a point excludes the second alternative, and without one the first.
    have pointed : ¬ HeadIn (· ≠ '.') ('.' :: behind) := fun begins => begins '.' rfl rfl
    refine (someDigits_eq_ok (brokenNumber care) some).trans ?_
    simp [pointed, eq_comm]
  next other =>
    have unpointed : HeadIn (· ≠ '.') text := by
      rintro c head rfl
      obtain ⟨behind, rfl⟩ := List.head?_eq_some_iff.mp head
      exact other behind rfl
    have noPoint : ∀ behind, text ≠ '.' :: behind := fun behind same => other behind same
    simp [unpointed, noPoint, eq_comm]

/-- An exponent is a letter, a sign that may be missing, and digits. -/
theorem takeExponent_eq_ok {care : Care} {text rest : List Char}
    {exponent : Option (List Char × List Char)} :
    takeExponent care text = .ok (exponent, rest) ↔
      (∃ letter sign behind digits, text = letter :: (sign ++ behind) ∧
        (letter = 'e' ∨ letter = 'E') ∧ (sign = ['+'] ∨ sign = ['-'] ∨ sign = []) ∧
        takeDigits behind = (digits, rest) ∧ digits ≠ [] ∧ exponent = some (sign, digits)) ∨
      (HeadIn (fun c => c ≠ 'e' ∧ c ≠ 'E') text ∧ exponent = none ∧ text = rest) := by
  unfold takeExponent
  split
  next c behind =>
    split
    next marked =>
      have letter : c = 'e' ∨ c = 'E' := by simpa using marked
      let signed (sign digits : List Char) := some (sign, digits)
      constructor
      · intro taken
        left
        dsimp only at taken
        split at taken
        next after =>
          obtain ⟨digits, read, some, rfl⟩ :=
            (someDigits_eq_ok (brokenNumber care) (signed ['+'])).mp taken
          exact ⟨c, ['+'], after, digits, rfl, letter, .inl rfl, read, some, rfl⟩
        next after =>
          obtain ⟨digits, read, some, rfl⟩ :=
            (someDigits_eq_ok (brokenNumber care) (signed ['-'])).mp taken
          exact ⟨c, ['-'], after, digits, rfl, letter, .inr (.inl rfl), read, some, rfl⟩
        next =>
          obtain ⟨digits, read, some, rfl⟩ :=
            (someDigits_eq_ok (brokenNumber care) (signed [])).mp taken
          exact ⟨c, [], behind, digits, rfl, letter, .inr (.inr rfl), read, some, rfl⟩
      · rintro (⟨_, sign, after, digits, same, -, isSign, read, some, rfl⟩ | ⟨unmarked, -, -⟩)
        · obtain ⟨rfl, rfl⟩ := List.cons.inj same
          have read' := (someDigits_eq_ok (brokenNumber care) (signed sign)).mpr
            ⟨digits, read, some, rfl⟩
          rcases isSign with rfl | rfl | rfl
          · exact read'
          · exact read'
          · -- A digit is no sign.
            obtain ⟨d, more, rfl, isDigit⟩ := exists_digit_of_takeDigits read some
            dsimp only [List.nil_append]
            split
            next same => cases same; cases isDigit
            next same => cases same; cases isDigit
            next => exact read'
        · exact absurd letter (not_or.mpr (unmarked c rfl))
    next unmarked =>
      have other : c ≠ 'e' ∧ c ≠ 'E' := by simpa [not_or] using unmarked
      have begins : HeadIn (fun c => c ≠ 'e' ∧ c ≠ 'E') (c :: behind) := by
        rintro _ ⟨⟩
        exact other
      constructor
      · intro taken
        cases taken
        exact .inr ⟨begins, rfl, rfl⟩
      · rintro (⟨_, _, _, _, same, letter, -⟩ | ⟨-, rfl, rfl⟩)
        · obtain ⟨rfl, -⟩ := List.cons.inj same
          exact absurd letter (not_or.mpr other)
        · rfl
  next =>
    constructor
    · intro taken
      cases taken
      exact .inr ⟨.nil _, rfl, rfl⟩
    · rintro (⟨_, _, _, _, same, -⟩ | ⟨-, rfl, rfl⟩)
      · cases same
      · rfl

theorem local_takeWhole (care : Care) : Local (HeadIn (·.isDigit = false)) (takeWhole care) := by
  intro text digits rest taken
  obtain ⟨read, some, whole⟩ := takeWhole_eq_ok.mp taken
  refine ⟨digits, (takeDigits_eq read).1, fun rest' ends => ?_⟩
  exact takeWhole_eq_ok.mpr ⟨takeDigits_again read ends, some, whole⟩

theorem token_takeFraction {care : Care} {text rest : List Char} {fraction : Option (List Char)}
    (taken : takeFraction care text = .ok (fraction, rest)) :
    ∃ token, text = token ++ rest ∧ HeadIn (· = '.') token ∧
      ∀ rest', HeadIn (fun c => c.isDigit = false ∧ c ≠ '.') rest' →
        takeFraction care (token ++ rest') = .ok (fraction, rest') := by
  rcases takeFraction_eq_ok.mp taken with
    ⟨behind, digits, rfl, read, some, rfl⟩ | ⟨begins, rfl, rfl⟩
  · refine ⟨'.' :: digits, by rw [(takeDigits_eq read).1, List.cons_append], ?_, ?_⟩
    · rintro _ ⟨⟩
      rfl
    -- What follows may not go on with digits, or the fraction would take them too.
    · intro rest' ends
      have again := takeDigits_again read (ends.mono fun _ => And.left)
      exact takeFraction_eq_ok.mpr (.inl ⟨digits ++ rest', digits, rfl, again, some, rfl⟩)
  -- Without a point the token is empty, and what follows must not begin with one.
  · refine ⟨[], rfl, .nil _, fun rest' ends => ?_⟩
    exact takeFraction_eq_ok.mpr (.inr ⟨ends.mono fun _ => And.right, rfl, rfl⟩)

theorem token_takeExponent {care : Care} {text rest : List Char}
    {exponent : Option (List Char × List Char)}
    (taken : takeExponent care text = .ok (exponent, rest)) :
    ∃ token, text = token ++ rest ∧ HeadIn (fun c => c = 'e' ∨ c = 'E') token ∧
      ∀ rest', HeadIn EndsNumber rest' →
        takeExponent care (token ++ rest') = .ok (exponent, rest') := by
  rcases takeExponent_eq_ok.mp taken with
    ⟨letter, sign, behind, digits, rfl, isLetter, isSign, read, some, rfl⟩ | ⟨begins, rfl, rfl⟩
  · refine ⟨letter :: (sign ++ digits), ?_, ?_, fun rest' ends => ?_⟩
    · rw [(takeDigits_eq read).1]
      simp
    · rintro _ ⟨⟩
      exact isLetter
    -- The same for the exponent's digits; the sign belongs to the token.
    · have again := takeDigits_again read (ends.mono fun _ => And.left)
      refine takeExponent_eq_ok.mpr (.inl ?_)
      exact ⟨letter, sign, digits ++ rest', digits, by simp, isLetter, isSign, again, some, rfl⟩
  · refine ⟨[], rfl, .nil _, fun rest' ends => ?_⟩
    exact takeExponent_eq_ok.mpr (.inr ⟨ends.mono fun _ ends => ends.2.2, rfl, rfl⟩)

theorem local_takeNumber (care : Care) (negative : Bool) :
    Local (HeadIn EndsNumber) (takeNumber care negative) := by
  intro text numeral rest taken
  obtain ⟨⟨whole, behind⟩, wholeTaken, made⟩ := except_bind_eq_ok.mp taken
  obtain ⟨⟨fraction, behind'⟩, fractionTaken, made'⟩ := except_bind_eq_ok.mp made
  obtain ⟨⟨exponent, behind''⟩, exponentTaken, made''⟩ := except_bind_eq_ok.mp made'
  obtain ⟨first, rfl, again⟩ := local_takeWhole _ _ _ _ wholeTaken
  obtain ⟨second, rfl, pointed, again'⟩ := token_takeFraction fractionTaken
  obtain ⟨third, rfl, lettered, again''⟩ := token_takeExponent exponentTaken
  dsimp only at made''
  split at made''
  next => cases made''
  next inRange =>
    cases made''
    refine ⟨first ++ (second ++ third), by simp, fun rest' ends => ?_⟩
    -- Each part ends where the next one begins, or where the number ends.
    have behindFraction : HeadIn (fun c => c.isDigit = false ∧ c ≠ '.') (third ++ rest') := by
      apply HeadIn.append
      · exact lettered.mono fun c isLetter => by rcases isLetter with rfl | rfl <;> decide
      · exact ends.mono fun c ends => ⟨ends.1, ends.2.1⟩
    have behindWhole : HeadIn (·.isDigit = false) (second ++ (third ++ rest')) := by
      apply HeadIn.append
      · exact pointed.mono fun c isPoint => by rw [isPoint]; decide
      · exact behindFraction.mono fun c => And.left
    rw [takeNumber, List.append_assoc, List.append_assoc, again _ behindWhole]
    simp only [bind, Except.bind, again' _ behindFraction, again'' _ ends, inRange]
    rfl

/-- A number that can be read can be skimmed; only the range of its value is not looked at. -/
theorem skim_takeNumber {negative : Bool} {text rest : List Char} {numeral : Numeral}
    (taken : takeNumber .keep negative text = .ok (numeral, rest)) :
    takeNumber .skim negative text = .ok (numeral, rest) := by
  obtain ⟨⟨whole, behind⟩, wholeTaken, made⟩ := except_bind_eq_ok.mp taken
  obtain ⟨⟨fraction, behind'⟩, fractionTaken, made'⟩ := except_bind_eq_ok.mp made
  obtain ⟨⟨exponent, behind''⟩, exponentTaken, made''⟩ := except_bind_eq_ok.mp made'
  -- How each part is read does not depend on the care.
  have wholeSkimmed : takeWhole .skim text = .ok (whole, behind) :=
    takeWhole_eq_ok.mpr (takeWhole_eq_ok.mp wholeTaken)
  have fractionSkimmed : takeFraction .skim behind = .ok (fraction, behind') :=
    takeFraction_eq_ok.mpr (takeFraction_eq_ok.mp fractionTaken)
  have exponentSkimmed : takeExponent .skim behind' = .ok (exponent, behind'') :=
    takeExponent_eq_ok.mpr (takeExponent_eq_ok.mp exponentTaken)
  dsimp only at made''
  split at made''
  next => cases made''
  next =>
    cases made''
    rw [takeNumber, wholeSkimmed]
    simp only [bind, Except.bind, fractionSkimmed, exponentSkimmed]
    rfl

theorem takesTokens_takeNumber (negative : Bool) :
    TakesTokens (HeadIn EndsNumber) (takeNumber · negative) where
  ends := .nil _
  token care := local_takeNumber care negative
  skims taken := ⟨_, skim_takeNumber taken⟩

/-! ### Scalars -/

theorem takeName_eq_ok {name text rest : List Char} :
    takeName name text = .ok rest ↔ text = name ++ rest := by
  fun_induction takeName name text with
  | case1 => simp
  | case2 => simp
  | case3 wanted name text ih => simpa using ih
  | case4 wanted name c text other => simp [other]

/-- A character that may follow a name or a number. -/
def Delimits (c : Char) : Prop :=
  isSpace c = true ∨ c = ',' ∨ c = ']' ∨ c = '\x7d'

theorem Delimits.endsNumber {c : Char} (delimits : Delimits c) : EndsNumber c := by
  rcases delimits with blank | rfl | rfl | rfl
  · simp only [isSpace, Bool.or_eq_true, decide_eq_true_eq] at blank
    rcases blank with ((rfl | rfl) | rfl) | rfl <;> decide
  all_goals decide

theorem takesTokens_takeName (name : List Char) (value : Scalar) :
    TakesTokens (HeadIn Delimits) fun _ text => do
      let rest ← takeName name text
      return (value, rest) where
  ends := .nil _
  token _ := by
    intro text value' rest taken
    obtain ⟨rest', taken, made⟩ := except_bind_eq_ok.mp taken
    cases made
    -- A name is taken as it stands: nothing behind it is looked at.
    refine ⟨name, takeName_eq_ok.mp taken, fun rest' _ => ?_⟩
    simp only [takeName_eq_ok.mpr (rfl : name ++ rest' = _)]
    rfl
  skims taken := ⟨_, taken⟩

theorem takesTokens_error {α : Type} (fault : TextFault) :
    TakesTokens (HeadIn Delimits) fun _ _ => (.error fault : Except TextFault (α × List Char)) where
  ends := .nil _
  token _ := by
    intro text value rest taken
    cases taken
  skims := by
    intro text rest value taken
    cases taken

theorem takesTokens_readScalar (c : Char) :
    TakesTokens (HeadIn Delimits) fun care text => readScalar care c text := by
  have number (negative : Bool) := takesTokens_takeNumber negative
  have ends (rest : List Char) (delimited : HeadIn Delimits rest) : HeadIn EndsNumber rest :=
    delimited.mono fun _ => Delimits.endsNumber
  -- One case for each character that a scalar may begin with.
  by_cases isNull : c = 'n'
  · simp only [readScalar, if_pos isNull]
    exact takesTokens_takeName _ _
  by_cases isTrue : c = 't'
  · simp only [readScalar, if_neg isNull, if_pos isTrue]
    exact takesTokens_takeName _ _
  by_cases isFalse : c = 'f'
  · simp only [readScalar, if_neg isNull, if_neg isTrue, if_pos isFalse]
    exact takesTokens_takeName _ _
  by_cases isMinus : c = '-'
  · simp only [readScalar, if_neg isNull, if_neg isTrue, if_neg isFalse, if_pos isMinus]
    exact (number true).map Scalar.number (.nil _) ends
  by_cases isDigit : c.isDigit = true
  · simp only [readScalar, if_neg isNull, if_neg isTrue, if_neg isFalse, if_neg isMinus,
      if_pos isDigit]
    have unsigned := (number false).behind (fun _ _ _ _ => length_of_takeNumber) c
    exact unsigned.map Scalar.number (.nil _) ends
  by_cases isQuote : c = '\x22'
  · simp only [readScalar, if_neg isNull, if_neg isTrue, if_neg isFalse, if_neg isMinus,
      if_neg isDigit, if_pos isQuote]
    exact takesTokens_readString.map Scalar.string (HeadIn.nil _) fun _ _ => trivial
  · simp only [readScalar, if_neg isNull, if_neg isTrue, if_neg isFalse, if_neg isMinus,
      if_neg isDigit, if_neg isQuote]
    exact takesTokens_error .expectedValue

/-- A scalar begins neither with a blank nor with a bracket. -/
theorem head_of_readScalar {care : Care} {c : Char} {text rest : List Char} {scalar : Scalar}
    (read : readScalar care c text = .ok (scalar, rest)) :
    isSpace c = false ∧ c ≠ '[' ∧ c ≠ ']' ∧ c ≠ '\x7b' := by
  -- For each of the other characters the reader is evaluated.
  have wrong {c : Char} (none : readScalar care c text = .error .expectedValue) :
      ¬ readScalar care c text = .ok (scalar, rest) := by
    rw [none]
    exact nofun
  refine ⟨?_, ?_, ?_, ?_⟩
  · by_contra blank
    simp only [isSpace, Bool.or_eq_false_iff, decide_eq_false_iff_not, not_and_or, not_not] at blank
    rcases blank with ((rfl | rfl) | rfl) | rfl <;> exact wrong rfl read
  all_goals
    rintro rfl
    exact wrong rfl read

end Gleaner.Json
