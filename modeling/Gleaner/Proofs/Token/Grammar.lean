import Gleaner.Token.Pattern
import Mathlib.Data.List.Basic
import Mathlib.Tactic.Common

/-!
# The grammar of tokens

`TokenText` is the grammar of tokens in characters, and `Token.Fields` are the decisions that a
token makes, with their written form. Reading a token accepts the texts of the grammar and no
others, the decisions of a token give its text back, and every choice of decisions that the grammar
allows is read as such. So a text has at most one reading, although a literal may begin with
characters that are codes elsewhere.
-/

namespace Gleaner

/-- The flags of a token: a spacing flag and a capture mark, which may both be missing, and a
quantity code. -/
inductive FlagText : List Char → Prop where
  | mk {space mark : List Char} {quantity : Char} (spaces : space ∈ [[], ['o'], ['x']])
    (marks : mark ∈ [[], ['!']]) (quantities : quantity ∈ ['.', '+']) :
    FlagText (space ++ (mark ++ [quantity]))

/-- The texts that are tokens. -/
inductive TokenText : List Char → Prop where
  | optionalLine : TokenText ['?']
  | anything : TokenText ['~']
  | anythingKept : TokenText ['~', '!']
  | literal {flags text : List Char} (flagged : FlagText flags) (some : text ≠ []) :
    TokenText ('@' :: (flags ++ text))
  | misc {flags : List Char} (flagged : FlagText flags) : TokenText ('&' :: flags)
  | number {flags : List Char} {sign kind : Char} (flagged : FlagText flags)
    (signs : sign ∈ ['+', '-', '.']) (kinds : kind ∈ ['i', 'f', 's', 'd', 'g']) :
    TokenText ('#' :: (flags ++ [sign, kind]))

/-- The decisions of a token. -/
structure Token.Fields where
  content : Content
  capture : Bool
  quantity : Quantity
  spacing : Spacing
  number : Option (Sign × NumberKind)
  literal : Option (List Char)
deriving DecidableEq, Repr

namespace Token.Fields

/-- The choices of decisions that the grammar has a text for. -/
inductive Allowed : Fields → Prop where
  | optionalLine : Allowed ⟨.optionalLine, false, .single, .prohibited, none, none⟩
  | anything (capture : Bool) : Allowed ⟨.any, capture, .single, .prohibited, none, none⟩
  | literal (capture : Bool) (quantity : Quantity) (spacing : Spacing) {text : List Char}
    (some_ : text ≠ []) : Allowed ⟨.string, capture, quantity, spacing, none, some text⟩
  | misc (capture : Bool) (quantity : Quantity) (spacing : Spacing) :
    Allowed ⟨.misc, capture, quantity, spacing, none, none⟩
  | number (capture : Bool) (quantity : Quantity) (spacing : Spacing) (sign : Sign)
    (kind : NumberKind) : Allowed ⟨.number, capture, quantity, spacing, some (sign, kind), none⟩

/-- What follows the flags: a literal, or the codes of sign and kind. -/
def value (fields : Fields) : List Char :=
  match fields.literal, fields.number with
  | some text, _ => text
  | none, some (sign, kind) => [sign.code, kind.code]
  | none, none => []

/-- The written form of the decisions of a token, code by code in the order of the grammar. -/
def write (fields : Fields) : List Char :=
  let mark := if fields.capture then ['!'] else []
  match fields.content with
  | .optionalLine => [Content.optionalLine.marker]
  | .any => Content.any.marker :: mark
  | content =>
    content.marker ::
      (fields.spacing.flag?.toList ++ mark ++ [fields.quantity.code] ++ fields.value)

end Token.Fields

def Token.fields (token : Token) : Fields :=
  ⟨token.content, token.capture, token.quantity, token.spacing, token.number?, token.literal?⟩

/-! ### Codes -/

/-- A choice is found by its code, if all choices are looked through and no two have one code. -/
theorem find?_code_eq_some {α β : Type} [DecidableEq β] {all : List α} {code : α → β}
    (complete : ∀ choice, choice ∈ all) (injective : Function.Injective code) {given : β}
    {choice : α} :
    all.find? (fun other => code other = given) = some choice ↔ code choice = given := by
  constructor
  · intro found
    simpa using List.find?_some found
  · rintro rfl
    -- The search ends at some choice with this code, which is the one.
    cases found : all.find? (fun other => code other = code choice) with
    | none =>
      have missed := List.find?_eq_none.mp found choice (complete choice)
      simp at missed
    | some other => exact congrArg some (injective (by simpa using List.find?_some found))

theorem Content.mem_all (content : Content) : content ∈ all := by
  cases content <;> decide

theorem Content.ofMarker?_eq_some {c : Char} {content : Content} :
    ofMarker? c = some content ↔ content.marker = c := by
  refine find?_code_eq_some mem_all fun first second same => ?_
  cases first <;> cases second <;> simp_all [marker]

theorem Quantity.mem_all (quantity : Quantity) : quantity ∈ all := by
  cases quantity <;> decide

theorem Quantity.ofCode?_eq_some {c : Char} {quantity : Quantity} :
    ofCode? c = some quantity ↔ quantity.code = c := by
  refine find?_code_eq_some mem_all fun first second same => ?_
  cases first <;> cases second <;> simp_all [code]

theorem Spacing.mem_all (spacing : Spacing) : spacing ∈ all := by
  cases spacing <;> decide

theorem Spacing.ofFlag?_eq_some {c : Char} {spacing : Spacing} :
    ofFlag? c = some spacing ↔ spacing.flag? = some c := by
  refine find?_code_eq_some mem_all fun first second same => ?_
  cases first <;> cases second <;> simp_all [flag?]

theorem Sign.mem_all (sign : Sign) : sign ∈ all := by
  cases sign <;> decide

theorem Sign.ofCode?_eq_some {c : Char} {sign : Sign} : ofCode? c = some sign ↔ sign.code = c := by
  refine find?_code_eq_some mem_all fun first second same => ?_
  cases first <;> cases second <;> simp_all [code]

theorem NumberKind.mem_all (kind : NumberKind) : kind ∈ all := by
  cases kind <;> decide

theorem NumberKind.ofCode?_eq_some {c : Char} {kind : NumberKind} :
    ofCode? c = some kind ↔ kind.code = c := by
  refine find?_code_eq_some mem_all fun first second same => ?_
  cases first <;> cases second <;> simp_all [code]

/-- Among the codes of all choices there are those of the choices and no others. -/
theorem mem_codes {α β : Type} {all : List α} (complete : ∀ choice, choice ∈ all) (code : α → β)
    {given : β} : given ∈ all.map code ↔ ∃ choice, code choice = given := by
  rw [List.mem_map]
  exact exists_congr fun choice => and_iff_right (complete choice)

theorem Spacing.mem_flags {space : List Char} :
    space ∈ [[], ['o'], ['x']] ↔ ∃ spacing : Spacing, spacing.flag?.toList = space :=
  mem_codes mem_all fun spacing => spacing.flag?.toList

theorem mem_captureMarks {mark : List Char} :
    mark ∈ [[], ['!']] ↔ ∃ capture : Bool, (if capture then [captureMark] else []) = mark :=
  mem_codes (by decide : ∀ capture, capture ∈ [false, true]) fun capture =>
    if capture then [captureMark] else []

theorem Quantity.mem_codes {c : Char} : c ∈ ['.', '+'] ↔ ∃ quantity : Quantity, quantity.code = c :=
  Gleaner.mem_codes mem_all code

theorem Sign.mem_codes {c : Char} : c ∈ ['+', '-', '.'] ↔ ∃ sign : Sign, sign.code = c :=
  Gleaner.mem_codes mem_all code

theorem NumberKind.mem_codes {c : Char} :
    c ∈ ['i', 'f', 's', 'd', 'g'] ↔ ∃ kind : NumberKind, kind.code = c :=
  Gleaner.mem_codes mem_all code

/-! ### Flags -/

namespace Flags

theorem takeSpacing_spell (text : List Char) :
    (takeSpacing text).1.flag?.toList ++ (takeSpacing text).2 = text := by
  cases text with
  | nil => rfl
  | cons c rest =>
    rw [takeSpacing]
    split
    next spacing found => simp [Spacing.ofFlag?_eq_some.mp found]
    next => rfl

theorem takeCapture_spell (text : List Char) :
    (if (takeCapture text).1 then [captureMark] else []) ++ (takeCapture text).2 = text := by
  cases text with
  | nil => rfl
  | cons c rest =>
    rw [takeCapture]
    split
    next mark => simp [mark]
    next => rfl

theorem decode_spell (flags : Flags) (rest : List Char) :
    decode (flags.spell ++ rest) = some (flags, rest) := by
  obtain ⟨spacing, capture, quantity⟩ := flags
  cases spacing <;> cases capture <;> cases quantity <;> rfl

/-- Flags are read from their written form and from no other text. -/
theorem decode_eq_some {text rest : List Char} {flags : Flags} :
    decode text = some (flags, rest) ↔ text = flags.spell ++ rest := by
  constructor
  · intro decoded
    -- What was taken off in front, put together again, is the text.
    have spaced := takeSpacing_spell text
    have marked := takeCapture_spell (takeSpacing text).2
    simp only [decode] at decoded
    split at decoded
    next => cases decoded
    next c rest' behind =>
      obtain ⟨quantity, found, made⟩ := Option.map_eq_some_iff.mp decoded
      cases made
      rw [behind] at marked
      rw [← marked] at spaced
      refine spaced.symm.trans ?_
      simp [spell, Quantity.ofCode?_eq_some.mp found]
  · rintro rfl
    exact decode_spell flags rest

/-- The written forms of flags are the flags of the grammar. -/
theorem exists_spell_iff {text : List Char} :
    (∃ flags : Flags, flags.spell = text) ↔ FlagText text := by
  constructor
  · rintro ⟨⟨spacing, capture, quantity⟩, rfl⟩
    rw [spell, List.append_assoc]
    exact .mk (Spacing.mem_flags.mpr ⟨spacing, rfl⟩) (mem_captureMarks.mpr ⟨capture, rfl⟩)
      (Quantity.mem_codes.mpr ⟨quantity, rfl⟩)
  -- Each part of the grammar is the code of a choice.
  · rintro ⟨spaces, marks, quantities⟩
    obtain ⟨spacing, rfl⟩ := Spacing.mem_flags.mp spaces
    obtain ⟨capture, rfl⟩ := mem_captureMarks.mp marks
    obtain ⟨quantity, rfl⟩ := Quantity.mem_codes.mp quantities
    exact ⟨⟨spacing, capture, quantity⟩, List.append_assoc _ _ _⟩

end Flags

namespace Token

/-! ### Tokens -/

theorem decode_spell (token : Token) : decode token.spell = some token := by
  have marked : ∀ content : Content, Content.ofMarker? content.marker = some content := fun _ =>
    Content.ofMarker?_eq_some.mpr rfl
  -- One case for each form of a token; the marker tells them apart.
  cases token with
  | optionalLine => rfl
  | anything capture => cases capture <;> rfl
  | literal flags first rest =>
    simp only [spell, List.cons_append, decode, marked]
    simp only [Flags.decode_spell, decodeValue]
  | misc flags =>
    have decoded := Flags.decode_spell flags []
    rw [List.append_nil] at decoded
    simp only [spell, decode, marked]
    simp only [decoded, decodeValue, if_true]
  | number flags sign kind =>
    simp only [spell, List.cons_append, decode, marked]
    simp only [Flags.decode_spell, decodeValue, Sign.ofCode?_eq_some.mpr rfl,
      NumberKind.ofCode?_eq_some.mpr rfl]

theorem spell_of_decodeValue {content : Content} {flags : Flags} {value : List Char} {token : Token}
    (decoded : decodeValue content flags value = some token) :
    token.spell = content.marker :: (flags.spell ++ value) := by
  unfold decodeValue at decoded
  split at decoded
  -- Nothing follows the flags of a word of any content.
  next =>
    split at decoded
    next isMisc =>
      cases decoded
      rw [spell, isMisc, List.append_nil]
    next => cases decoded
  -- A literal takes all that follows; a number takes two codes.
  next first rest =>
    split at decoded
    next =>
      cases decoded
      rfl
    next kind =>
      split at decoded
      next sign_ kind_ sign_found kind_found =>
        cases decoded
        rw [spell, Sign.ofCode?_eq_some.mp sign_found, NumberKind.ofCode?_eq_some.mp kind_found]
        rfl
      next => cases decoded
    next => cases decoded

theorem spell_of_decode {text : List Char} {token : Token} (decoded : decode text = some token) :
    token.spell = text := by
  unfold decode at decoded
  split at decoded
  next => cases decoded
  next c rest =>
    split at decoded
    next => cases decoded
    -- The mark of an optional line stands alone.
    next found =>
      split at decoded
      next empty =>
        cases decoded
        rw [spell, Content.ofMarker?_eq_some.mp found, List.isEmpty_iff.mp empty]
      next => cases decoded
    -- Any content, with or without the capture mark.
    next found =>
      have marker := Content.ofMarker?_eq_some.mp found
      split at decoded
      next =>
        cases decoded
        rw [spell, marker]
        rfl
      next mark =>
        split at decoded
        next isMark =>
          cases decoded
          rw [spell, marker, isMark]
          rfl
        next => cases decoded
      next => cases decoded
    -- All other contents have flags, and perhaps a value behind them.
    next content _ _ found =>
      split at decoded
      next flags value flagged =>
        rw [← Content.ofMarker?_eq_some.mp found, Flags.decode_eq_some.mp flagged]
        exact spell_of_decodeValue decoded
      next => cases decoded

/-- A token is read from its written form and from no other text. -/
theorem decode_eq_some {text : List Char} {token : Token} :
    decode text = some token ↔ token.spell = text := by
  constructor
  · exact spell_of_decode
  · rintro rfl
    exact decode_spell token

/-- The written forms of tokens are the texts of the grammar. -/
theorem exists_spell_iff {text : List Char} :
    (∃ token : Token, token.spell = text) ↔ TokenText text := by
  have flagged (flags : Flags) : FlagText flags.spell := Flags.exists_spell_iff.mp ⟨flags, rfl⟩
  constructor
  · rintro ⟨token, rfl⟩
    cases token with
    | optionalLine => exact .optionalLine
    | anything capture =>
      cases capture with
      | false => exact .anything
      | true => exact .anythingKept
    | literal flags first rest => exact .literal (flagged flags) (List.cons_ne_nil first rest)
    | misc flags => exact .misc (flagged flags)
    | number flags sign kind =>
      exact .number (flagged flags) (Sign.mem_codes.mpr ⟨sign, rfl⟩)
        (NumberKind.mem_codes.mpr ⟨kind, rfl⟩)
  · intro inGrammar
    cases inGrammar with
    | optionalLine => exact ⟨.optionalLine, rfl⟩
    | anything => exact ⟨.anything false, rfl⟩
    | anythingKept => exact ⟨.anything true, rfl⟩
    | literal flagged some =>
      obtain ⟨flags, rfl⟩ := Flags.exists_spell_iff.mpr flagged
      obtain ⟨first, rest, rfl⟩ := List.exists_cons_of_ne_nil some
      exact ⟨.literal flags first rest, rfl⟩
    | misc flagged =>
      obtain ⟨flags, rfl⟩ := Flags.exists_spell_iff.mpr flagged
      exact ⟨.misc flags, rfl⟩
    | number flagged signs kinds =>
      obtain ⟨flags, rfl⟩ := Flags.exists_spell_iff.mpr flagged
      obtain ⟨sign, rfl⟩ := Sign.mem_codes.mp signs
      obtain ⟨kind, rfl⟩ := NumberKind.mem_codes.mp kinds
      exact ⟨.number flags sign kind, rfl⟩

theorem parse_eq_ok {text : String} {token : Token} :
    parse text = .ok token ↔ token.spell = text.toList := by
  rw [← decode_eq_some, parse]
  cases decode text.toList <;> simp

theorem exists_parse_iff {text : String} :
    (∃ token, parse text = .ok token) ↔ TokenText text.toList := by
  simp only [parse_eq_ok, exists_spell_iff]

theorem isSome_decode_iff {text : List Char} : (decode text).isSome = true ↔ TokenText text := by
  simp only [Option.isSome_iff_exists, decode_eq_some, exists_spell_iff]

instance (text : List Char) : Decidable (TokenText text) :=
  decidable_of_iff _ isSome_decode_iff

/-! ### Decisions -/

theorem write_fields (token : Token) : token.fields.write = token.spell := by
  cases token with
  | optionalLine => rfl
  | anything => rfl
  | literal => rfl
  | misc => exact congrArg _ (List.append_nil _)
  | number => rfl

theorem fields_allowed (token : Token) : token.fields.Allowed := by
  cases token with
  | optionalLine => exact .optionalLine
  | anything capture => exact .anything capture
  | literal flags first rest => exact .literal _ _ _ (List.cons_ne_nil first rest)
  | misc flags => exact .misc _ _ _
  | number flags sign kind => exact .number _ _ _ sign kind

theorem exists_fields {fields : Fields} (allowed : fields.Allowed) :
    ∃ token : Token, token.fields = fields := by
  cases allowed with
  | optionalLine => exact ⟨.optionalLine, rfl⟩
  | anything capture => exact ⟨.anything capture, rfl⟩
  | literal capture quantity spacing some_ =>
    obtain ⟨first, rest, rfl⟩ := List.exists_cons_of_ne_nil some_
    exact ⟨.literal ⟨spacing, capture, quantity⟩ first rest, rfl⟩
  | misc capture quantity spacing => exact ⟨.misc ⟨spacing, capture, quantity⟩, rfl⟩
  | number capture quantity spacing sign kind =>
    exact ⟨.number ⟨spacing, capture, quantity⟩ sign kind, rfl⟩

/-- A text is read as a token exactly if it is in the grammar. The decisions of the token that was
read give the text back, and what the grammar allows is read from its written form; a text that is
not read is reported as it is. Whether captures are allowed matters only to the group of the token. -/
theorem parse_accepts_grammar (text : String) :
    ((∃ token, parse text = .ok token) ↔ TokenText text.toList) ∧
    (∀ token, parse text = .ok token →
      token.fields.Allowed ∧ String.ofList token.fields.write = text) ∧
    (∀ fault, parse text = .error fault → fault = .badToken text none) ∧
    (∀ fields : Fields, fields.Allowed →
      ∃ token, parse (String.ofList fields.write) = .ok token ∧ token.fields = fields) ∧
    ∀ (token : Token) (allowCapture : Bool) (next : Nat),
      token.needsGroup allowCapture = (token.capture && allowCapture) ∧
        placeTokens allowCapture next [token] =
          [⟨token, if token.capture && allowCapture then some next else none⟩] := by
  refine ⟨exists_parse_iff, fun token parsed => ⟨token.fields_allowed, ?_⟩, fun fault refused => ?_,
    fun fields allowed => ?_, fun token allowCapture next => ⟨rfl, ?_⟩⟩
  -- The fields are written as the token is spelled.
  · rw [write_fields, parse_eq_ok.mp parsed, String.ofList_toList]
  -- There is only one fault, and it has no location.
  · rw [parse] at refused
    split at refused
    · cases refused
    · cases refused
      rfl
  · obtain ⟨token, rfl⟩ := exists_fields allowed
    refine ⟨token, parse_eq_ok.mpr ?_, rfl⟩
    rw [String.toList_ofList, write_fields]
  · rw [placeTokens, needsGroup]
    split <;> simp_all [placeTokens]

end Token

end Gleaner
