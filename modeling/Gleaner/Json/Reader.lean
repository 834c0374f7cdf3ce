import Gleaner.Text.Place
import Gleaner.Json.Basic
import Gleaner.Json.Numeral

/-!
# Reading JSON

A reader takes a value off the front of a text and returns what follows it. The first character
that fits no JSON text ends the reading with a fault that says what was expected there.

A value that nobody will look at is skimmed: its brackets, strings and numbers are followed, but
strings are not decoded, numbers not evaluated, and nesting is not limited. As a skimmed value is
read by other rules, some faults in it are named differently.

Reading goes down by a number of steps computed from the length of the text. Of any two nested
steps one takes a character, so `2 * length + 2` of them are always enough.
-/

namespace Gleaner.Json

/-- What is wrong with a JSON text. -/
inductive TextFault where
  | endInValue
  | endInList
  | endInObject
  | endInString
  | expectedColon
  | expectedListEnd
  | expectedObjectEnd
  | expectedIdent
  | expectedValue
  | invalidEscape
  | invalidNumber
  | numberOutOfRange
  | controlCharacter
  | keyNotString
  | loneSurrogate
  | halfSurrogate
  | trailingComma
  | trailingText
  | tooDeep
deriving DecidableEq, Repr, Inhabited

def TextFault.message : TextFault → String
  | endInValue => "EOF while parsing a value"
  | endInList => "EOF while parsing a list"
  | endInObject => "EOF while parsing an object"
  | endInString => "EOF while parsing a string"
  | expectedColon => "expected `:`"
  | expectedListEnd => "expected `,` or `]`"
  | expectedObjectEnd => "expected `,` or `\x7d`"
  | expectedIdent => "expected ident"
  | expectedValue => "expected value"
  | invalidEscape => "invalid escape"
  | invalidNumber => "invalid number"
  | numberOutOfRange => "number out of range"
  | controlCharacter => "control character (\\u0000-\\u001F) found while parsing a string"
  | keyNotString => "key must be a string"
  | loneSurrogate => "lone leading surrogate in hex escape"
  | halfSurrogate => "unexpected end of hex escape"
  | trailingComma => "trailing comma"
  | trailingText => "trailing characters"
  | tooDeep => "recursion limit exceeded"

/-- Whether a value is read for its content. -/
inductive Care where
  | keep
  | skim
deriving DecidableEq, Repr, Inhabited

def isSpace (c : Char) : Bool :=
  c = ' ' || c = '\n' || c = '\t' || c = '\r'

/-- A text without the blanks in front of it. -/
def skipSpace (text : List Char) : List Char :=
  text.dropWhile isSpace

/-- Takes the rest of a name such as `null` off a text. -/
def takeName : List Char → List Char → Except TextFault (List Char)
  | [], text => .ok text
  | _ :: _, [] => .error .endInValue
  | wanted :: rest, c :: text => if c = wanted then takeName rest text else .error .expectedIdent

/-! ### Strings -/

def hexValue? (c : Char) : Option Nat :=
  if '0' ≤ c && c ≤ '9' then some (c.toNat - '0'.toNat)
  else if 'a' ≤ c && c ≤ 'f' then some (c.toNat - 'a'.toNat + 10)
  else if 'A' ≤ c && c ≤ 'F' then some (c.toNat - 'A'.toNat + 10)
  else none

/-- The number that four hexadecimal digits stand for. A text is too short if it has fewer than
four bytes left. -/
def takeHex (text : List Char) : Except TextFault (Nat × List Char) :=
  match text with
  | a :: b :: c :: d :: rest =>
    match hexValue? a, hexValue? b, hexValue? c, hexValue? d with
    | some a, some b, some c, some d => .ok (((a * 16 + b) * 16 + c) * 16 + d, rest)
    | _, _, _, _ => .error .invalidEscape
  -- The bytes are counted, not the characters.
  | _ => .error (if byteLength text < 4 then .endInString else .invalidEscape)

/-- The second half of a surrogate pair whose first half is `high`. -/
def takeLow (high : Nat) : List Char → Except TextFault (Char × List Char)
  | [] => .error .endInString
  | ['\\'] => .error .endInString
  | '\\' :: 'u' :: rest => do
    let (low, rest) ← takeHex rest
    if low < 0xDC00 || 0xDFFF < low then .error .loneSurrogate
    -- Each half carries ten bits of what lies beyond the basic plane.
    else .ok (Char.ofNat ((high - 0xD800) * 1024 + (low - 0xDC00) + 0x10000), rest)
  | _ => .error .halfSurrogate

/-- The character that an escape stands for, read behind its backslash. -/
def takeEscape (care : Care) : List Char → Except TextFault (Char × List Char)
  | [] => .error .endInString
  | c :: rest =>
    if c = 'u' then do
      let (unit, rest) ← takeHex rest
      -- Skimming does not pair surrogates: each half is an escape of its own.
      if care = .skim then .ok (' ', rest)
      else if 0xDC00 ≤ unit && unit ≤ 0xDFFF then .error .loneSurrogate
      else if 0xD800 ≤ unit && unit ≤ 0xDBFF then takeLow unit rest
      else .ok (Char.ofNat unit, rest)
    else if c = '\x22' || c = '\\' || c = '/' then .ok (c, rest)
    else if c = 'b' then .ok ('\x08', rest)
    else if c = 'f' then .ok ('\x0c', rest)
    else if c = 'n' then .ok ('\n', rest)
    else if c = 'r' then .ok ('\r', rest)
    else if c = 't' then .ok ('\t', rest)
    else .error .invalidEscape

private theorem takeHex_length {text rest : List Char} {unit : Nat}
    (taken : takeHex text = .ok (unit, rest)) : rest.length < text.length := by
  unfold takeHex at taken
  split at taken
  next a b c d after =>
    split at taken
    next => cases taken; simp only [List.length_cons]; omega
    next => cases taken
  next => cases taken

private theorem takeLow_length {high : Nat} {text rest : List Char} {c : Char}
    (taken : takeLow high text = .ok (c, rest)) : rest.length < text.length := by
  unfold takeLow at taken
  split at taken
  next => cases taken
  next => cases taken
  next behind =>
    cases hex : takeHex behind with
    | error fault => rw [hex] at taken; cases taken
    | ok read =>
      have shorter := takeHex_length hex
      rw [hex] at taken
      simp only [bind, Except.bind] at taken
      split at taken
      next => cases taken
      next =>
        obtain ⟨_, rest_eq⟩ := Prod.mk.inj (Except.ok.inj taken)
        rw [← rest_eq]
        exact Nat.lt_succ_of_lt (Nat.lt_succ_of_lt shorter)
  next => cases taken

theorem takeEscape_length {care : Care} {text rest : List Char} {c : Char}
    (taken : takeEscape care text = .ok (c, rest)) : rest.length < text.length := by
  unfold takeEscape at taken
  split at taken
  next => cases taken
  next letter behind =>
    split at taken
    next =>
      cases hex : takeHex behind with
      | error fault => rw [hex] at taken; cases taken
      | ok read =>
        have shorter := takeHex_length hex
        rw [hex] at taken
        simp only [bind, Except.bind] at taken
        split at taken
        next => cases taken; exact Nat.lt_succ_of_lt shorter
        next =>
          split at taken
          next => cases taken
          next =>
            split at taken
            -- Two escapes were taken for this one character.
            next => exact Nat.lt_succ_of_lt (Nat.lt_trans (takeLow_length taken) shorter)
            next => cases taken; exact Nat.lt_succ_of_lt shorter
    next =>
      repeat' split at taken
      all_goals
        cases taken
        try exact Nat.lt_succ_self _

/-- The rest of a string whose characters so far are `found`, last first. -/
def takeString (care : Care) (found text : List Char) : Except TextFault (String × List Char) :=
  match text with
  | [] => .error .endInString
  | c :: rest =>
    if c = '\x22' then .ok (String.ofList found.reverse, rest)
    else if c = '\\' then
      match _taken : takeEscape care rest with
      | .error fault => .error fault
      | .ok (escaped, after) => takeString care (escaped :: found) after
    else if c.toNat < 0x20 then .error .controlCharacter
    else takeString care (c :: found) rest
termination_by text.length
decreasing_by
  · exact Nat.lt_succ_of_lt (takeEscape_length _taken)
  · exact Nat.lt_succ_self _

/-- A string, read behind its opening quote. -/
def readString (care : Care) (text : List Char) : Except TextFault (String × List Char) :=
  takeString care [] text

/-! ### Numbers -/

/-- The decimal digits in front of a text, and what follows them. -/
def takeDigits (text : List Char) : List Char × List Char :=
  (text.takeWhile Char.isDigit, text.dropWhile Char.isDigit)

/-- The fault of a number that breaks off before a digit it needs. -/
def brokenNumber (care : Care) (rest : List Char) : TextFault :=
  if care = .keep && rest.isEmpty then .endInValue else .invalidNumber

/-- The digits before the point: no digit follows a zero in front. -/
def takeWhole (care : Care) (text : List Char) : Except TextFault (List Char × List Char) :=
  let (digits, rest) := takeDigits text
  match digits with
  | [] => .error (brokenNumber care rest)
  | '0' :: _ :: _ => .error .invalidNumber
  | _ => .ok (digits, rest)

def takeFraction (care : Care) (text : List Char) :
    Except TextFault (Option (List Char) × List Char) :=
  match text with
  | '.' :: rest =>
    let (digits, rest) := takeDigits rest
    if digits.isEmpty then .error (brokenNumber care rest) else .ok (some digits, rest)
  | _ => .ok (none, text)

def takeExponent (care : Care) (text : List Char) :
    Except TextFault (Option (List Char × List Char) × List Char) :=
  match text with
  | c :: rest =>
    if c = 'e' || c = 'E' then
      let (sign, rest) :=
        match rest with
        | '+' :: rest => (['+'], rest)
        | '-' :: rest => (['-'], rest)
        | _ => ([], rest)
      let (digits, rest) := takeDigits rest
      if digits.isEmpty then .error (brokenNumber care rest) else .ok (some (sign, digits), rest)
    else .ok (none, text)
  | [] => .ok (none, text)

/-- A number, read behind its sign. -/
def takeNumber (care : Care) (negative : Bool) (text : List Char) :
    Except TextFault (Numeral × List Char) := do
  let (whole, rest) ← takeWhole care text
  let (fraction, rest) ← takeFraction care rest
  let (exponent, rest) ← takeExponent care rest
  let numeral : Numeral := ⟨negative, whole, fraction, exponent⟩
  -- Skimming does not compute the number, so it cannot find it too large.
  if care = .keep && numeral.double?.isNone then .error .numberOutOfRange else .ok (numeral, rest)

/-! ### Values -/

/-- A value that is neither an array nor an object. -/
inductive Scalar where
  | null
  | bool (value : Bool)
  | number (numeral : Numeral)
  | string (value : String)
deriving DecidableEq, Repr, Inhabited

def Scalar.toJson : Scalar → Json
  | null => .null
  | bool value => .bool value
  | number numeral => .number (String.ofList numeral.literal)
  | string value => .string value

/-- A scalar that begins with `c`. -/
def readScalar (care : Care) (c : Char) (rest : List Char) :
    Except TextFault (Scalar × List Char) :=
  if c = 'n' then do
    let rest ← takeName ['u', 'l', 'l'] rest
    return (.null, rest)
  else if c = 't' then do
    let rest ← takeName ['r', 'u', 'e'] rest
    return (.bool true, rest)
  else if c = 'f' then do
    let rest ← takeName ['a', 'l', 's', 'e'] rest
    return (.bool false, rest)
  else if c = '-' then do
    let (numeral, rest) ← takeNumber care true rest
    return (.number numeral, rest)
  else if c.isDigit then do
    let (numeral, rest) ← takeNumber care false (c :: rest)
    return (.number numeral, rest)
  else if c = '\x22' then do
    let (value, rest) ← readString care rest
    return (.string value, rest)
  else .error .expectedValue

/-- Goes on to the next item of an array, behind a comma unless the item is the `first`. Without
an item the array ends. -/
def nextItem (care : Care) (first : Bool) (text : List Char) :
    Except TextFault (Bool × List Char) :=
  match skipSpace text with
  | [] => .error .endInList
  | ']' :: rest => .ok (false, rest)
  | c :: rest =>
    if first then .ok (true, c :: rest)
    else if c = ',' then
      match care, skipSpace rest with
      -- Skimming leaves a bracket behind a comma to the reader of values.
      | .keep, [] => .error .endInValue
      | .keep, ']' :: _ => .error .trailingComma
      | _, rest => .ok (true, rest)
    else .error .expectedListEnd

/-- Goes on to the next member of an object, up to behind the quote that opens its key. Without
a member the object ends. -/
def nextMember (care : Care) (first : Bool) (text : List Char) :
    Except TextFault (Bool × List Char) :=
  match skipSpace text with
  | [] => .error .endInObject
  | '\x7d' :: rest => .ok (false, rest)
  | c :: rest =>
    if first then if c = '\x22' then .ok (true, rest) else .error .keyNotString
    else if c = ',' then
      match care, skipSpace rest with
      -- A quote opens the next key; anything else has its own fault.
      | _, '\x22' :: rest => .ok (true, rest)
      | .keep, [] => .error .endInValue
      | .skim, [] => .error .endInObject
      | .keep, '\x7d' :: _ => .error .trailingComma
      | _, _ => .error .keyNotString
    else .error .expectedObjectEnd

/-- Takes the colon between a key and its value off a text. -/
def takeColon (text : List Char) : Except TextFault (List Char) :=
  match skipSpace text with
  | [] => .error .endInObject
  | c :: rest => if c = ':' then .ok rest else .error .expectedColon

mutual

/-- The value in front of a text, in which at most `depth` arrays and objects may enclose each
other. -/
def readValue (care : Care) : Nat → Nat → List Char → Except TextFault (Json × List Char)
  | 0, _, _ => .error .tooDeep
  | steps + 1, depth, text =>
    match skipSpace text with
    | [] => .error .endInValue
    | c :: rest =>
      if c = '[' then
        match care, depth with
        -- Only what is kept has a limit; `depth - 1` does not matter to skimming.
        | .keep, 0 => .error .tooDeep
        | _, depth => readItems care steps (depth - 1) true [] rest
      else if c = '\x7b' then
        match care, depth with
        | .keep, 0 => .error .tooDeep
        | _, depth => readMembers care steps (depth - 1) true [] rest
      else do
        let (scalar, rest) ← readScalar care c rest
        return (scalar.toJson, rest)

/-- The rest of an array whose items so far are `found`, last first. -/
def readItems (care : Care) :
    Nat → Nat → Bool → List Json → List Char → Except TextFault (Json × List Char)
  | 0, _, _, _, _ => .error .tooDeep
  | steps + 1, depth, first, found, text => do
    let (more, rest) ← nextItem care first text
    if more then do
      let (item, rest) ← readValue care steps depth rest
      readItems care steps depth false (item :: found) rest
    else return (.array found.reverse, rest)

/-- The rest of an object whose members so far are `found`, last first. -/
def readMembers (care : Care) :
    Nat → Nat → Bool → List (String × Json) → List Char → Except TextFault (Json × List Char)
  | 0, _, _, _, _ => .error .tooDeep
  | steps + 1, depth, first, found, text => do
    let (more, rest) ← nextMember care first text
    if more then do
      let (key, rest) ← readString care rest
      let rest ← takeColon rest
      let (value, rest) ← readValue care steps depth rest
      readMembers care steps depth false ((key, value) :: found) rest
    else return (.object found.reverse, rest)

end

/-- Steps that are enough to read any value in front of a text. -/
def enoughSteps (text : List Char) : Nat :=
  2 * text.length + 2

/-- The value in front of a text. -/
def read (depth : Nat) (text : List Char) : Except TextFault (Json × List Char) :=
  readValue .keep (enoughSteps text) depth text

/-- What follows the value in front of a text. -/
def skim (text : List Char) : Except TextFault (List Char) :=
  (readValue .skim (enoughSteps text) 0 text).map Prod.snd

/-- Only blanks are left. -/
def endOfText (text : List Char) : Except TextFault Unit :=
  if (skipSpace text).isEmpty then .ok () else .error .trailingText

/-- The value that a whole text stands for, with any nesting. -/
def parse (text : String) : Except TextFault Json := do
  let (json, rest) ← read text.toList.length text.toList
  endOfText rest
  return json

end Gleaner.Json
