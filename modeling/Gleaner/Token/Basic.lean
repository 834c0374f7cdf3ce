import Gleaner.Fault
import Gleaner.Token.Codes

/-!
# Tokens

A token is one word of a line of a description. Its written form is

* `?` for the mark of an optional line;
* `~` or `~!` for any content;
* `@`, flags and a literal text;
* `&` and flags;
* `#`, flags, a sign code and a kind code;

where the flags are an optional spacing flag, an optional capture mark and a quantity code.
`Token.spell` writes this form and `Token.decode` reads it.
-/

namespace Gleaner

/-- The mark of a token whose match is kept. -/
def captureMark : Char := '!'

/-- The choices that string, misc and number tokens have in common. -/
structure Flags where
  spacing : Spacing
  capture : Bool
  quantity : Quantity
deriving DecidableEq, Repr, Inhabited

/-- One word of a line. The text of a literal is never empty. -/
inductive Token where
  | optionalLine
  | anything (capture : Bool)
  | literal (flags : Flags) (first : Char) (rest : List Char)
  | misc (flags : Flags)
  | number (flags : Flags) (sign : Sign) (kind : NumberKind)
deriving DecidableEq, Repr, Inhabited

namespace Flags

def spell (flags : Flags) : List Char :=
  flags.spacing.flag?.toList ++ (if flags.capture then [captureMark] else [])
    ++ [flags.quantity.code]

/-- An optional spacing flag, and what follows it. -/
def takeSpacing : List Char → Spacing × List Char
  | [] => (.required, [])
  | c :: rest =>
    match Spacing.ofFlag? c with
    | some spacing => (spacing, rest)
    | none => (.required, c :: rest)

/-- An optional capture mark, and what follows it. -/
def takeCapture : List Char → Bool × List Char
  | [] => (false, [])
  | c :: rest => if c = captureMark then (true, rest) else (false, c :: rest)

/-- The flags that a text begins with, and what follows them. -/
def decode (text : List Char) : Option (Flags × List Char) :=
  let (spacing, text) := takeSpacing text
  let (capture, text) := takeCapture text
  match text with
  | [] => none
  | c :: rest => (Quantity.ofCode? c).map fun quantity => (⟨spacing, capture, quantity⟩, rest)

end Flags

namespace Token

def spell : Token → List Char
  | optionalLine => [Content.optionalLine.marker]
  | anything capture => Content.any.marker :: if capture then [captureMark] else []
  | literal flags first rest => Content.string.marker :: flags.spell ++ first :: rest
  | misc flags => Content.misc.marker :: flags.spell
  | number flags sign kind => Content.number.marker :: flags.spell ++ [sign.code, kind.code]

/-- What follows the flags of a token, given its content. -/
def decodeValue (content : Content) (flags : Flags) : List Char → Option Token
  | [] => if content = .misc then some (misc flags) else none
  | first :: rest =>
    match content, rest with
    | .string, _ => some (literal flags first rest)
    | .number, [kind] =>
      match Sign.ofCode? first, NumberKind.ofCode? kind with
      | some sign, some kind => some (number flags sign kind)
      | _, _ => none
    | _, _ => none

/-- The token that a text spells. -/
def decode : List Char → Option Token
  | [] => none
  | c :: rest =>
    match Content.ofMarker? c with
    | none => none
    | some .optionalLine => if rest.isEmpty then some optionalLine else none
    | some .any =>
      match rest with
      | [] => some (anything false)
      | [mark] => if mark = captureMark then some (anything true) else none
      | _ => none
    | some content =>
      match Flags.decode rest with
      | some (flags, value) => decodeValue content flags value
      | none => none

/-- The token that a text spells, or the fault of a text that spells none. -/
def parse (text : String) : Except Fault Token :=
  match decode text.toList with
  | some token => .ok token
  | none => .error (.badToken text none)

def content : Token → Content
  | optionalLine => .optionalLine
  | anything _ => .any
  | literal _ _ _ => .string
  | misc _ => .misc
  | number _ _ _ => .number

/-- The flags of a token that has any. -/
def flags? : Token → Option Flags
  | literal flags _ _ | misc flags | number flags _ _ => some flags
  | optionalLine | anything _ => none

def capture : Token → Bool
  | anything capture => capture
  | token => token.flags?.any Flags.capture

def quantity (token : Token) : Quantity :=
  (token.flags?.map Flags.quantity).getD .single

/-- A token without flags asks for no gap of its own. -/
def spacing (token : Token) : Spacing :=
  (token.flags?.map Flags.spacing).getD .prohibited

def number? : Token → Option (Sign × NumberKind)
  | number _ sign kind => some (sign, kind)
  | _ => none

def literal? : Token → Option (List Char)
  | literal _ first rest => some (first :: rest)
  | _ => none

def isOptionalLine (token : Token) : Bool :=
  token.content = .optionalLine

/-- Numerals are matched as whole words. -/
def isWordBounded (token : Token) : Bool :=
  token.content = .number

/-- Whether the next token is glued to this one, so that no word boundary lies between them. -/
def joinsNext (token : Token) : Bool :=
  token.content.takesFlags && token.spacing = .prohibited

end Token

end Gleaner
