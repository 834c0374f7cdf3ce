import Gleaner.Layout.Basic
import Gleaner.Proofs.Regex.Reading

/-!
# The pattern that is meant

What a description asks for, piece by piece: the characters of a literal, the forms of a numeral,
the anchors, gaps and word boundaries of a line, the joints between lines, and the parentheses and
repetitions of a block. Nothing here refers to the patterns that the library builds: the numbers of
groups and the token before are handed along a line, and the lines of a section are joined as lists.
-/

namespace Gleaner

open Regex

namespace Meant

/-! ### Tokens -/

/-- Space or tab. -/
def blank : Regex :=
  char (.oneOf [.only ' ', .only '\t'])

def digits : Regex :=
  plus .greedy (char .digit)

def maybeDigits : Regex :=
  star .greedy (char .digit)

def point : Regex :=
  char (.exactly '.')

/-- A choice in parentheses. -/
def choice (branches : List (List Regex)) : Regex :=
  group .plain (ofBranches branches)

def exponent : List Regex :=
  [char (.oneOf [.only 'd', .only 'e', .only 'D', .only 'E']),
    optional (char (.oneOf [.only '+', .only '-'])), digits]

/-- Digits with a point behind or before some of them. -/
def float : Regex :=
  choice [[digits, point, maybeDigits], [maybeDigits, point, digits]]

def scientific : Regex :=
  choice [[digits, optional point, maybeDigits] ++ exponent,
    [maybeDigits, point, digits] ++ exponent]

def lead : Sign → Regex
  | .positive => optional (char (.oneOf [.only '+']))
  | .negative => char (.exactly '-')
  | .any => optional (char (.oneOf [.only '+', .only '-']))

def magnitude : NumberKind → Regex
  | .integer => digits
  | .float => float
  | .scientific => scientific
  | .decimal => choice [[scientific], [float]]
  | .general => choice [[scientific], [float], [digits]]

/-- Some pieces as they are, or any number of times in parentheses. -/
def often (quantity : Quantity) (pieces : List Regex) : List Regex :=
  match quantity with
  | .single => pieces
  | .oneOrMore => [plus .greedy (group .plain (concat pieces))]

/-- The pieces of a token. A literal is the sequence of exactly its characters. -/
def token : Token → List Regex
  | .optionalLine => []
  | .anything _ => [star .lazy (char .inLine)]
  | .literal flags first rest =>
    often flags.quantity ((first :: rest).map fun c => char (.exactly c))
  | .misc flags =>
    often flags.quantity [plus .lazy (char (.noneOf [.only ' ', .only '\t', .only '\n']))]
  | .number flags sign kind =>
    let numeral := [lead sign, magnitude kind]
    match flags.quantity with
    | .single => numeral
    -- Further numerals stand behind blanks, of which there is at least one.
    | .oneOrMore =>
      numeral ++ [star .greedy (group .plain (concat (plus .greedy blank :: numeral)))]

/-! ### Lines -/

/-- The start of the text, or a place behind a line feed. -/
def lineStart : Regex :=
  group .bundle (alt textStart (look .before true .lineBreak))

/-- The end of the text, or a place before a line feed. -/
def lineEnd : Regex :=
  group .bundle (alt textEnd (look .after true .lineBreak))

/-- The line feed between two lines, which may be missing. -/
def joint : Regex :=
  optional (char .lineBreak)

/-- The characters that may not stand beside a numeral. -/
def word : CharSet :=
  .oneOf [⟨'a', 'z'⟩, ⟨'A', 'Z'⟩, ⟨'0', '9'⟩, .only 'd', .only 'e', .only 'D', .only 'E', .only '+',
    .only '.', .only '-']

def isNumeral : Token → Bool
  | .number _ _ _ => true
  | _ => false

/-- Whether the flags of a token leave no room for a gap behind it. -/
def gluesNext : Token → Bool
  | .literal flags _ _ | .misc flags | .number flags _ _ => flags.spacing = .prohibited
  | .optionalLine | .anything _ => false

/-- What stands between a token and the next one. -/
def gap : Token → List Regex
  | .literal flags _ _ | .misc flags | .number flags _ _ =>
    match flags.spacing with
    | .required => [plus .greedy blank]
    | .optional => [star .greedy blank]
    | .prohibited => []
  | .optionalLine | .anything _ => []

/-- The pieces of the tokens of a line. `number` is that of the next group, `before` the token
before them, if any. -/
def tokens (allowCapture : Bool) (number : Nat) (before : Option Token) : List Token → List Regex
  | [] => []
  | here :: rest =>
    let kept := here.capture && allowCapture
    -- A numeral is a word of its own, except on a side on which a token is glued to it.
    (if isNumeral here && !before.any gluesNext then [look .before false word] else []) ++
      (if kept then [group (.named (.slot number)) (concat (token here))] else token here) ++
      (if isNumeral here && !gluesNext here then [look .after false word] else []) ++
      (if rest.isEmpty then [] else gap here) ++
      tokens allowCapture (if kept then (number + 1) % UInt64.size else number) (some here) rest

/-- The pieces of a line, whose groups are numbered from `number` on. -/
def line (allowCapture : Bool) (number : Nat) (line : Line) : List Regex :=
  let margin := star .greedy blank
  let whole := [lineStart, margin] ++ tokens allowCapture number none line.tokens ++
    (if line.tokens.isEmpty then [] else [margin]) ++ [lineEnd]
  if line.optional then [optional (group .bundle (concat whole))] else whole

/-- The pieces of each of some lines, with one numbering of their groups. -/
def lines (allowCapture : Bool) (number : Nat) : List Line → List (List Regex)
  | [] => []
  | first :: rest =>
    let kept := first.tokens.countP fun token => token.capture && allowCapture
    line allowCapture number first :: lines allowCapture ((number + kept) % UInt64.size) rest

/-- The pieces of a sequence of lines. -/
def sequence (allowCapture : Bool) (number : Nat) (all : List Line) : List Regex :=
  [joint].intercalate (lines allowCapture number all)

/-! ### Blocks -/

/-- A part of a block: its pieces, and whether it may be left out. -/
structure Phrase where
  pieces : List Regex
  optional : Bool
deriving DecidableEq, Repr, Inhabited

/-- A part in parentheses, under its name if it is kept. -/
def wrapped (keep : Bool) (part : Part) (phrase : Phrase) : Regex :=
  let inside := group (if keep then .named (.part part) else .bundle) (concat phrase.pieces)
  if phrase.optional then optional inside else inside

/-- The pieces of a block. The body is always there and may occur again behind a joint. -/
def block (keep : Bool) (head : Option Phrase) (body : Phrase) (tail : Option Phrase) :
    List Regex :=
  let bodies := body.pieces ++ [star .greedy (group .bundle (concat (joint :: body.pieces)))]
  (head.map fun phrase => [wrapped keep .head phrase, joint]).getD [] ++
    [wrapped keep .body ⟨bodies, false⟩] ++
    (tail.map fun phrase => [joint, wrapped keep .tail phrase]).getD []

/-- What stands in a part of a block. Parts that are absent or cannot be read mean nothing. -/
def phrase? : Section → Option Phrase
  | .absent => none
  | .line text =>
    (Line.parse text).toOption.map fun parsed => ⟨line false 0 parsed, parsed.optional⟩
  | .lines texts =>
    (texts.mapM Line.parse).toOption.map fun all => ⟨sequence false 0 all, all.all Line.optional⟩
  | .nested head body tail =>
    (phrase? body).map fun body => ⟨block false (phrase? head) body (phrase? tail), false⟩

/-- The pattern of the blocks of a layout. -/
def layout? (layout : Layout) (keep : Bool) : Option Regex :=
  (phrase? layout.body).map fun body =>
    concat (block keep (phrase? layout.head) body (phrase? layout.tail))

end Meant

end Gleaner
