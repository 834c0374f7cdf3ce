/-!
# Options of the command line

The options that the commands know, what each of them takes, and why a command line is turned down.
-/

namespace Gleaner.CommandLine

/-- When diagnostics are coloured. -/
inductive ColorChoice where
  | auto
  | always
  | never
deriving DecidableEq, Repr, Inhabited

namespace ColorChoice

def all : List ColorChoice :=
  [auto, always, never]

def word : ColorChoice → String
  | auto => "auto"
  | always => "always"
  | never => "never"

def ofWord? (word : String) : Option ColorChoice :=
  all.find? fun choice => choice.word = word

end ColorChoice

/-- Why a command line is not carried out. -/
inductive Refusal where
  | displayHelp
  | displayHelpOnMissingArgumentOrSubcommand
  | invalidSubcommand
  | unknownArgument
  | missingRequiredArgument
  | argumentConflict
  | invalidValue
  | valueValidation
  | tooManyValues
deriving DecidableEq, Repr, Inhabited

/-- The name of a refusal. -/
def Refusal.name : Refusal → String
  | displayHelp => "DisplayHelp"
  | displayHelpOnMissingArgumentOrSubcommand => "DisplayHelpOnMissingArgumentOrSubcommand"
  | invalidSubcommand => "InvalidSubcommand"
  | unknownArgument => "UnknownArgument"
  | missingRequiredArgument => "MissingRequiredArgument"
  | argumentConflict => "ArgumentConflict"
  | invalidValue => "InvalidValue"
  | valueValidation => "ValueValidation"
  | tooManyValues => "TooManyValues"

/-- A command. -/
inductive Command where
  /-- Print the pattern of a template. -/
  | pattern
  /-- Capture a document. -/
  | capture
deriving DecidableEq, Repr, Inhabited

namespace Command

def all : List Command :=
  [pattern, capture]

def word : Command → String
  | pattern => "pattern"
  | capture => "capture"

def ofWord? (word : String) : Option Command :=
  all.find? fun command => command.word = word

end Command

/-- An option, or the document that is named without one. -/
inductive Setting where
  | head
  | body
  | tail
  | spec
  | color
  | backtrackLimit
  | bare
  | struct
  | compact
  | help
  | document
deriving DecidableEq, Repr, Inhabited

namespace Setting

/-- The options of a command. -/
def optionsOf : Command → List Setting
  | .pattern => [head, body, tail, spec, color, bare, help]
  | .capture => [head, body, tail, spec, color, backtrackLimit, struct, compact, help]

/-- The word behind the two hyphens. -/
def word : Setting → String
  | head => "head"
  | body => "body"
  | tail => "tail"
  | spec => "spec"
  | color => "color"
  | backtrackLimit => "backtrack-limit"
  | bare => "bare"
  | struct => "struct"
  | compact => "compact"
  | help => "help"
  | document => ""

/-- The option of a command with a given word. -/
def ofWord? (command : Command) (word : String) : Option Setting :=
  (optionsOf command).find? fun setting => setting.word = word

/-- Whether a value follows. -/
def takesValue : Setting → Bool
  | head | body | tail | spec | color | backtrackLimit | document => true
  | bare | struct | compact | help => false

/-- Whether the next word is the value, whatever it looks like. -/
def takesAnyWord : Setting → Bool
  | head | body | tail => true
  | _ => false

end Setting

/-- The greatest limit, and the greatest number that a word of digits may stand for. -/
def greatestNumber : Nat := UInt64.size - 1

/-- The number that a word of decimal digits stands for; a plus sign may stand before them. -/
def readNumber? (word : List Char) : Option Nat :=
  let digits := match word with
    | '+' :: rest => rest
    | _ => word
  if digits.isEmpty || !digits.all Char.isDigit then none
  else
    let n := digits.foldl (fun n c => n * 10 + (c.toNat - '0'.toNat)) 0
    if n ≤ greatestNumber then some n else none

end Gleaner.CommandLine
