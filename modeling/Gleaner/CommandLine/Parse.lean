import Gleaner.CommandLine.Option
import Gleaner.Capture.Budget

/-!
# Reading a command line

The words behind the command are read from left to right. An option that takes a value is given
the next word, unless the value is attached with an equals sign. A value is looked at only when the
next option or document comes, or at the end; an unknown word that comes before then is reported
first. A word of two hyphens ends the options.
-/

namespace Gleaner.CommandLine

/-- What has been given on a command line so far. -/
structure Given where
  head : List String := []
  body : List String := []
  tail : List String := []
  spec : Option String := none
  color : Option ColorChoice := none
  limit : Option Nat := none
  bare : Bool := false
  struct : Bool := false
  compact : Bool := false
  document : Option String := none
deriving DecidableEq, Repr, Inhabited

namespace Given

/-- A value is set once. -/
def once {α : Type} (old : Option α) (new : Except Refusal α) : Except Refusal (Option α) :=
  match old with
  | some _ => .error .argumentConflict
  | none => new.map some

/-- The name of a file is not empty. -/
def path (word : String) : Except Refusal String :=
  if word.isEmpty then .error .invalidValue else .ok word

/-- Gives a setting a value. -/
def setValue (given : Given) (setting : Setting) (word : String) : Except Refusal Given :=
  match setting with
  | .head => .ok { given with head := given.head ++ [word] }
  | .body => .ok { given with body := given.body ++ [word] }
  | .tail => .ok { given with tail := given.tail ++ [word] }
  | .spec => do return { given with spec := ← once given.spec (path word) }
  | .document => do return { given with document := ← once given.document (path word) }
  | .color =>
    let choice := match ColorChoice.ofWord? word with
      | some choice => .ok choice
      | none => .error .invalidValue
    do return { given with color := ← once given.color choice }
  | .backtrackLimit =>
    let limit := match readNumber? word.toList with
      | some limit => .ok limit
      | none => .error .valueValidation
    do return { given with limit := ← once given.limit limit }
  | .bare | .struct | .compact | .help => .ok given

/-- Sets a flag, which may not be set twice. -/
def setFlag (given : Given) (setting : Setting) : Except Refusal Given :=
  match setting with
  | .bare => if given.bare then .error .argumentConflict else .ok { given with bare := true }
  | .struct => if given.struct then .error .argumentConflict else .ok { given with struct := true }
  | .compact =>
    if given.compact then .error .argumentConflict else .ok { given with compact := true }
  | .help => .error .displayHelp
  | _ => .ok given

end Given

/-- An option or document whose value has not been looked at. -/
structure Pending where
  setting : Setting
  word : Option String
deriving DecidableEq, Repr, Inhabited

/-- The state between two words. -/
structure Scan where
  given : Given := {}
  pending : Option Pending := none
  /-- No options are looked for any more. -/
  onlyDocuments : Bool := false
  documentSeen : Bool := false
deriving DecidableEq, Repr, Inhabited

namespace Scan

/-- Looks at the value that is pending. -/
def settle (scan : Scan) : Except Refusal Scan :=
  match scan.pending with
  | none => .ok scan
  -- An option at the end of the words, or before another option, lacks its value.
  | some ⟨_, none⟩ => .error .invalidValue
  | some ⟨setting, some word⟩ => do
    return { scan with given := ← scan.given.setValue setting word, pending := none }

/-- The option that waits for its value. -/
def awaiting? (scan : Scan) : Option Setting :=
  match scan.pending with
  | some ⟨setting, none⟩ => some setting
  | _ => none

/-- Hands a word to the option that waits for it. -/
def fill (scan : Scan) (setting : Setting) (word : String) : Scan :=
  { scan with pending := some ⟨setting, some word⟩ }

/-- A word that is no option: the document, if the command has one and it has not been named. -/
def takeDocument (command : Command) (scan : Scan) (word : String) : Except Refusal Scan :=
  if command = .capture && !scan.documentSeen then do
    -- What waits to be looked at is looked at before anything new, so the first fault counts.
    let scan ← scan.settle
    return { scan.fill .document word with documentSeen := true }
  else .error .unknownArgument

/-- An option, with the value attached to it if there is one. -/
def takeOption (command : Command) (scan : Scan) (word : String) (attached : Option String) :
    Except Refusal Scan :=
  match Setting.ofWord? command word with
  | none => .error .unknownArgument
  | some setting =>
    if setting.takesValue then do
      let scan ← scan.settle
      match attached with
      | some value => return { scan with given := ← scan.given.setValue setting value }
      | none => return { scan with pending := some ⟨setting, none⟩ }
    -- A flag has no value, not even an empty one.
    else if attached.isSome then .error .tooManyValues
    else do
      let scan ← scan.settle
      return { scan with given := ← scan.given.setFlag setting }

/-- Single letters behind one hyphen: the first one decides, and only `h` is known. -/
def takeLetters (scan : Scan) (letters : List Char) : Except Refusal Scan :=
  if letters.head? = some 'h' then do
    let scan ← scan.settle
    return { scan with given := ← scan.given.setFlag .help }
  else .error .unknownArgument

/-- The next word of a command line. -/
def next (command : Command) (scan : Scan) (word : String) : Except Refusal Scan :=
  if scan.onlyDocuments then scan.takeDocument command word
  else
    match scan.awaiting? with
    | some setting =>
      if setting.takesAnyWord then .ok (scan.fill setting word) else other (some setting)
    | none => other none
where
  /-- A word that is looked at before it is taken for a value. -/
  other (awaiting : Option Setting) : Except Refusal Scan :=
    match word.toList with
    -- From here on every word is a document, even one that begins with a hyphen.
    | ['-', '-'] => .ok { scan with onlyDocuments := true }
    | '-' :: '-' :: rest =>
      let attached := match rest.dropWhile (· ≠ '=') with
        -- The equals sign ends the name; further ones belong to the value.
        | _ :: value => some (String.ofList value)
        | [] => none
      scan.takeOption command (String.ofList (rest.takeWhile (· ≠ '='))) attached
    | '-' :: letter :: rest => scan.takeLetters (letter :: rest)
    | _ =>
      match awaiting with
      | some setting => .ok (scan.fill setting word)
      | none => scan.takeDocument command word

/-- All words of a command line behind the command. -/
def all (command : Command) (scan : Scan) : List String → Except Refusal Scan
  | [] => scan.settle
  | word :: rest => do (← scan.next command word).all command rest

end Scan

/-- Where a template comes from: lines on the command line, or a description in a file. -/
structure TemplateSource where
  head : List String
  body : List String
  tail : List String
  spec : Option String
deriving DecidableEq, Repr, Inhabited

/-- A command with all it needs. -/
inductive Invocation where
  | pattern (source : TemplateSource) (bare : Bool) (color : ColorChoice)
  | capture (source : TemplateSource) (document : String) (struct pretty : Bool) (limit : Nat)
    (color : ColorChoice)
deriving DecidableEq, Repr, Inhabited

namespace Given

/-- Lines and a description exclude each other, and one of them must be given. -/
def source (given : Given) : Except Refusal TemplateSource :=
  let source := ⟨given.head, given.body, given.tail, given.spec⟩
  if given.spec.isSome then
    if given.head.isEmpty && given.body.isEmpty && given.tail.isEmpty then .ok source
    else .error .argumentConflict
  -- Head and tail alone make no template.
  else if given.body.isEmpty then .error .missingRequiredArgument
  else .ok source

/-- The command that has been given. -/
def invocation (given : Given) (command : Command) : Except Refusal Invocation := do
  let source ← given.source
  let color := given.color.getD .auto
  match command with
  | .pattern => return .pattern source given.bare color
  | .capture =>
    match given.document with
    | none => .error .missingRequiredArgument
    | some document =>
      return .capture source document given.struct (!given.compact)
        (given.limit.getD Budget.standardLimit) color

end Given

/-- What follows the word `help`: nothing, or the one command that help is asked about. -/
def helpOn : List String → Refusal
  | [] => .displayHelp
  | [word] =>
    if (Command.ofWord? word).isSome || word = "help" then .displayHelp else .invalidSubcommand
  | _ => .invalidSubcommand

/-- The first word of a command line and those behind it, where no command is known yet. -/
def parseFrom (onlyDocuments : Bool) : List String → Except Refusal Invocation
  | [] => .error .displayHelpOnMissingArgumentOrSubcommand
  | word :: rest =>
    match Command.ofWord? word with
    | some command =>
      if onlyDocuments then .error .unknownArgument
      else do
        let scan ← Scan.all command {} rest
        scan.given.invocation command
    | none =>
      if onlyDocuments then
        .error (if word = "help" then .unknownArgument else .invalidSubcommand)
      else if word = "help" then .error (helpOn rest)
      else
        match word.toList with
        | ['-', '-'] => parseFrom true rest
        | '-' :: '-' :: name =>
          .error (if name = "help".toList then .displayHelp
            else if "help=".toList.isPrefixOf name then .tooManyValues
            else .unknownArgument)
        | '-' :: letter :: _ => .error (if letter = 'h' then .displayHelp else .unknownArgument)
        | _ => .error .invalidSubcommand

/-- Reads a command line without the name of the program. -/
def parse (words : List String) : Except Refusal Invocation :=
  parseFrom false words

end Gleaner.CommandLine
