import Gleaner.Capture.Extractor
import Gleaner.CommandLine.Parse
import Gleaner.Diagnostic.Basic
import Gleaner.Layout.Description

/-!
# Carrying out a command

A command reads its description and its document through a function that the caller provides, so
that the same code serves a real file system and one that is only imagined. The template is complete
before the document is touched.
-/

namespace Gleaner.CommandLine

/-- Where a text is read from. -/
inductive Source where
  | file (path : String)
  | standardInput
deriving DecidableEq, Repr, Inhabited

/-- Why a text cannot be read. -/
inductive ReadCause where
  | missing
  | directory
  | notText
  | stated (text : String)
deriving DecidableEq, Repr, Inhabited

def ReadCause.message : ReadCause → String
  | .missing => "No such file or directory (os error 2)"
  | .directory => "Is a directory (os error 21)"
  | .notText => "stream did not contain valid UTF-8"
  | .stated text => text

/-- Why a command has no result. -/
inductive CommandFault where
  | unreadable (path : String) (cause : ReadCause)
  | badDescription (path : String) (fault : DescriptionFault)
  /-- A fault of the template or of its use; the path is that of its description. -/
  | failed (path? : Option String) (fault : Fault)
deriving DecidableEq, Repr, Inhabited

/-- The text that reports a fault of a command. -/
def CommandFault.report (fault : CommandFault) (colored : Bool) : String :=
  match fault with
  | .unreadable path cause => "error: cannot read `" ++ path ++ "`: " ++ cause.message
  | .badDescription path fault =>
    "error: invalid parser description `" ++ path ++ "`: " ++ fault.message
  | .failed path? fault => fault.report path? colored

/-- What a command leaves behind: its exit code and what it printed. -/
structure Output where
  code : Nat
  standardOutput : String
  standardError : String
deriving DecidableEq, Repr, Inhabited

/-- The bytes of a source as a text. -/
def decodeText (path : String) : Except ReadCause ByteArray → Except CommandFault String
  | .error cause => .error (.unreadable path cause)
  | .ok bytes =>
    match String.fromUTF8? bytes with
    | some text => .ok text
    | none => .error (.unreadable path .notText)

/-- The template that a text describes. -/
def describedTemplate (path text : String) : Except CommandFault Template :=
  match Layout.parse text with
  | .error fault => .error (.badDescription path fault)
  | .ok layout => (Template.make layout).mapError fun fault => .failed (some path) fault

/-- The template of some lines. -/
def linesTemplate (source : TemplateSource) : Except CommandFault Template :=
  (Template.make ⟨.ofLines source.head, .ofLines source.body, .ofLines source.tail⟩).mapError
    fun fault => .failed none fault

/-- The captured values of a document as JSON text. -/
def captureText (template : Template) (mode : Mode) (pretty : Bool) (limit : Nat)
    (document : String) : Except CommandFault String :=
  let captured := do
    let extractor ← Extractor.ofTemplate template limit
    extractor.capture mode document
  match captured with
  | .error fault => .error (.failed none fault)
  | .ok values =>
    let json := (Value.list values).toJson
    .ok (if pretty then json.pretty else json.compact)

/-- Where a document is: a hyphen stands for the standard input. -/
def documentSource (name : String) : Source :=
  if name = "-" then .standardInput else .file name

section

variable {m : Type → Type} [Monad m] (read : Source → m (Except ReadCause ByteArray))

/-- The template of a command. -/
def loadTemplate (source : TemplateSource) : m (Except CommandFault Template) := do
  match source.spec with
  | none => return linesTemplate source
  | some path => return (decodeText path (← read (.file path))).bind (describedTemplate path)

/-- The result of a command. -/
def result (invocation : Invocation) : m (Except CommandFault String) := do
  match invocation with
  | .pattern source bare _ =>
    return (← loadTemplate read source).map fun template => (template.pattern !bare).text
  | .capture source document struct pretty limit _ =>
    match ← loadTemplate read source with
    | .error fault => return .error fault
    | .ok template =>
      let text := decodeText document (← read (documentSource document))
      return text.bind (captureText template (if struct then .struct else .body) pretty limit)

/-- Carries out a command; `colored` says what the choice of colours comes to. -/
def run (colored : ColorChoice → Bool) (invocation : Invocation) : m Output := do
  let color := match invocation with
    | .pattern _ _ color => color
    | .capture _ _ _ _ _ color => color
  match ← result read invocation with
  | .ok text => return ⟨0, text ++ "\n", ""⟩
  | .error fault => return ⟨1, "", fault.report (colored color) ++ "\n"⟩

end

/-- Whether diagnostics are coloured, given whether they go to a terminal. -/
def ColorChoice.isColored (terminal : Bool) : ColorChoice → Bool
  | auto => terminal
  | always => true
  | never => false

end Gleaner.CommandLine
