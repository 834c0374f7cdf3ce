import Gleaner.Capture.Budget
import Gleaner.Capture.Value
import Gleaner.Layout.Basic
import Gleaner.Text.Blank

/-!
# Extracting values

The pattern of a template finds the blocks of a report and the extent of their parts. Each part is
then matched once more, as a text of its own: lines with the pattern that keeps their captures,
blocks inside a block with the pattern of their own template.
-/

namespace Gleaner

/-- How a part of a block is read. -/
inductive PartReader where
  | absent
  | rows (regex : Regex) (slots : List Slot)
  | blocks (regex : Regex) (head body tail : PartReader)
deriving DecidableEq, Repr, Inhabited

/-- What is captured of a block. -/
inductive Mode where
  /-- The body alone. -/
  | body
  /-- A record of head, body and tail. -/
  | struct
deriving DecidableEq, Repr, Inhabited

/-- Parentheses may not enclose each other as deep as this in a pattern that is run. -/
def depthLimit : Nat := 64

/-- A pattern that can be run. Nothing rests on the wording of the reason for which one is refused. -/
def Regex.runnable (regex : Regex) : Except Fault Regex :=
  if regex.depth < depthLimit then .ok regex
  else .error (.refusedPattern regex.text "groups are nested too deeply")

/-- The values that a match gives for a slot: one, or as many as a repeated capture has words. -/
def Slot.values (slot : Slot) (found : Match) (text : Array Char) : List Value :=
  match found.group? text slot.name with
  | none => [.null]
  | some captured =>
    if slot.quantity.isRepeated then
      (blankFields captured.toList).map fun field => .text (String.ofList field)
    else [.text (String.ofList captured.toList)]

/-- One row for each match of a sequence of lines. -/
def readRows (regex : Regex) (slots : List Slot) (limit : Nat) (text : Array Char) :
    Except Fault Value := do
  let found ← regex.findAll limit text
  return .list (found.map fun row => .list (slots.flatMap fun slot => slot.values row text))

/-- One value for each block of a text, given how the extents of its parts are read. -/
def readBlocks (regex : Regex) (mode : Mode) (limit : Nat)
    (readPart : Part → Option (Array Char) → Except Fault Value) (text : Array Char) :
    Except Fault (List Value) := do
  let found ← regex.findAll limit text
  found.mapM fun block => do
    -- The parts are matched again, each as a text of its own.
    let value part := readPart part (block.group? text (.part part))
    match mode with
    | .body => value .body
    | .struct =>
      -- The first part that fails decides, from head to tail.
      let head ← value .head
      let body ← value .body
      let tail ← value .tail
      return .record [(Part.head.key, head), (Part.body.key, body), (Part.tail.key, tail)]

namespace PartReader

/-- The reader of a part; its own pattern is checked before those of the parts inside it. -/
def build : Section → Except Fault PartReader
  | .absent => .ok absent
  | .line text => do
    let pattern ← compileLine text true 0
    return rows (← pattern.regex.runnable) pattern.slots
  | .lines texts => do
    let pattern ← compileLines texts true 0
    return rows (← pattern.regex.runnable) pattern.slots
  | .nested head body tail => do
    let outlines ← Outlines.ofParts head.outline body.outline tail.outline
    let regex ← (outlines.regex true).runnable
    return blocks regex (← build head) (← build body) (← build tail)

/-- The value of a part whose extent is `text?`. A part that is missing or empty has none. -/
def read (mode : Mode) (limit : Nat) (reader : PartReader) (text? : Option (Array Char)) :
    Except Fault Value :=
  match text? with
  | none => .ok .null
  | some text =>
    if text.isEmpty then .ok .null
    else
      match reader with
      | absent => .ok .null
      | rows regex slots => readRows regex slots limit text
      | blocks regex head body tail =>
        let readPart
          | .head => head.read mode limit
          | .body => body.read mode limit
          | .tail => tail.read mode limit
        (readBlocks regex mode limit readPart text).map .list

/-- The readers of the parts of a block. -/
def among (head body tail : PartReader) : Part → PartReader
  | .head => head
  | .body => body
  | .tail => tail

/-- A part is there to be read, or it has no value, however it is read. -/
theorem filled_or_null (text? : Option (Array Char)) :
    (∃ text, text? = some text ∧ text.isEmpty = false) ∨
      ∀ (mode : Mode) (limit : Nat) (reader : PartReader),
        reader.read mode limit text? = .ok .null := by
  cases text? with
  | none =>
    right
    intro mode limit reader
    cases reader <;> rfl
  | some text =>
    by_cases empty : text.isEmpty = true
    · right
      intro mode limit reader
      cases reader <;> simp only [read, empty, if_true]
    · left
      exact ⟨text, rfl, by simpa using empty⟩

section

variable (mode : Mode) (limit : Nat) {text : Array Char}

theorem read_rows (regex : Regex) (slots : List Slot) (filled : text.isEmpty = false) :
    (rows regex slots).read mode limit (some text) = readRows regex slots limit text := by
  simp only [read, filled, Bool.false_eq_true, if_false]

/-- A block inside a block is read like those of a report. -/
theorem read_blocks (regex : Regex) (head body tail : PartReader) (filled : text.isEmpty = false) :
    (blocks regex head body tail).read mode limit (some text) =
      (readBlocks regex mode limit (fun part => (among head body tail part).read mode limit)
        text).map .list := by
  simp only [read, filled, Bool.false_eq_true, if_false]
  congr 2
  funext part
  cases part <;> rfl

end

end PartReader

/-- A template made ready to capture, with the limit of its searches. -/
structure Extractor where
  regex : Regex
  head : PartReader
  body : PartReader
  tail : PartReader
  limit : Nat
deriving DecidableEq, Repr, Inhabited

namespace Extractor

/-- The extractor of a template. It fails only if a pattern is too deep to be run. -/
def ofTemplate (template : Template) (limit : Nat) : Except Fault Extractor := do
  let regex ← (template.pattern true).runnable
  let head ← PartReader.build template.layout.head
  let body ← PartReader.build template.layout.body
  let tail ← PartReader.build template.layout.tail
  return ⟨regex, head, body, tail, limit⟩

def part (extractor : Extractor) : Part → PartReader
  | .head => extractor.head
  | .body => extractor.body
  | .tail => extractor.tail

/-- One value for each block of a report, in order. -/
def capture (extractor : Extractor) (mode : Mode) (report : String) : Except Fault (List Value) :=
  readBlocks extractor.regex mode extractor.limit
    (fun part => (extractor.part part).read mode extractor.limit) report.toList.toArray

end Extractor

end Gleaner
