import Gleaner.Json.Reader
import Gleaner.Json.Describe
import Gleaner.Layout.Basic

/-!
# Descriptions in JSON

A layout is described by an object with the keys `head`, `body` and `tail`, each of which may be
left out, or by an array of at most these three in this order. A part is `null`, a line, an array
of lines, or the description of a block inside the block, which must be a template by itself.

The outermost description is read as it comes: its parts are taken in the order of the text, a
part that fits nothing ends the reading at once, and members with other keys are skimmed.
-/

namespace Gleaner

/-- What is wrong with a description. -/
inductive DescriptionFault where
  | malformed (fault : Json.TextFault)
  /-- A part is given twice. -/
  | repeatedPart (part : Part)
  /-- A part is neither absent, a line, lines nor a template. -/
  | noSection
  /-- The description is a scalar, where something called `expected` should be. -/
  | wrongShape (found : Json.Scalar) (expected : String)
  /-- The description can be read, but its layout is no template. -/
  | noTemplate (fault : Fault)
deriving DecidableEq, Repr, Inhabited

def DescriptionFault.message : DescriptionFault → String
  | .malformed fault => fault.message
  | .repeatedPart part => "duplicate field `" ++ part.key ++ "`"
  | .noSection => "data did not match any variant of untagged enum Section"
  | .wrongShape found expected =>
    "invalid type: " ++ found.describe ++ ", expected struct " ++ expected
  | .noTemplate fault => fault.message

/-- The part of a layout among parts given in any order; a part not given is absent. -/
def partAmong (given : List (Part × Section)) (part : Part) : Section :=
  ((given.find? fun found => found.1 = part).map Prod.snd).getD .absent

/-- The layout of some parts. -/
def Layout.ofGiven (given : List (Part × Section)) : Layout :=
  ⟨partAmong given .head, partAmong given .body, partAmong given .tail⟩

namespace Section

def toJson : Section → Json
  | absent => .null
  | line text => .string text
  | lines texts => .array (texts.map .string)
  | nested head body tail =>
    .object [(Part.head.key, head.toJson), (Part.body.key, body.toJson),
      (Part.tail.key, tail.toJson)]

/-- A block inside a block, if its parts make a template. -/
def ofParts? (given : List (Part × Section)) : Option Section :=
  match Template.make (.ofGiven given) with
  | .ok template => some template.toSection
  | .error _ => none

/-- Pairs the parts of a block in order with some sections, of which there are not too many. -/
def inOrder? (sections : List Section) : Option (List (Part × Section)) :=
  if sections.length ≤ Part.all.length then some (Part.all.zip sections) else none

mutual

/-- The section that a JSON value describes. -/
def ofJson? : Json → Option Section
  | .null => some absent
  | .string text => some (line text)
  | .array items =>
    match items.mapM Json.string? with
    | some texts => some (lines texts)
    -- Items that are not all lines are the parts of a block, in order.
    | none => (ofItems? items).bind fun sections => (inOrder? sections).bind ofParts?
  | .object members =>
    (ofMembers? members).bind fun given =>
      if (given.map Prod.fst).Nodup then ofParts? given else none
  | .bool _ | .number _ => none

def ofItems? : List Json → Option (List Section)
  | [] => some []
  | item :: rest => do
    let first ← ofJson? item
    let others ← ofItems? rest
    return first :: others

/-- The parts among the members of an object; other members do not count. -/
def ofMembers? : List (String × Json) → Option (List (Part × Section))
  | [] => some []
  | (key, value) :: rest =>
    match Part.ofKey? key with
    | none => ofMembers? rest
    | some part => do
      let first ← ofJson? value
      let others ← ofMembers? rest
      return (part, first) :: others

end

end Section

namespace Layout

def toJson (layout : Layout) : Json :=
  .object [(Part.head.key, layout.head.toJson), (Part.body.key, layout.body.toJson),
    (Part.tail.key, layout.tail.toJson)]

/-- Arrays and objects may enclose each other in a description up to this depth. -/
def nestingLimit : Nat := 127

/-- The section in front of a text that stands inside the outermost description. -/
def readSection (text : List Char) : Except DescriptionFault (Section × List Char) :=
  -- The outermost description takes one level for itself.
  match Json.read (nestingLimit - 1) text with
  | .error fault => .error (.malformed fault)
  | .ok (json, rest) =>
    match Section.ofJson? json with
    | some content => .ok (content, rest)
    | none => .error .noSection

/-- A fault of the text as a fault of the description. -/
def lift {α : Type} : Except Json.TextFault α → Except DescriptionFault α
  | .ok value => .ok value
  | .error fault => .error (.malformed fault)

/-- The end of an array that holds nothing further. -/
def endOfItems (text : List Char) : Except DescriptionFault (List Char) :=
  match Json.skipSpace text with
  | [] => .error (.malformed .endInList)
  | ']' :: rest => .ok rest
  | ',' :: rest =>
    match Json.skipSpace rest with
    | ']' :: _ => .error (.malformed .trailingComma)
    | _ => .error (.malformed .trailingText)
  | _ => .error (.malformed .trailingText)

/-- The items of a description in array form, one for each of the remaining `parts`. -/
def readItems (first : Bool) (given : List (Part × Section)) :
    List Part → List Char → Except DescriptionFault (List (Part × Section) × List Char)
  | [], text => do
    let rest ← endOfItems text
    return (given, rest)
  | part :: parts, text => do
    let (more, rest) ← lift (Json.nextItem .keep first text)
    if more then do
      -- A part that fits nothing is reported here, before the text behind it is read.
      let (content, rest) ← readSection rest
      readItems false (given ++ [(part, content)]) parts rest
    else return (given, rest)

/-- The members of a description in object form. Each step takes at least one character. -/
def readMembers (given : List (Part × Section)) :
    Nat → Bool → List Char → Except DescriptionFault (List (Part × Section) × List Char)
  | 0, _, _ => .error (.malformed .endInObject)
  | steps + 1, first, text => do
    let (more, rest) ← lift (Json.nextMember .keep first text)
    if more then do
      let (key, rest) ← lift (Json.readString .keep rest)
      match Part.ofKey? key with
      | none =>
        -- Any value may stand here, however deep.
        let rest ← lift (Json.takeColon rest)
        let rest ← lift (Json.skim rest)
        readMembers given steps false rest
      | some part =>
        -- The part is known to be a second one before its value is looked at.
        if given.any fun found => found.1 = part then .error (.repeatedPart part)
        else
          let rest ← lift (Json.takeColon rest)
          let (content, rest) ← readSection rest
          readMembers (given ++ [(part, content)]) steps false rest
    else return (given, rest)

/-- The layout described in front of a text; `expected` is the name of what is looked for. -/
def read (expected : String) (text : List Char) : Except DescriptionFault (Layout × List Char) :=
  match Json.skipSpace text with
  | [] => .error (.malformed .endInValue)
  | c :: rest =>
    if c = '[' then do
      let (given, rest) ← readItems true [] Part.all rest
      return (.ofGiven given, rest)
    else if c = '\x7b' then do
      let (given, rest) ← readMembers [] (rest.length + 1) true rest
      return (.ofGiven given, rest)
    else do
      -- A scalar that cannot be read is reported as such, and not for its shape.
      let (scalar, _) ← lift (Json.readScalar .keep c rest)
      .error (.wrongShape scalar expected)

/-- The layout that a whole text describes, whether or not it is a template. -/
def parse (text : String) : Except DescriptionFault Layout := do
  let (layout, rest) ← read "Description" text.toList
  lift (Json.endOfText rest)
  return layout

end Layout

namespace Template

/-- The template that a whole text describes. The layout is checked before the text behind it. -/
def parse (text : String) : Except DescriptionFault Template := do
  let (layout, rest) ← Layout.read "ParserDesc" text.toList
  match make layout with
  | .error fault => .error (.noTemplate fault)
  | .ok template =>
    Layout.lift (Json.endOfText rest)
    return template

end Template

end Gleaner
