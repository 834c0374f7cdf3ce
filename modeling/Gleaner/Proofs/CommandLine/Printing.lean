import Gleaner.CommandLine.Run
import Gleaner.Proofs.Json.Text

/-!
# Printed values

Captured values are printed as JSON in one of two layouts. Both are read back as the values that
were printed: each value is a text, a list or a record, or nothing at all, and the forms of these
tell them apart and hold everything that is in them. The layout is chosen after the capture, so a
command that prints its result in the other layout prints the same values.
-/

namespace Gleaner

namespace Json

/-- Both written forms of a value stand for it, wherever they are indented. -/
structure ReadBack (json : Json) : Prop where
  compact : Spells json (writeCompact json)
  pretty : ∀ indent, Spells json (writePretty indent json)

theorem ReadBack.null : ReadBack .null := ⟨.null, fun _ => .null⟩

theorem ReadBack.string (text : String) : ReadBack (.string text) :=
  ⟨.string text, fun _ => .string text⟩

theorem ReadBack.array {items : List Json} (each : ∀ item ∈ items, item.ReadBack) :
    ReadBack (.array items) where
  compact := .compact_array fun item member => (each item member).compact
  pretty indent := .pretty_array indent fun item member => (each item member).pretty (indent + 2)

theorem ReadBack.object {members : List (String × Json)}
    (each : ∀ member ∈ members, member.2.ReadBack) : ReadBack (.object members) where
  compact := .compact_object fun member found => (each member found).compact
  pretty indent := .pretty_object indent fun member found => (each member found).pretty (indent + 2)

end Json

namespace Value

mutual

/-- The value that a JSON value stands for. There are no numbers and truth values among captures. -/
def ofJson? : Json → Option Value
  | .null => some null
  | .string value => some (text value)
  | .array items => (ofItems? items).map list
  | .object members => (ofMembers? members).map record
  | .bool _ | .number _ => none

def ofItems? : List Json → Option (List Value)
  | [] => some []
  | item :: rest => do
    let first ← ofJson? item
    let others ← ofItems? rest
    return first :: others

def ofMembers? : List (String × Json) → Option (List (String × Value))
  | [] => some []
  | (key, value) :: rest => do
    let first ← ofJson? value
    let others ← ofMembers? rest
    return (key, first) :: others

end

mutual

theorem ofJson?_toJson (value : Value) : ofJson? value.toJson = some value := by
  match value with
  | null => rfl
  | text value => rfl
  | list items => simp [toJson, ofJson?, ofItems?_itemsToJson items]
  | record fields => simp [toJson, ofJson?, ofMembers?_fieldsToJson fields]

theorem ofItems?_itemsToJson (items : List Value) : ofItems? (itemsToJson items) = some items := by
  match items with
  | [] => rfl
  | item :: rest => simp [itemsToJson, ofItems?, ofJson?_toJson item, ofItems?_itemsToJson rest]

theorem ofMembers?_fieldsToJson (fields : List (String × Value)) :
    ofMembers? (fieldsToJson fields) = some fields := by
  match fields with
  | [] => rfl
  | (key, value) :: rest =>
    simp [fieldsToJson, ofMembers?, ofJson?_toJson value, ofMembers?_fieldsToJson rest]

end

theorem toJson_injective : Function.Injective toJson := by
  intro value other same
  have decoded := ofJson?_toJson value
  rw [same, ofJson?_toJson] at decoded
  exact (Option.some.inj decoded).symm

mutual

theorem readBack_toJson (value : Value) : value.toJson.ReadBack := by
  match value with
  | null => exact .null
  | text value => exact .string value
  | list items => exact .array (readBack_items items)
  | record fields => exact .object (readBack_fields fields)

theorem readBack_items (items : List Value) : ∀ item ∈ itemsToJson items, item.ReadBack := by
  match items with
  | [] => exact List.forall_mem_nil _
  | item :: rest => exact List.forall_mem_cons.mpr ⟨readBack_toJson item, readBack_items rest⟩

theorem readBack_fields (fields : List (String × Value)) :
    ∀ member ∈ fieldsToJson fields, member.2.ReadBack := by
  match fields with
  | [] => exact List.forall_mem_nil _
  | (key, value) :: rest =>
    exact List.forall_mem_cons.mpr ⟨readBack_toJson value, readBack_fields rest⟩

end

end Value

namespace CommandLine

/-- The text of some captured values in one of the layouts. -/
def printed (pretty : Bool) (values : List Value) : String :=
  if pretty then (Value.list values).toJson.pretty else (Value.list values).toJson.compact

theorem parse_printed (pretty : Bool) (values : List Value) {gap : List Char}
    (blanks : Json.Blanks gap) :
    Json.parse (printed pretty values ++ String.ofList gap) = .ok (Value.list values).toJson := by
  have back := (Value.list values).readBack_toJson
  cases pretty with
  | true =>
    have parsed := (back.pretty 0).parse_eq blanks
    rwa [String.ofList_append] at parsed
  | false =>
    have parsed := back.compact.parse_eq blanks
    rwa [String.ofList_append] at parsed

/-! ### Commands -/

/-- What is captured from a document. -/
def captured (template : Template) (mode : Mode) (limit : Nat) (document : String) :
    Except CommandFault (List Value) :=
  (do
    let extractor ← Extractor.ofTemplate template limit
    extractor.capture mode document : Except Fault (List Value)).mapError (.failed none)

theorem captureText_eq (template : Template) (mode : Mode) (pretty : Bool) (limit : Nat)
    (document : String) :
    captureText template mode pretty limit document =
      (captured template mode limit document).map (printed pretty) := by
  simp only [captureText, captured]
  split
  next failed => rw [failed]; rfl
  next succeeded => rw [succeeded]; rfl

/-- What a capture leaves behind when its values are printed in one of the layouts. -/
def outputOf (report : CommandFault → String) (pretty : Bool) :
    Except CommandFault (List Value) → Output
  | .ok values => ⟨0, printed pretty values ++ "\n", ""⟩
  | .error fault => ⟨1, "", report fault ++ "\n"⟩

section

variable {m : Type → Type} [Monad m] (read : Source → m (Except ReadCause ByteArray))

/-- The values that a capture has to print. -/
def capturedBy (source : TemplateSource) (document : String) (mode : Mode) (limit : Nat) :
    m (Except CommandFault (List Value)) := do
  match ← loadTemplate read source with
  | .error fault => return .error fault
  | .ok template =>
    let text := decodeText document (← read (documentSource document))
    return text.bind (captured template mode limit)

variable [LawfulMonad m]

theorem result_capture (source : TemplateSource) (document : String) (struct pretty : Bool)
    (limit : Nat) (color : ColorChoice) :
    result read (.capture source document struct pretty limit color) =
      Except.map (printed pretty) <$>
        capturedBy read source document (if struct then .struct else .body) limit := by
  -- A document that cannot be read is neither searched nor printed.
  have printedText (text : Except CommandFault String) (template : Template) (mode : Mode) :
      text.bind (captureText template mode pretty limit) =
        (text.bind (captured template mode limit)).map (printed pretty) := by
    cases text with
    | error fault => rfl
    | ok text => exact captureText_eq template mode pretty limit text
  simp only [result, capturedBy, map_bind]
  congr 1
  funext loaded
  cases loaded with
  | error fault => simp [Except.map]
  | ok template => simp only [printedText, map_bind, map_pure]

theorem run_capture (colored : ColorChoice → Bool) (source : TemplateSource) (document : String)
    (struct pretty : Bool) (limit : Nat) (color : ColorChoice) :
    run read colored (.capture source document struct pretty limit color) =
      outputOf (·.report (colored color)) pretty <$>
        capturedBy read source document (if struct then .struct else .body) limit := by
  rw [run, result_capture, bind_map_left, map_eq_pure_bind]
  congr 1
  funext answer
  cases answer <;> rfl

end

/-- Printed values are read back, so that no two lists of values are printed alike; and a capture
prints the same values in either layout. -/
theorem printed_values_read_back :
    (∀ pretty values, Json.parse (printed pretty values) = .ok (Value.list values).toJson ∧
      Value.ofJson? (Value.list values).toJson = some (.list values)) ∧
    (∀ pretty values others, printed pretty values = printed pretty others → values = others) ∧
    (∀ report pretty values, Json.parse (outputOf report pretty (.ok values)).standardOutput =
      .ok (Value.list values).toJson) ∧
    ∀ {m : Type → Type} [Monad m] [LawfulMonad m]
      (read : Source → m (Except ReadCause ByteArray)) (colored : ColorChoice → Bool)
      (source : TemplateSource) (document : String) (struct : Bool) (limit : Nat)
      (color : ColorChoice), ∃ values : m (Except CommandFault (List Value)),
        ∀ pretty, run read colored (.capture source document struct pretty limit color) =
          outputOf (·.report (colored color)) pretty <$> values := by
  -- Nothing needs to follow the printed text, not even a line feed.
  have parsed (pretty : Bool) (values : List Value) :
      Json.parse (printed pretty values) = .ok (Value.list values).toJson := by
    simpa using parse_printed pretty values .nil
  refine ⟨fun pretty values => ⟨parsed pretty values, Value.ofJson?_toJson _⟩,
    fun pretty values others same => ?_, fun report pretty values => ?_,
    fun read colored source document struct limit color => ?_⟩
  -- Texts that are the same are read as the same list.
  · have both := parsed pretty values
    rw [same, parsed] at both
    cases Value.toJson_injective (Except.ok.inj both)
    rfl
  · exact parse_printed pretty values (.newLine 0)
  · exact ⟨_, fun pretty => run_capture read colored source document struct pretty limit color⟩

/-- A key and a text that need escapes, an empty key and an empty list, in both layouts. -/
theorem printed_values_read_back_escapes :
    let values : List Value :=
      [.record [("a\"", .text "\\\x01\n😀"), ("", .list [])], .null]
    printed false values = "[\x7b\"a\\\"\":\"\\\\\\u0001\\n😀\",\"\":[]\x7d,null]" ∧
    printed true values =
      "[\n  \x7b\n    \"a\\\"\": \"\\\\\\u0001\\n😀\",\n    \"\": []\n  \x7d,\n  null\n]" ∧
    Json.parse (printed true values) = Json.parse (printed false values) ∧
    ∀ others, printed true others = printed true values → others = values := by
  intro values
  have texts : printed false values = "[\x7b\"a\\\"\":\"\\\\\\u0001\\n😀\",\"\":[]\x7d,null]" ∧
      printed true values =
        "[\n  \x7b\n    \"a\\\"\": \"\\\\\\u0001\\n😀\",\n    \"\": []\n  \x7d,\n  null\n]" := by
    decide +kernel
  refine ⟨texts.1, texts.2, ?_, fun others same => ?_⟩
  · rw [(printed_values_read_back.1 true values).1, (printed_values_read_back.1 false values).1]
  · exact printed_values_read_back.2.1 true others values same

end CommandLine

end Gleaner
