import Gleaner.CommandLine.Run
import Gleaner.Proofs.Json.Trees
import Gleaner.Proofs.Layout.Alike
import Gleaner.Proofs.Layout.Descriptions

/-!
# Where a template comes from

A command takes its template from lines or from a file with a description. The description is
decoded first and made into a template then, while `Template.parse` does both at once: they accept
the same texts. And lines make the same template as a file that lists them, although a single line
becomes a line in one case and a sequence of one line in the other.
-/

namespace Gleaner

namespace CommandLine

/-! ### Files -/

theorem describedTemplate_eq_ok {path text : String} {template : Template} :
    describedTemplate path text = .ok template ↔ Layout.parse text = .ok template.layout := by
  unfold describedTemplate
  cases parsed : Layout.parse text with
  | error fault => simp
  | ok layout =>
    have kept : (Template.make layout).mapError (CommandFault.failed (some path)) = .ok template ↔
        Template.make layout = .ok template := by
      cases Template.make layout <;> simp [Except.mapError]
    rw [kept, Template.make_eq_ok, Except.ok.injEq, eq_comm]

theorem decodeText_toUTF8 (path text : String) : decodeText path (.ok text.toUTF8) = .ok text := by
  have decoded : String.fromUTF8? text.toUTF8 = some text := dif_pos text.isValidUTF8
  simp only [decodeText, decoded]

section

variable {m : Type → Type} [Monad m] {read : Source → m (Except ReadCause ByteArray)}

theorem loadTemplate_lines {source : TemplateSource} (noSpec : source.spec = none) :
    loadTemplate read source = pure (linesTemplate source) := by
  rw [loadTemplate, noSpec]

variable [LawfulMonad m]

theorem loadTemplate_file {source : TemplateSource} {path text : String}
    (spec : source.spec = some path) (holds : read (.file path) = pure (.ok text.toUTF8)) :
    loadTemplate read source = pure (describedTemplate path text) := by
  rw [loadTemplate, spec]
  simp only [holds, pure_bind, decodeText_toUTF8]
  rfl

/-- A file is accepted if its text is parsed as a template, and gives this template. A layout that
is decoded but turned down is turned down by the parser in the same words. -/
theorem loadTemplate_eq_parse {source : TemplateSource} {path text : String}
    (spec : source.spec = some path) (holds : read (.file path) = pure (.ok text.toUTF8)) :
    (∃ loaded, loadTemplate read source = pure loaded ∧
      ∀ template, loaded = .ok template ↔ Template.parse text = .ok template) ∧
    ∀ layout fault, Layout.parse text = .ok layout → Template.make layout = .error fault →
      Template.parse text = .error (.noTemplate fault) ∧
        (DescriptionFault.noTemplate fault).message = fault.message := by
  refine ⟨⟨_, loadTemplate_file spec holds, fun template => ?_⟩, fun layout fault parsed made => ?_⟩
  · rw [describedTemplate_eq_ok, Template.parse_eq_ok]
  · -- The parser asks for a template before it looks at what follows the description.
    obtain ⟨rest, layout_read, -⟩ := (Layout.parse_eq_ok "ParserDesc").mp parsed
    constructor
    · rw [Template.parse, layout_read]
      simp only [bind, Except.bind, made]
    · rfl

end

/-- A file with a template in the form of an array, and one with a head but no body. -/
theorem loadTemplate_eq_parse_array :
    (∃ template, Template.parse "[null,\"~!\"]" = .ok template ∧
      loadTemplate (m := Id) (fun _ => pure (.ok "[null,\"~!\"]".toUTF8)) ⟨[], [], [], some "a"⟩ =
        .ok template) ∧
    Layout.parse "\x7b\"head\":\"~\"\x7d" = .ok ⟨.line "~", .absent, .absent⟩ ∧
    Template.parse "\x7b\"head\":\"~\"\x7d" =
      .error (.noTemplate (.badSection .bodyRequired)) := by
  -- Any file that is asked for holds the array.
  let files : Source → Id (Except ReadCause ByteArray) := fun _ =>
    pure (.ok "[null,\"~!\"]".toUTF8)
  have holds : files (.file "a") = pure (.ok "[null,\"~!\"]".toUTF8) := rfl
  have spec : (⟨[], [], [], some "a"⟩ : TemplateSource).spec = some "a" := rfl
  have answered : (Template.parse "[null,\"~!\"]").isOk = true := by decide +kernel
  obtain ⟨template, parsed⟩ := exists_of_isOk answered
  obtain ⟨⟨loaded, load, accepts⟩, -⟩ := loadTemplate_eq_parse spec holds
  refine ⟨⟨template, parsed, load.trans ((accepts template).mpr parsed)⟩, ?_⟩
  -- Any file that is asked for holds a head without a body.
  let files' : Source → Id (Except ReadCause ByteArray) := fun _ =>
    pure (.ok "\x7b\"head\":\"~\"\x7d".toUTF8)
  have holds' : files' (.file "a") = pure (.ok "\x7b\"head\":\"~\"\x7d".toUTF8) := rfl
  have decoded : Layout.parse "\x7b\"head\":\"~\"\x7d" = .ok ⟨.line "~", .absent, .absent⟩ := by
    decide +kernel
  have bodyless : Layout.outlines ⟨.line "~", .absent, .absent⟩ =
      .error (.badSection .bodyRequired) := by
    decide +kernel
  have turnedDown := (loadTemplate_eq_parse spec holds').2 _ _ decoded
    (Template.make_eq_error.mpr bodyless)
  exact ⟨decoded, turnedDown.1⟩

/-! ### Lines and files that list them -/

/-- The lines of a part. -/
def TemplateSource.lines (source : TemplateSource) : Part → List String
  | .head => source.head
  | .body => source.body
  | .tail => source.tail

/-- The same command with a template from elsewhere. -/
def Invocation.withSource (source : TemplateSource) : Invocation → Invocation
  | .pattern _ bare color => .pattern source bare color
  | .capture _ document struct pretty limit color =>
    .capture source document struct pretty limit color

/-- Lines as the value of a part; no lines are no value. -/
def linesValue : List String → Json
  | [] => .null
  | texts => .array (texts.map .string)

/-- The members of an object that lists the lines of some parts. -/
def listing (source : TemplateSource) (parts : List Part) : List (String × Json) :=
  parts.map fun part => (part.key, linesValue (source.lines part))

/-- The section of a list of lines. -/
def listed : List String → Section
  | [] => .absent
  | texts => .lines texts

theorem ofLines_alike (texts : List String) : (Section.ofLines texts).Alike (listed texts) := by
  match texts with
  | [] => exact .refl _
  | [text] => exact .single text
  | _ :: _ :: _ => exact .refl _

theorem ofJson?_linesValue (texts : List String) :
    Section.ofJson? (linesValue texts) = some (listed texts) := by
  cases texts with
  | nil => rfl
  | cons text rest =>
    have strings := Section.mapM_string?_eq_some.mpr (rfl : (text :: rest).map Json.string = _)
    simp only [linesValue, Section.ofJson?, strings, listed]

theorem depth_linesValue (texts : List String) : (linesValue texts).depth ≤ 1 := by
  cases texts with
  | nil => exact Nat.zero_le _
  | cons text rest =>
    apply Json.depth_array_le.mpr
    intro item member
    obtain ⟨one, -, rfl⟩ := List.mem_map.mp member
    exact Nat.le_refl _

section

variable {source : TemplateSource} {parts : List Part}

theorem partAmong_listed (complete : ∀ part, source.lines part ≠ [] → part ∈ parts) (part : Part) :
    partAmong (parts.map fun part => (part, listed (source.lines part))) part =
      listed (source.lines part) := by
  rw [partAmong, List.find?_map]
  cases found : parts.find? ((fun given : Part × Section => decide (given.1 = part)) ∘
      fun part => (part, listed (source.lines part))) with
  | some part' =>
    have same : part' = part := by simpa using List.find?_some found
    rw [same]
    rfl
  | none =>
    -- A part that is not listed has no lines.
    have missing : part ∉ parts := by
      intro member
      simpa using List.find?_eq_none.mp found part member
    have empty : source.lines part = [] := not_not.mp (mt (complete part) missing)
    rw [empty]
    rfl

/-- A text that lists lines describes the layout of the lines, as far as one can tell. -/
theorem layout_listing {text : String} (distinct : parts.Nodup)
    (complete : ∀ part, source.lines part ≠ [] → part ∈ parts)
    (parsed : Json.parse text = .ok (.object (listing source parts))) :
    ∃ layout, Layout.parse text = .ok layout ∧
      Layout.Alike ⟨.ofLines source.head, .ofLines source.body, .ofLines source.tail⟩ layout := by
  let given := parts.map fun part => (part, listed (source.lines part))
  -- Each member that is listed gives its part.
  have gives : List.Forall₂ Layout.Gives (listing source parts) given := by
    rw [listing, List.forall₂_map_left_iff, List.forall₂_map_right_iff, List.forall₂_same]
    intro part _
    exact ⟨rfl, ofJson?_linesValue _, Nat.le_trans (depth_linesValue _) (by decide)⟩
  have keys : given.map Prod.fst = parts := by
    simp [given, Function.comp_def]
  have alike (part : Part) : (Section.ofLines (source.lines part)).Alike (partAmong given part) := by
    rw [partAmong_listed complete]
    exact ofLines_alike _
  refine ⟨.ofGiven given, Layout.parse_object parsed gives (keys.symm ▸ distinct), fun part => ?_⟩
  cases part with
  | head => exact alike .head
  | body => exact alike .body
  | tail => exact alike .tail

end

section

variable {m : Type → Type} [Monad m] [LawfulMonad m] {read : Source → m (Except ReadCause ByteArray)}

theorem captureText_twin {template other : Template} (twin : template.Twin other) :
    captureText template = captureText other := by
  funext mode pretty limit document
  simp only [captureText, twin.extractor]

/-- Commands with templates that are twins have the same result. -/
theorem result_twin {source source' : TemplateSource} {template other : Template}
    (loaded : loadTemplate read source = pure (.ok template))
    (loaded' : loadTemplate read source' = pure (.ok other)) (twin : template.Twin other)
    (invocation : Invocation) :
    result read (invocation.withSource source) = result read (invocation.withSource source') := by
  cases invocation with
  | pattern _ bare color =>
    simp only [Invocation.withSource, result, loaded, loaded', pure_bind, Except.map, twin.pattern]
  | capture _ document struct pretty limit color =>
    simp only [Invocation.withSource, result, loaded, loaded', pure_bind, captureText_twin twin]

omit [LawfulMonad m] in
theorem run_eq_of_result_eq {source source' : TemplateSource} {invocation : Invocation}
    (same : result read (invocation.withSource source) =
      result read (invocation.withSource source')) (colored : ColorChoice → Bool) :
    run read colored (invocation.withSource source) =
      run read colored (invocation.withSource source') := by
  unfold run
  rw [same]
  cases invocation <;> rfl

end

/-- Lines and a file that lists them are turned down for the same fault or lead to the same results.
-/
theorem result_lines_eq_file :
    (∀ {m : Type → Type} [Monad m] [LawfulMonad m]
      (read : Source → m (Except ReadCause ByteArray)) (source file : TemplateSource)
      (path text : String) (parts : List Part), source.spec = none → file.spec = some path →
      read (.file path) = pure (.ok text.toUTF8) → parts.Nodup →
      (∀ part, source.lines part ≠ [] → part ∈ parts) →
      Json.parse text = .ok (.object (listing source parts)) →
        (∃ fault, loadTemplate read source = pure (.error (.failed none fault)) ∧
          loadTemplate read file = pure (.error (.failed (some path) fault))) ∨
        (∃ template other, loadTemplate read source = pure (.ok template) ∧
          loadTemplate read file = pure (.ok other)) ∧
        ∀ invocation : Invocation,
          result read (invocation.withSource source) = result read (invocation.withSource file) ∧
          ∀ colored, run read colored (invocation.withSource source) =
            run read colored (invocation.withSource file)) ∧
    (∀ text allowCapture,
      (Section.line text).compile allowCapture = (Section.lines [text]).compile allowCapture) ∧
    ∀ layout other : Layout, layout.Alike other →
      (∃ fault, Template.make layout = .error fault ∧ Template.make other = .error fault) ∨
      ∃ template template', Template.make layout = .ok template ∧
        Template.make other = .ok template' ∧ template.Twin template' := by
  refine ⟨?_, Section.compile_single, fun _ _ => Template.make_alike⟩
  intro m _ _ read source file path text parts noSpec spec holds distinct complete parsed
  obtain ⟨layout, described, alike⟩ := layout_listing distinct complete parsed
  have fromLines : loadTemplate read source = _ := loadTemplate_lines noSpec
  have fromFile := loadTemplate_file spec holds
  rw [describedTemplate, described] at fromFile
  rw [linesTemplate] at fromLines
  -- Layouts that are alike have the same fault, or templates that no use can tell apart.
  rcases Template.make_alike alike with ⟨fault, made, made'⟩ | ⟨template, other, made, made', twin⟩
  · left
    rw [made] at fromLines
    simp only [made'] at fromFile
    exact ⟨fault, fromLines, fromFile⟩
  · right
    rw [made] at fromLines
    simp only [made'] at fromFile
    have same := result_twin fromLines fromFile twin
    exact ⟨⟨template, other, fromLines, fromFile⟩, fun invocation =>
      ⟨same invocation, run_eq_of_result_eq (same invocation)⟩⟩

/-- Two lines from the command line, and a file that lists them in another order. -/
theorem result_lines_eq_file_shuffled :
    ∃ (read : Source → Id (Except ReadCause ByteArray)) (source file : TemplateSource),
      source = ⟨["@.total"], ["#!.+i"], [], none⟩ ∧ file = ⟨[], [], [], some "a"⟩ ∧
      read (.file "a") = pure (.ok
        "\x7b\"tail\":null, \"body\":[\"#!.+i\"],\"\\u0068ead\":[\"@.total\"]\x7d".toUTF8) ∧
      (∃ template other, loadTemplate read source = pure (.ok template) ∧
        loadTemplate read file = pure (.ok other)) ∧
      ∀ invocation : Invocation,
        result read (invocation.withSource source) = result read (invocation.withSource file) := by
  let text := "\x7b\"tail\":null, \"body\":[\"#!.+i\"],\"\\u0068ead\":[\"@.total\"]\x7d"
  let read : Source → Id (Except ReadCause ByteArray) := fun _ => pure (.ok text.toUTF8)
  let source : TemplateSource := ⟨["@.total"], ["#!.+i"], [], none⟩
  have complete (part : Part) (_ : source.lines part ≠ []) : part ∈ [Part.tail, .body, .head] := by
    cases part <;> decide
  -- The key of the head is written with an escape.
  let tree : Json.Tree := .object [("\"tail\"".toList, .scalar "null".toList),
    ("\"body\"".toList, .array [.scalar "\"#!.+i\"".toList]),
    ("\"\\u0068ead\"".toList, .array [.scalar "\"@.total\"".toList])]
  have written : tree.Written text :=
    ⟨by decide +kernel, Json.consistsOf_of_findTokens (by decide +kernel)⟩
  have parsed : Json.parse text = .ok (.object (listing source [.tail, .body, .head])) := by
    have tail : Json.Tree.keyOf? .keep "\"tail\"".toList = some "tail" := by decide +kernel
    have noTail : Json.Tree.scalarOf? .keep "null".toList = some .null := by decide +kernel
    have body : Json.Tree.keyOf? .keep "\"body\"".toList = some "body" := by decide +kernel
    have number : Json.Tree.scalarOf? .keep "\"#!.+i\"".toList = some (.string "#!.+i") := by
      decide +kernel
    have head : Json.Tree.keyOf? .keep "\"\\u0068ead\"".toList = some "head" := by decide +kernel
    have total : Json.Tree.scalarOf? .keep "\"@.total\"".toList = some (.string "@.total") := by
      decide +kernel
    have long : text.toList.length = 55 := by decide +kernel
    apply written.parse_eq
    simp only [tree, long, Json.Tree.json?, Json.Tree.members?, Json.Tree.values?, tail, noTail, body,
      number, head, total]
    rfl
  have usable : (linesTemplate source).isOk = true := by decide +kernel
  refine ⟨read, source, ⟨[], [], [], some "a"⟩, rfl, rfl, rfl, ?_⟩
  rcases result_lines_eq_file.1 read source ⟨[], [], [], some "a"⟩ "a" text _ rfl rfl rfl (by decide)
    complete parsed with ⟨fault, failed, -⟩ | ⟨both, same⟩
  · -- Nothing is wrong with these lines.
    have failed' : linesTemplate source = .error (.failed none fault) := failed
    rw [failed'] at usable
    cases usable
  · exact ⟨both, fun invocation => (same invocation).1⟩

end CommandLine

end Gleaner
