import Gleaner.Proofs.CommandLine.Words

/-!
# Options in any order

A command is asked for something by options, of which only the lines of a part may be repeated.
However the options are mixed, as long as the lines of each part keep their order, the command line
is accepted and stands for what is asked for: an option changes one place of what has been given,
and options for different places do not see each other.
-/

namespace Gleaner

/-! ### Mixing lists -/

/-- A list that takes its elements from some parts, each of which is used up in its own order. -/
inductive Interleaves {α : Type} : List (List α) → List α → Prop where
  | done {parts : List (List α)} : (∀ part ∈ parts, part = []) → Interleaves parts []
  | take (before : List (List α)) {part : List α} {after : List (List α)} {first : α}
      {whole : List α} : Interleaves (before ++ part :: after) whole →
      Interleaves (before ++ (first :: part) :: after) (first :: whole)

namespace Interleaves

variable {α β : Type} {parts : List (List α)} {part whole : List α}

theorem perm_flatten (mixed : Interleaves parts whole) : whole.Perm parts.flatten := by
  induction mixed with
  | done empty => rw [List.flatten_eq_nil_iff.mpr empty]
  | take before _ ih =>
    simp only [List.flatten_append, List.flatten_cons, List.cons_append] at ih ⊢
    exact (ih.cons _).trans List.perm_middle.symm

/-- What is picked out of a mixed list, if it is all from one part, keeps the order of the part. -/
theorem filterMap_eq (mixed : Interleaves parts whole) {f : α → Option β}
    (apart : parts.Pairwise fun part other => ∀ a ∈ part, ∀ b ∈ other, f a = none ∨ f b = none) :
    whole.filterMap f = parts.flatten.filterMap f := by
  induction mixed with
  | done empty => rw [List.flatten_eq_nil_iff.mpr empty]
  | @take before part after first whole _ ih =>
    obtain ⟨inBefore, inRest, across⟩ := List.pairwise_append.mp apart
    obtain ⟨fromPart, inAfter⟩ := List.pairwise_cons.mp inRest
    -- One element less of a part leaves the parts as far apart as they were.
    have rest := ih (by grind [List.pairwise_cons])
    simp only [List.flatten_append, List.flatten_cons, List.filterMap_append] at rest ⊢
    cases picked : f first with
    | none => simp only [List.filterMap_cons_none picked, rest]
    | some item =>
      -- Nothing is picked from the parts before this one, so the element comes first there too.
      have earlier : before.flatten.filterMap f = [] := by
        refine List.filterMap_eq_nil_iff.mpr fun a member => ?_
        obtain ⟨other, found, inOther⟩ := List.mem_flatten.mp member
        have none_of := across other found _ List.mem_cons_self a inOther first List.mem_cons_self
        exact none_of.resolve_right (by simp [picked])
      simp only [List.filterMap_cons_some picked, rest, earlier, List.nil_append, List.cons_append]

end Interleaves

namespace CommandLine

/-! ### What has been given -/

/-- What is given at most once: an item comes only where nothing was given before, and no other item
comes after it. -/
def Once {α : Type} (old : Option α) (items : List α) (new : Option α) : Prop :=
  old.toList ++ items = new.toList

namespace Once

variable {α : Type} {old new : Option α} {item : α} {others : List α}

theorem eq (once : Once old [] new) : old = new := by
  rw [Once, List.append_nil] at once
  rw [← Option.head?_toList (o := old), once, Option.head?_toList]

theorem unset (once : Once old (item :: others) new) : old = none := by
  have short : (old.toList ++ item :: others).length ≤ 1 := by
    rw [once]
    exact Option.length_toList_le
  rw [List.length_append, List.length_cons] at short
  exact Option.length_toList_eq_zero_iff.mp (by omega)

theorem first (once : Once old (item :: others) new) : Once (some item) others new := by
  rwa [once.unset] at once

end Once

namespace Argument

def text? (part : Part) : Argument → Option String
  | line part' text => if part' = part then some text else none
  | _ => none

def color? : Argument → Option ColorChoice
  | color choice => some choice
  | _ => none

def limit? : Argument → Option Nat
  | limit written => some written.number.toNat
  | _ => none

def flag? (flag : Flag) : Argument → Option Unit
  | .flag flag' => if flag' = flag then some () else none
  | _ => none

/-- A flag if it is set. -/
def flagged (name : Flag) (set : Bool) : List Argument :=
  if set then [flag name] else []

@[simp] theorem mem_flagged {name : Flag} {set : Bool} {argument : Argument} :
    argument ∈ flagged name set ↔ set = true ∧ argument = flag name := by
  cases set <;> simp [flagged]

@[simp] theorem filterMap_flagged {β : Type} (pick : Argument → Option β) (name : Flag)
    (set : Bool) :
    (flagged name set).filterMap pick = bif set then (pick (flag name)).toList else [] := by
  cases set
  · rfl
  · cases picked : pick (flag name) <;> simp [flagged, picked]

theorem text?_eq_none (part : Part) (argument : Argument)
    (other : argument.setting ≠ lineSetting part) : argument.text? part = none := by
  cases argument with
  | line part' text => exact if_neg fun same => other (congrArg lineSetting same)
  | color | limit | flag => rfl

theorem color?_eq_none (argument : Argument) (other : argument.setting ≠ .color) :
    argument.color? = none := by
  cases argument with
  | color => exact absurd rfl other
  | line | limit | flag => rfl

theorem limit?_eq_none (argument : Argument) (other : argument.setting ≠ .backtrackLimit) :
    argument.limit? = none := by
  cases argument with
  | limit => exact absurd rfl other
  | line | color | flag => rfl

theorem flag?_eq_none (flag : Flag) (argument : Argument)
    (other : argument.setting ≠ flag.setting) : argument.flag? flag = none := by
  cases argument with
  | flag flag' => exact if_neg fun same => other (congrArg Flag.setting same)
  | line | color | limit => rfl

end Argument

namespace Given

/-- The lines of a part. -/
def lines (given : Given) : Part → List String
  | .head => given.head
  | .body => given.body
  | .tail => given.tail

def isSet (given : Given) : Flag → Bool
  | .bare => given.bare
  | .struct => given.struct
  | .compact => given.compact

def flag? (given : Given) (flag : Flag) : Option Unit :=
  if given.isSet flag then some () else none

/-- Some options lead from what was given before them to what is given after them. -/
structure Leads (before : Given) (arguments : List Argument) (after : Given) : Prop where
  lines (part : Part) :
    before.lines part ++ arguments.filterMap (Argument.text? part) = after.lines part
  color : Once before.color (arguments.filterMap Argument.color?) after.color
  limit : Once before.limit (arguments.filterMap Argument.limit?) after.limit
  flag (flag : Flag) :
    Once (before.flag? flag) (arguments.filterMap (Argument.flag? flag)) (after.flag? flag)
  spec : before.spec = after.spec
  document : before.document = after.document

variable {before after : Given}

theorem toList_flag? (given : Given) (flag : Flag) :
    (given.flag? flag).toList = bif given.isSet flag then [()] else [] := by
  rw [flag?]
  cases given.isSet flag <;> rfl

theorem isSome_flag? (given : Given) (flag : Flag) :
    (given.flag? flag).isSome = given.isSet flag := by
  rw [flag?]
  cases given.isSet flag <;> rfl

theorem Leads.eq (leads : before.Leads [] after) : before = after := by
  have lines (part : Part) : before.lines part = after.lines part := by
    simpa using leads.lines part
  have flags (flag : Flag) : before.isSet flag = after.isSet flag := by
    rw [← isSome_flag?, (leads.flag flag).eq, isSome_flag?]
  cases before
  cases after
  rw [mk.injEq]
  exact ⟨lines .head, lines .body, lines .tail, leads.spec, leads.color.eq, leads.limit.eq,
    flags .bare, flags .struct, flags .compact, leads.document⟩

theorem add_color (unset : before.color = none) (choice : ColorChoice) :
    (Argument.color choice).add before = .ok { before with color := some choice } := by
  have known : ColorChoice.ofWord? choice.word = some choice := by
    cases choice <;> rfl
  simp only [Argument.add, Argument.value, Argument.setting, setValue, known, unset, once]
  rfl

theorem add_limit (unset : before.limit = none) (written : WrittenNumber) :
    (Argument.limit written).add before =
      .ok { before with limit := some written.number.toNat } := by
  simp only [Argument.add, Argument.value, Argument.setting, setValue, readNumber?_word, unset,
    once]
  rfl

/-- The first of some options is accepted, and the others lead on from there. -/
theorem Leads.step {argument : Argument} {others : List Argument}
    (leads : before.Leads (argument :: others) after) :
    ∃ middle, argument.add before = .ok middle ∧ middle.Leads others after := by
  obtain ⟨lines, color, limit, flags, spec, document⟩ := leads
  -- An option changes its own place only; all other places go on as they were.
  cases argument with
  | line part text =>
    have grown : before.lines part ++ [text] ++ others.filterMap (Argument.text? part) =
        after.lines part := by
      simpa [Argument.text?] using lines part
    cases part with
    | head =>
      exact ⟨_, rfl, fun | .head => grown | .body => lines .body | .tail => lines .tail,
        color, limit, flags, spec, document⟩
    | body =>
      exact ⟨_, rfl, fun | .head => lines .head | .body => grown | .tail => lines .tail,
        color, limit, flags, spec, document⟩
    | tail =>
      exact ⟨_, rfl, fun | .head => lines .head | .body => lines .body | .tail => grown,
        color, limit, flags, spec, document⟩
  | color choice =>
    have once : Once before.color (choice :: others.filterMap Argument.color?) after.color := color
    exact ⟨_, add_color once.unset choice, lines, once.first, limit, flags, spec, document⟩
  | limit written =>
    have once : Once before.limit (written.number.toNat :: others.filterMap Argument.limit?)
        after.limit := limit
    exact ⟨_, add_limit once.unset written, lines, color, once.first, flags, spec, document⟩
  | flag flag =>
    have once : Once (before.flag? flag) (() :: others.filterMap (Argument.flag? flag))
        (after.flag? flag) := by
      simpa [Argument.flag?] using flags flag
    have unset : ¬before.isSet flag = true := by
      simp [← isSome_flag?, once.unset]
    cases flag with
    | bare =>
      exact ⟨_, if_neg unset, lines, color, limit,
        fun | .bare => once.first | .struct => flags .struct | .compact => flags .compact,
        spec, document⟩
    | struct =>
      exact ⟨_, if_neg unset, lines, color, limit,
        fun | .bare => flags .bare | .struct => once.first | .compact => flags .compact,
        spec, document⟩
    | compact =>
      exact ⟨_, if_neg unset, lines, color, limit,
        fun | .bare => flags .bare | .struct => flags .struct | .compact => once.first,
        spec, document⟩

/-- Options for different settings may be mixed. -/
theorem Leads.of_flatten {parts : List (List Argument)} {arguments : List Argument}
    (leads : before.Leads parts.flatten after) (mixed : Interleaves parts arguments)
    (apart : parts.Pairwise fun options others =>
      ∀ a ∈ options, ∀ b ∈ others, a.setting ≠ b.setting) :
    before.Leads arguments after := by
  have same {β : Type} {pick : Argument → Option β} (place : Setting)
      (own : ∀ a : Argument, a.setting ≠ place → pick a = none) :
      arguments.filterMap pick = parts.flatten.filterMap pick := by
    -- The elements that are picked have one setting, which at most one part has.
    refine mixed.filterMap_eq (apart.imp fun differ a inOptions b inOthers => ?_)
    by_cases here : a.setting = place
    · exact .inr (own b fun there => differ a inOptions b inOthers (here.trans there.symm))
    · exact .inl (own a here)
  obtain ⟨lines, color, limit, flags, spec, document⟩ := leads
  refine ⟨fun part => ?_, ?_, ?_, fun flag => ?_, spec, document⟩
  · rw [same _ (Argument.text?_eq_none part), lines]
  · rwa [same _ Argument.color?_eq_none]
  · rwa [same _ Argument.limit?_eq_none]
  · rw [same _ (Argument.flag?_eq_none flag)]
    exact flags flag

/-- All of the options are accepted. -/
theorem Leads.foldlM_add {arguments : List Argument} (leads : before.Leads arguments after) :
    arguments.foldlM Argument.add before = .ok after := by
  induction arguments generalizing before with
  | nil =>
    rw [leads.eq]
    rfl
  | cons argument others ih =>
    obtain ⟨middle, added, rest⟩ := leads.step
    rw [List.foldlM_cons, added]
    exact ih rest

end Given

/-! ### Requests -/

/-- Lines for the parts of a template, which has a body. -/
structure TemplateLines where
  head : List String
  body : List String
  tail : List String
  body_ne_nil : body ≠ []

/-- What a command is asked for. An option that is left out is `none`, or a flag that is not set. -/
inductive Request where
  | pattern (lines : TemplateLines) (color : Option ColorChoice) (bare : Bool)
  | capture (lines : TemplateLines) (color : Option ColorChoice) (limit : Option WrittenNumber)
    (struct compact : Bool) (document : { name : String // name ≠ "" })

namespace Request

def command : Request → Command
  | pattern .. => .pattern
  | capture .. => .capture

/-- The options that ask for it, each with all of its values in order. -/
def arguments : Request → List (List Argument)
  | pattern lines color bare =>
    [lines.head.map (.line .head), lines.body.map (.line .body), lines.tail.map (.line .tail),
      color.toList.map .color, Argument.flagged .bare bare]
  | capture lines color limit struct compact _ =>
    [lines.head.map (.line .head), lines.body.map (.line .body), lines.tail.map (.line .tail),
      color.toList.map .color, limit.toList.map .limit, Argument.flagged .struct struct,
      Argument.flagged .compact compact]

/-- The words behind the options. -/
def ending : Request → List String
  | pattern .. => []
  | capture _ _ _ _ _ document => ["--", document]

/-- The invocation that is asked for. -/
def invocation : Request → Invocation
  | pattern lines color bare =>
    .pattern ⟨lines.head, lines.body, lines.tail, none⟩ bare (color.getD .auto)
  | capture lines color limit struct compact document =>
    .capture ⟨lines.head, lines.body, lines.tail, none⟩ document struct (!compact)
      (limit.elim 1000000 fun written => written.number.toNat) (color.getD .auto)

/-- What the options give. -/
def given : Request → Given
  | pattern lines color bare =>
    { head := lines.head, body := lines.body, tail := lines.tail, color, bare }
  | capture lines color limit struct compact _ =>
    { head := lines.head, body := lines.body, tail := lines.tail, color,
      limit := limit.map fun written => written.number.toNat, struct, compact }

/-- In the order in which they are listed, the options give what they ask for. -/
theorem leads_flatten (request : Request) :
    Given.Leads {} request.arguments.flatten request.given := by
  -- One case for each command: every place of what is given is filled by one of the lists.
  cases request with
  | pattern lines color bare =>
    refine ⟨fun part => ?_, ?_, ?_, fun flag => ?_, rfl, rfl⟩
    · cases part <;> simp [arguments, given, Function.comp_def, Argument.text?, Given.lines]
    · simp [arguments, given, Function.comp_def, Argument.color?, Once]
    · simp [arguments, given, Function.comp_def, Argument.limit?, Once]
    · cases flag <;> simp [arguments, given, Function.comp_def, Argument.flag?, Once,
        Given.toList_flag?, Given.isSet]
  | capture lines color limit struct compact document =>
    refine ⟨fun part => ?_, ?_, ?_, fun flag => ?_, rfl, rfl⟩
    · cases part <;> simp [arguments, given, Function.comp_def, Argument.text?, Given.lines]
    · simp [arguments, given, Function.comp_def, Argument.color?, Once]
    · simp [arguments, given, Function.comp_def, Argument.limit?, Once, Option.toList_map]
    · cases flag <;> simp [arguments, given, Function.comp_def, Argument.flag?, Once,
        Given.toList_flag?, Given.isSet]

theorem arguments_apart (request : Request) :
    request.arguments.Pairwise fun options others =>
      ∀ a ∈ options, ∀ b ∈ others, a.setting ≠ b.setting := by
  cases request with
  | pattern lines color bare => simp [arguments, Argument.setting, lineSetting, Flag.setting]
  | capture lines color limit struct compact document =>
    simp [arguments, Argument.setting, lineSetting, Flag.setting]

theorem setting_mem_optionsOf (request : Request) {argument : Argument}
    (member : argument ∈ request.arguments.flatten) :
    argument.setting ∈ Setting.optionsOf request.command := by
  revert argument
  cases request with
  | pattern lines color bare =>
    simp [arguments, command, Setting.optionsOf, Argument.setting, lineSetting, Flag.setting,
      or_imp, forall_and]
  | capture lines color limit struct compact document =>
    simp [arguments, command, Setting.optionsOf, Argument.setting, lineSetting, Flag.setting,
      or_imp, forall_and]

end Request

section

variable {given : Given} (noSpec : given.spec = none) (body : given.body ≠ [])
include noSpec body

theorem Given.source_of_lines : given.source = .ok ⟨given.head, given.body, given.tail, none⟩ := by
  simp [source, noSpec, body]

theorem Given.invocation_pattern :
    given.invocation .pattern =
      .ok (.pattern ⟨given.head, given.body, given.tail, none⟩ given.bare
        (given.color.getD .auto)) := by
  rw [invocation, source_of_lines noSpec body]
  rfl

theorem Given.invocation_capture {name : String} (named : given.document = some name) :
    given.invocation .capture =
      .ok (.capture ⟨given.head, given.body, given.tail, none⟩ name given.struct (!given.compact)
        (given.limit.getD Budget.standardLimit) (given.color.getD .auto)) := by
  rw [invocation, source_of_lines noSpec body, named]
  rfl

end

/-- Behind the options of a request comes its end, and nothing is missing then. -/
theorem Scan.Gives.all_ending {request : Request} {scan : Scan} (gives : scan.Gives request.given) :
    (do (← scan.all request.command request.ending).given.invocation request.command) =
      .ok request.invocation := by
  cases request with
  | pattern lines color bare =>
    rw [Request.ending, all, gives.settle_eq]
    exact Given.invocation_pattern rfl lines.body_ne_nil
  | capture lines color limit struct compact document =>
    rw [Request.ending, Request.command, all_document gives rfl document.property]
    refine (Given.invocation_capture rfl lines.body_ne_nil rfl).trans ?_
    cases limit <;> rfl

theorem parse_command (command : Command) (words : List String) :
    parse (command.word :: words) =
      (do (← Scan.all command {} words).given.invocation command) := by
  cases command <;> rfl

/-- However the options of a request are mixed, and whatever its lines look like, the command line
is accepted and stands for what is asked for. -/
theorem parse_interleaved (request : Request) {arguments : List Argument}
    (mixed : Interleaves request.arguments arguments) :
    parse (request.command.word :: arguments.flatMap Argument.words ++ request.ending) =
      .ok request.invocation := by
  have leads := request.leads_flatten.of_flatten mixed request.arguments_apart
  have known : ∀ argument ∈ arguments, argument.setting ∈ Setting.optionsOf request.command :=
    fun _ member => request.setting_mem_optionsOf (mixed.perm_flatten.mem_iff.mp member)
  have start : Scan.Gives {} {} := rfl
  obtain ⟨scan, read, gives⟩ := Scan.all_arguments start known leads.foldlM_add request.ending
  rw [List.cons_append, parse_command, read]
  exact gives.all_ending

/-- Lines that look like options, like the end of the options or like nothing, and a document that
looks like an option. -/
theorem parse_interleaved_hyphens :
    Interleaves
      [[Argument.line .head "--bare", .line .head "--"], [.line .body "-x", .line .body ""],
        [.line .tail "--tail"], [.color .never], [.limit ⟨18446744073709551615, 2⟩],
        [.flag .struct], []]
      [.line .body "-x", .line .head "--bare", .flag .struct, .line .tail "--tail",
        .limit ⟨18446744073709551615, 2⟩, .line .head "--", .color .never, .line .body ""] ∧
    parse ["capture", "--body", "-x", "--head", "--bare", "--struct", "--tail", "--tail",
        "--backtrack-limit", "0018446744073709551615", "--head", "--", "--color", "never",
        "--body", "", "--", "--help"] =
      .ok (.capture ⟨["--bare", "--"], ["-x", ""], ["--tail"], none⟩ "--help" true true
        18446744073709551615 .never) := by
  let request : Request := .capture ⟨["--bare", "--"], ["-x", ""], ["--tail"], by decide⟩
    (some .never) (some ⟨18446744073709551615, 2⟩) true false ⟨"--help", by decide⟩
  have mixed : Interleaves request.arguments [.line .body "-x", .line .head "--bare", .flag .struct,
      .line .tail "--tail", .limit ⟨18446744073709551615, 2⟩, .line .head "--", .color .never,
      .line .body ""] :=
    -- The parts before the one that is taken from are counted off.
    .take [_] <| .take [] <| .take [_, _, _, _, _] <| .take [_, _] <| .take [_, _, _, _] <|
      .take [] <| .take [_, _, _] <| .take [_] <| .done (by decide)
  have spelled : WrittenNumber.word ⟨18446744073709551615, 2⟩ = "0018446744073709551615" := by
    decide +kernel
  refine ⟨mixed, ?_⟩
  rw [← spelled]
  exact parse_interleaved request mixed

end CommandLine

end Gleaner
