import Gleaner.Layout.Description
import Gleaner.Proofs.Json.Text
import Gleaner.Proofs.Layout.Outlines

/-!
# Descriptions are read back

The description that is written of a template is read back as this template, if it does not nest too
deep. And it never does when the template was itself read from a text: whatever the form of that
text, what is written for a section nests no deeper than what the section was read from.

A text is parsed as a template exactly if it is parsed as the layout of the template.
-/

namespace Gleaner

open Json

theorem Part.ofKey?_key (part : Part) : ofKey? part.key = some part := by
  cases part <;> decide

/-! ### Sections and their values -/

theorem partAmong_induction {motive : Section → Prop} {given : List (Part × Section)}
    (absent : motive .absent) (each : ∀ found ∈ given, motive found.2) (part : Part) :
    motive (partAmong given part) := by
  unfold partAmong
  cases found : given.find? fun one => one.1 = part with
  | none => exact absent
  | some one => exact each one (List.mem_of_find?_eq_some found)

theorem Layout.depth_toJson_ofGiven {given : List (Part × Section)} {limit : Nat}
    (shallow : ∀ found ∈ given, found.2.toJson.depth ≤ limit) :
    (ofGiven given).toJson.depth ≤ limit + 1 := by
  have among (part : Part) : (partAmong given part).toJson.depth ≤ limit := by
    apply partAmong_induction (motive := fun content => content.toJson.depth ≤ limit)
    · exact Nat.zero_le _
    · exact shallow
  apply depth_object_le.mpr
  simp only [List.forall_mem_cons]
  exact ⟨among .head, among .body, among .tail, List.forall_mem_nil _⟩

namespace Section

theorem spells_toJson (content : Section) :
    Spells content.toJson (writeCompact content.toJson) := by
  -- By the content: each form is written as one form of value.
  induction content with
  | absent => exact .null
  | line text => exact .string text
  | lines texts =>
    apply Spells.compact_array
    intro item member
    obtain ⟨text, -, rfl⟩ := List.mem_map.mp member
    exact .string text
  | nested head body tail ih ih' ih'' =>
    apply Spells.compact_object
    simp only [List.forall_mem_cons]
    exact ⟨ih, ih', ih'', List.forall_mem_nil _⟩

theorem mapM_string?_eq_some {items : List Json} {texts : List String} :
    items.mapM string? = some texts ↔ items = texts.map .string := by
  rw [option_mapM_eq_some]
  constructor
  · intro each
    induction each with
    | nil => rfl
    | @cons item text _ _ same _ ih =>
      -- An item that is no string gives no text.
      cases item <;> cases same
      rw [ih, List.map_cons]
  · rintro rfl
    induction texts with
    | nil => exact .nil
    | cons text rest ih => exact .cons rfl ih

theorem ofParts?_eq_some {given : List (Part × Section)} {content : Section} :
    ofParts? given = some content ↔
      ∃ template : Template, template.layout = .ofGiven given ∧ template.toSection = content := by
  unfold ofParts?
  -- What is made is unique: a layout determines its template.
  cases made : Template.make (.ofGiven given) with
  | ok template =>
    constructor
    · intro same
      cases same
      exact ⟨template, Template.make_eq_ok.mp made, rfl⟩
    · rintro ⟨template', layout_eq, rfl⟩
      cases (Template.make_eq_ok.mpr layout_eq).symm.trans made
      rfl
  | error fault =>
    constructor
    · intro same
      cases same
    · rintro ⟨template, layout_eq, -⟩
      cases (Template.make_eq_ok.mpr layout_eq).symm.trans made

/-- A section in which nothing is wrong is described by its value. -/
theorem ofJson?_toJson {content : Section} {outline? : Option Outline}
    (outlined : content.outline = .ok outline?) : ofJson? content.toJson = some content := by
  induction content generalizing outline? with
  | absent => rfl
  | line text => rfl
  | lines texts =>
    have strings : (texts.map Json.string).mapM string? = some texts := mapM_string?_eq_some.mpr rfl
    simp only [toJson, ofJson?, strings]
  | nested head body tail ih ih' ih'' =>
    obtain ⟨outlines, made, -⟩ := except_map_eq_ok.mp outlined
    obtain ⟨headed, bodied, tailed⟩ := Outlines.ofParts_eq_ok.mp made
    have members : ofMembers? [(Part.head.key, head.toJson), (Part.body.key, body.toJson),
        (Part.tail.key, tail.toJson)] = some [(.head, head), (.body, body), (.tail, tail)] := by
      simp only [ofMembers?, Part.ofKey?_key, ih headed, ih' bodied, ih'' tailed]
      rfl
    -- The block has outlines, so its parts make a template again.
    have parts : ofParts? [(.head, head), (.body, body), (.tail, tail)] =
        some (.nested head body tail) :=
      ofParts?_eq_some.mpr ⟨⟨⟨head, body, tail⟩, outlines, made⟩, rfl, rfl⟩
    simp only [toJson, ofJson?, members, Option.bind_some, parts]
    exact if_pos (by simp)

theorem depth_of_ofParts? {given : List (Part × Section)} {content : Section} {limit : Nat}
    (made : ofParts? given = some content)
    (shallow : ∀ found ∈ given, found.2.toJson.depth ≤ limit) :
    content.toJson.depth ≤ limit + 1 := by
  obtain ⟨template, layout_eq, rfl⟩ := ofParts?_eq_some.mp made
  have same : template.toSection.toJson = template.layout.toJson := rfl
  rw [same, layout_eq]
  exact Layout.depth_toJson_ofGiven shallow

mutual

/-- What is written for a section nests no deeper than what it was read from. -/
theorem depth_of_ofJson? {json : Json} {content : Section} {limit : Nat}
    (made : ofJson? json = some content) (shallow : json.depth ≤ limit) :
    content.toJson.depth ≤ limit := by
  match json with
  | .null | .string _ =>
    cases made
    exact Nat.zero_le _
  | .bool _ | .number _ => cases made
  | .array items =>
    obtain _ | limit := limit
    · simp [depth] at shallow
    rw [ofJson?] at made
    split at made
    next texts strings =>
      -- Lines are written as the strings they were read from.
      cases made
      rw [mapM_string?_eq_some.mp strings] at shallow
      exact shallow
    next =>
      -- A block given as an array is written as an object of the same parts.
      obtain ⟨sections, each, made⟩ := Option.bind_eq_some_iff.mp made
      obtain ⟨given, ordered, made⟩ := Option.bind_eq_some_iff.mp made
      have within := depth_of_ofItems? each (depth_array_le.mp shallow)
      apply depth_of_ofParts? made
      unfold inOrder? at ordered
      split at ordered
      · cases ordered
        intro found member
        exact within found.2 (List.of_mem_zip member).2
      · cases ordered
  | .object members =>
    obtain _ | limit := limit
    · simp [depth] at shallow
    rw [ofJson?] at made
    obtain ⟨given, each, made⟩ := Option.bind_eq_some_iff.mp made
    split at made
    · exact depth_of_ofParts? made (depth_of_ofMembers? each (depth_object_le.mp shallow))
    · cases made

theorem depth_of_ofItems? {items : List Json} {sections : List Section} {limit : Nat}
    (made : ofItems? items = some sections) (shallow : ∀ item ∈ items, item.depth ≤ limit) :
    ∀ content ∈ sections, content.toJson.depth ≤ limit := by
  match items with
  | [] =>
    cases made
    exact List.forall_mem_nil _
  -- The list is bounded item by item, each by the call for values.
  | item :: rest =>
    rw [ofItems?] at made
    obtain ⟨first, firstMade, made⟩ := Option.bind_eq_some_iff.mp made
    obtain ⟨others, othersMade, made⟩ := Option.bind_eq_some_iff.mp made
    obtain ⟨itemShallow, restShallow⟩ := List.forall_mem_cons.mp shallow
    cases made
    exact List.forall_mem_cons.mpr
      ⟨depth_of_ofJson? firstMade itemShallow, depth_of_ofItems? othersMade restShallow⟩

theorem depth_of_ofMembers? {members : List (String × Json)} {given : List (Part × Section)}
    {limit : Nat} (made : ofMembers? members = some given)
    (shallow : ∀ member ∈ members, member.2.depth ≤ limit) :
    ∀ found ∈ given, found.2.toJson.depth ≤ limit := by
  match members with
  | [] =>
    cases made
    exact List.forall_mem_nil _
  | (key, value) :: rest =>
    obtain ⟨valueShallow, restShallow⟩ := List.forall_mem_cons.mp shallow
    rw [ofMembers?] at made
    split at made
    -- A member with another key is no part, and only skipped.
    · exact depth_of_ofMembers? made restShallow
    · obtain ⟨first, firstMade, made⟩ := Option.bind_eq_some_iff.mp made
      obtain ⟨others, othersMade, made⟩ := Option.bind_eq_some_iff.mp made
      cases made
      exact List.forall_mem_cons.mpr
        ⟨depth_of_ofJson? firstMade valueShallow, depth_of_ofMembers? othersMade restShallow⟩

end

end Section

/-! ### The outermost description -/

namespace Layout

/-- A member gives a part of a layout: its key is that of the part, and its value describes it. -/
structure Gives (member : String × Json) (given : Part × Section) : Prop where
  key : member.1 = given.1.key
  value : Section.ofJson? member.2 = some given.2
  shallow : member.2.depth ≤ nestingLimit - 1

theorem readSection_front {json : Json} {text rest : List Char} (front : Front json text rest)
    (shallow : json.depth ≤ nestingLimit - 1) {content : Section}
    (described : Section.ofJson? json = some content) :
    readSection text = .ok (content, rest) := by
  have read : Json.read (nestingLimit - 1) text = .ok (json, rest) := by
    apply front.read
    · rw [enoughSteps]
      omega
    · exact shallow
  simp only [readSection, read, described]

theorem readMembers_front {first : Bool} {members : List (String × Json)} {text rest : List Char}
    (fronts : FrontMembers first members text rest) :
    ∀ steps before given, text.length ≤ steps → List.Forall₂ Gives members given →
      ((before ++ given).map Prod.fst).Nodup →
        readMembers before steps first text = .ok (before ++ given, rest) := by
  induction fronts with
  | stop ended =>
    intro steps before given enough gives _
    have := length_of_nextMember ended
    obtain _ | steps := steps
    · omega
    cases gives
    rw [readMembers, ended]
    simp [lift, bind, Except.bind, pure, Except.pure]
  | @member first key value members text behind behindKey behindColon after rest next key_read colon
      front _ ih =>
    intro steps before given enough gives distinct
    have := length_of_nextMember next
    have := length_of_takeString key_read
    have := length_of_takeColon colon
    have := front.shorter
    obtain _ | steps := steps
    · omega
    obtain ⟨⟨part, content⟩, given, this, later, rfl⟩ :
        ∃ found after, Gives (key, value) found ∧ List.Forall₂ Gives members after ∧
          given = found :: after := by
      cases gives with
      | cons this later => exact ⟨_, _, this, later, rfl⟩
    obtain ⟨rfl, described, shallow⟩ := this
    -- The parts before this one are other parts.
    have fresh : (before.any fun found => found.1 = part) = false := by
      simp only [List.any_eq_false, decide_eq_true_eq]
      intro found member same
      rw [List.map_append, List.nodup_append] at distinct
      exact distinct.2.2 found.1 (List.mem_map_of_mem member) part (by simp) same
    have section_read := readSection_front front shallow described
    have others_read := ih steps (before ++ [(part, content)]) given (by omega) later
      (by simpa using distinct)
    -- So the key is that of a part not given yet, and its section is read.
    rw [readMembers, next]
    simp only [lift, bind, Except.bind, if_true, key_read, Part.ofKey?_key, fresh,
      Bool.false_eq_true, if_false, colon, section_read, others_read]
    simp

theorem read_object (expected : String) {members : List (String × Json)}
    {text behind rest : List Char} (skipped : skipSpace text = '\x7b' :: behind)
    (fronts : FrontMembers true members behind rest) {given : List (Part × Section)}
    (gives : List.Forall₂ Gives members given) (distinct : (given.map Prod.fst).Nodup) :
    read expected text = .ok (.ofGiven given, rest) := by
  have members_read := readMembers_front fronts (behind.length + 1) [] given (Nat.le_succ _) gives
    distinct
  rw [read, skipped]
  simp only [Char.reduceEq, if_false, if_true, members_read, bind, Except.bind, pure, Except.pure,
    List.nil_append]

/-- The description that is written of a template is read back. -/
theorem read_writeCompact (expected : String) (template : Template)
    (shallow : template.layout.toJson.depth ≤ nestingLimit) :
    read expected (writeCompact template.layout.toJson) = .ok (template.layout, []) := by
  obtain ⟨⟨head, body, tail⟩, outlines, outlined⟩ := template
  obtain ⟨headed, bodied, tailed⟩ := Outlines.ofParts_eq_ok.mp outlined
  let given : List (Part × Section) := [(.head, head), (.body, body), (.tail, tail)]
  let members := given.map fun one => (one.1.key, one.2.toJson)
  have each : ∀ member ∈ members, Spells member.2 (writeCompact member.2) :=
    List.forall_mem_map.mpr fun one _ => one.2.spells_toJson
  have spells : SpellsMembers true members (writeMembers members ++ ['\x7d']) :=
    spellsMembers_compact _ _ each
  -- The parts are enclosed by one object more than they hold themselves.
  have within : ∀ member ∈ members, member.2.depth ≤ nestingLimit - 1 := depth_object_le.mp shallow
  have gives : List.Forall₂ Gives members given :=
    .cons ⟨rfl, Section.ofJson?_toJson headed, within _ (by simp [members, given])⟩
      (.cons ⟨rfl, Section.ofJson?_toJson bodied, within _ (by simp [members, given])⟩
        (.cons ⟨rfl, Section.ofJson?_toJson tailed, within _ (by simp [members, given])⟩ .nil))
  have fronts := spells.front []
  rw [List.append_nil] at fronts
  exact read_object expected rfl fronts gives (by simp [given])

/-! ### What is read can be written -/

theorem depth_of_readSection {text rest : List Char} {content : Section}
    (read : readSection text = .ok (content, rest)) :
    content.toJson.depth ≤ nestingLimit - 1 := by
  unfold readSection at read
  split at read
  · cases read
  next json after value_read =>
    split at read
    -- The value was read with one level less, and its section is no deeper.
    next made =>
      cases read
      exact Section.depth_of_ofJson? made (depth_le_of_readValue value_read)
    · cases read

/-- The parts found so far can all stand inside a description. -/
def Shallow (given : List (Part × Section)) : Prop :=
  ∀ found ∈ given, found.2.toJson.depth ≤ nestingLimit - 1

theorem Shallow.concat {given : List (Part × Section)} (shallow : Shallow given) (part : Part)
    {text rest : List Char} {content : Section} (read : readSection text = .ok (content, rest)) :
    Shallow (given ++ [(part, content)]) :=
  List.forall_mem_append.mpr
    ⟨shallow, List.forall_mem_singleton.mpr (depth_of_readSection read)⟩

theorem shallow_of_readItems {first : Bool} {before given : List (Part × Section)}
    {parts : List Part} {text rest : List Char}
    (read : readItems first before parts text = .ok (given, rest)) (shallow : Shallow before) :
    Shallow given := by
  -- On the parts; those read before are within the limit already.
  induction parts generalizing first before text with
  | nil =>
    obtain ⟨after, -, made⟩ := except_bind_eq_ok.mp read
    cases made
    exact shallow
  | cons part parts ih =>
    obtain ⟨⟨more, after⟩, -, read⟩ := except_bind_eq_ok.mp read
    dsimp only at read
    -- There may be fewer items than parts.
    split at read
    · obtain ⟨⟨content, after'⟩, section_read, read⟩ := except_bind_eq_ok.mp read
      exact ih read (shallow.concat part section_read)
    · cases read
      exact shallow

theorem shallow_of_readMembers {steps : Nat} {first : Bool} {before given : List (Part × Section)}
    {text rest : List Char} (read : readMembers before steps first text = .ok (given, rest))
    (shallow : Shallow before) : Shallow given := by
  induction steps generalizing first before text with
  | zero => cases read
  | succ steps ih =>
    obtain ⟨⟨more, after⟩, -, read⟩ := except_bind_eq_ok.mp read
    dsimp only at read
    split at read
    · obtain ⟨⟨key, behindKey⟩, -, read⟩ := except_bind_eq_ok.mp read
      dsimp only at read
      split at read
      · -- A member with another key is passed over.
        obtain ⟨behindColon, -, read⟩ := except_bind_eq_ok.mp read
        obtain ⟨behindValue, -, read⟩ := except_bind_eq_ok.mp read
        exact ih read shallow
      next part _ =>
        split at read
        · cases read
        obtain ⟨behindColon, -, read⟩ := except_bind_eq_ok.mp read
        obtain ⟨⟨content, after'⟩, section_read, read⟩ := except_bind_eq_ok.mp read
        exact ih read (shallow.concat part section_read)
    · cases read
      exact shallow

/-- What is written of a layout that was read from a text can be read again. -/
theorem depth_of_read {expected : String} {text rest : List Char} {layout : Layout}
    (read_eq : read expected text = .ok (layout, rest)) :
    layout.toJson.depth ≤ nestingLimit := by
  rw [read] at read_eq
  split at read_eq
  · cases read_eq
  split at read_eq
  · obtain ⟨⟨given, after⟩, items_read, made⟩ := except_bind_eq_ok.mp read_eq
    cases made
    exact depth_toJson_ofGiven (shallow_of_readItems items_read (List.forall_mem_nil _))
  split at read_eq
  · obtain ⟨⟨given, after⟩, members_read, made⟩ := except_bind_eq_ok.mp read_eq
    cases made
    exact depth_toJson_ofGiven (shallow_of_readMembers members_read (List.forall_mem_nil _))
  · -- A scalar is never a description.
    obtain ⟨⟨scalar, after⟩, -, made⟩ := except_bind_eq_ok.mp read_eq
    cases made

end Layout

namespace Template

theorem layout_of_parse {text : String} {template : Template}
    (parsed : parse text = .ok template) :
    ∃ rest, Layout.read "ParserDesc" text.toList = .ok (template.layout, rest) := by
  obtain ⟨⟨layout, rest⟩, layout_read, parsed⟩ := except_bind_eq_ok.mp parsed
  dsimp only at parsed
  split at parsed
  · cases parsed
  next made =>
    -- That the text ends is no concern here: the layout was read before.
    obtain ⟨-, -, same⟩ := except_bind_eq_ok.mp parsed
    cases same
    rw [Template.make_eq_ok.mp made]
    exact ⟨rest, layout_read⟩

/-- A template is read back from its description exactly if that does not nest too deep. It does not
if the template was read from a text, in whatever form. -/
theorem parse_compact_toJson :
    (∀ template : Template, parse template.layout.toJson.compact = .ok template ↔
      template.layout.toJson.depth ≤ Layout.nestingLimit) ∧
    ∀ text template, parse text = .ok template →
      parse template.layout.toJson.compact = .ok template := by
  -- Whatever was read was read within the limit, in any form.
  have shallow {text : String} {template : Template} (parsed : parse text = .ok template) :
      template.layout.toJson.depth ≤ Layout.nestingLimit := by
    obtain ⟨rest, layout_read⟩ := layout_of_parse parsed
    exact Layout.depth_of_read layout_read
  -- Within the limit the written text is read as the layout, and this makes the template.
  have back (template : Template) (within : template.layout.toJson.depth ≤ Layout.nestingLimit) :
      parse template.layout.toJson.compact = .ok template := by
    have made : make template.layout = .ok template := make_eq_ok.mpr rfl
    rw [parse, compact, String.toList_ofList, Layout.read_writeCompact _ template within]
    simp only [bind, Except.bind, made]
    rfl
  constructor
  · intro template
    exact ⟨shallow, back template⟩
  · intro text template parsed
    exact back template (shallow parsed)

/-- Parts in another order, a member with another key, a block as an array, and escapes. -/
theorem parse_compact_toJson_reordered :
    ∃ text template,
      text = "\x7b\"note\":[1e999],\"body\":[null,\"~!\"],\"head\":\"@.\\u0001\\ud83d\\ude00\"\x7d" ∧
      parse text = .ok template ∧
      template.layout = ⟨.line "@.\x01😀", .nested .absent (.line "~!") .absent, .absent⟩ ∧
      template.layout.toJson.compact = "\x7b\"head\":\"@.\\u0001😀\"," ++
        "\"body\":\x7b\"head\":null,\"body\":\"~!\",\"tail\":null\x7d,\"tail\":null\x7d" ∧
      parse template.layout.toJson.compact = .ok template := by
  let text :=
    "\x7b\"note\":[1e999],\"body\":[null,\"~!\"],\"head\":\"@.\\u0001\\ud83d\\ude00\"\x7d"
  let layout : Layout := ⟨.line "@.\x01😀", .nested .absent (.line "~!") .absent, .absent⟩
  -- That the text is read is computed; which template comes out is told by its layout.
  have answered : (parse text).isOk = true := by decide +kernel
  obtain ⟨template, parsed⟩ := exists_of_isOk answered
  have layout_eq : template.layout = layout := by
    have read_eq : (Layout.read "ParserDesc" text.toList).toOption = some (layout, []) := by
      decide +kernel
    obtain ⟨rest, layout_read⟩ := layout_of_parse parsed
    rw [layout_read] at read_eq
    exact congrArg Prod.fst (Option.some.inj read_eq)
  have back := parse_compact_toJson.2 text template parsed
  refine ⟨text, template, rfl, parsed, layout_eq, ?_, back⟩
  rw [layout_eq]
  decide +kernel

end Template

/-! ### Descriptions in a text -/

namespace Layout

/-- The name of what is looked for matters only to the wording of a fault. -/
theorem read_expected {expected : String} (expected' : String) {text rest : List Char}
    {layout : Layout} (read_eq : read expected text = .ok (layout, rest)) :
    read expected' text = .ok (layout, rest) := by
  rw [read] at read_eq ⊢
  split at read_eq
  · cases read_eq
  next c behind skipped =>
  by_cases isArray : c = '['
  · rwa [if_pos isArray] at read_eq ⊢
  by_cases isObject : c = '\x7b'
  · rwa [if_neg isArray, if_pos isObject] at read_eq ⊢
  -- A scalar is never a description.
  rw [if_neg isArray, if_neg isObject] at read_eq
  obtain ⟨⟨scalar, after⟩, -, made⟩ := except_bind_eq_ok.mp read_eq
  cases made

theorem lift_eq_ok {α : Type} {value : Except Json.TextFault α} {given : α} :
    lift value = .ok given ↔ value = .ok given := by
  cases value <;> simp [lift]

theorem parse_eq_ok (expected : String) {text : String} {layout : Layout} :
    parse text = .ok layout ↔
      ∃ rest, read expected text.toList = .ok (layout, rest) ∧ Json.endOfText rest = .ok () := by
  constructor
  · intro parsed
    obtain ⟨⟨layout', rest⟩, layout_read, parsed⟩ := except_bind_eq_ok.mp parsed
    obtain ⟨_, ended, made⟩ := except_bind_eq_ok.mp parsed
    -- Which name an error mentions makes no difference to what is read.
    cases made
    exact ⟨rest, read_expected expected layout_read, lift_eq_ok.mp ended⟩
  · rintro ⟨rest, layout_read, ended⟩
    rw [parse, read_expected "Description" layout_read]
    simp only [bind, Except.bind, ended, lift]
    rfl

/-- The parts that the members of an object give make the layout that the text describes. -/
theorem parse_object {text : String} {members : List (String × Json)}
    (parsed : Json.parse text = .ok (.object members)) {given : List (Part × Section)}
    (gives : List.Forall₂ Gives members given) (distinct : (given.map Prod.fst).Nodup) :
    parse text = .ok (.ofGiven given) := by
  obtain ⟨behind, rest, skipped, fronts, ended⟩ := Json.frontMembers_of_parse parsed
  have layout_read := read_object "Description" skipped fronts gives distinct
  exact (parse_eq_ok "Description").mpr ⟨rest, layout_read, ended⟩

end Layout

theorem Template.parse_eq_ok {text : String} {template : Template} :
    parse text = .ok template ↔ Layout.parse text = .ok template.layout := by
  rw [Layout.parse_eq_ok "ParserDesc"]
  constructor
  · intro parsed
    obtain ⟨⟨layout, rest⟩, layout_read, parsed⟩ := except_bind_eq_ok.mp parsed
    -- A layout that makes no template is reported before the end of the text is looked at.
    cases made : make layout with
    | error fault =>
      simp only [made] at parsed
      cases parsed
    | ok template' =>
      simp only [made] at parsed
      obtain ⟨_, ended, same⟩ := except_bind_eq_ok.mp parsed
      cases same
      rw [make_eq_ok.mp made]
      exact ⟨rest, layout_read, Layout.lift_eq_ok.mp ended⟩
  · rintro ⟨rest, layout_read, ended⟩
    have made : make template.layout = .ok template := make_eq_ok.mpr rfl
    rw [parse, layout_read]
    simp only [bind, Except.bind, made, ended, Layout.lift]
    rfl

end Gleaner
