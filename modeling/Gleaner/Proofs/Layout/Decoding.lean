import Gleaner.Proofs.Json.Arranging
import Gleaner.Proofs.Layout.Descriptions
import Mathlib.Data.List.Nodup

/-!
# Descriptions as token trees

What a text describes depends on its token tree alone. The outermost description and those inside it
are decoded by different readers: the outermost one takes its parts from the text as they come and
skims what it does not know, the others are read as values first and decoded then. On trees both are
the same function `given?`, apart from the care with which unknown members are read.
-/

namespace Gleaner

open Json

namespace Json.Tree

/-! ### Parts of a description -/

/-- The section that a tree describes if arrays and objects may enclose each other `room` times. -/
def section? (room : Nat) (tree : Tree) : Option Section :=
  (tree.json? .keep room).bind Section.ofJson?

/-- The part that a member gives, if any. A member with another key gives none, but it must be
readable. -/
def part? (care : Care) (room : Nat) (member : List Char × Tree) :
    Option (List (Part × Section)) := do
  let name ← keyOf? .keep member.1
  match Part.ofKey? name with
  | none => (member.2.json? care room).map fun _ => []
  | some part => (member.2.section? room).map fun content => [(part, content)]

/-- Parts of which none is given twice. -/
def distinct? (given : List (Part × Section)) : Option (List (Part × Section)) :=
  if (given.map Prod.fst).Nodup then some given else none

/-- The parts that a description gives. Members with other keys are read with the given care. -/
def given? (care : Care) (room : Nat) : Tree → Option (List (Part × Section))
  | scalar _ => none
  | array items => (items.mapM (section? room)).bind Section.inOrder?
  | object members => (members.mapM (part? care room)).bind fun found => distinct? found.flatten

/-- None of some parts is among those given before. -/
def Fresh (before parts : List (Part × Section)) : Prop :=
  ∀ found ∈ parts, found.1 ∉ before.map Prod.fst

instance (before parts : List (Part × Section)) : Decidable (Fresh before parts) :=
  inferInstanceAs (Decidable (∀ found ∈ parts, found.1 ∉ before.map Prod.fst))

theorem distinct?_of_not_fresh {before parts : List (Part × Section)} (old : ¬ Fresh before parts)
    (later : List (Part × Section)) : distinct? (before ++ (parts ++ later)) = none := by
  apply if_neg
  intro distinct
  rw [List.map_append, List.map_append, List.nodup_append] at distinct
  apply old
  intro found member given
  exact distinct.2.2 _ given _ (List.mem_append_left _ (List.mem_map_of_mem member)) rfl

theorem Fresh.nodup {before parts : List (Part × Section)} (fresh : Fresh before parts)
    (distinct : (before.map Prod.fst).Nodup) (distinct' : (parts.map Prod.fst).Nodup) :
    ((before ++ parts).map Prod.fst).Nodup := by
  rw [List.map_append]
  refine distinct.append distinct' ?_
  intro part given new
  obtain ⟨found, member, rfl⟩ := List.mem_map.mp new
  exact fresh found member given

theorem nodup_of_part? {care : Care} {room : Nat} {member : List Char × Tree}
    {parts : List (Part × Section)} (given : part? care room member = some parts) :
    (parts.map Prod.fst).Nodup := by
  obtain ⟨name, -, given⟩ := Option.bind_eq_some_iff.mp given
  split at given
  all_goals
    obtain ⟨_, -, rfl⟩ := Option.map_eq_some_iff.mp given
    simp

theorem values?_bind_ofItems? (room : Nat) (items : List Tree) :
    (values? .keep room items).bind Section.ofItems? = items.mapM (section? room) := by
  induction items with
  | nil =>
    rw [values?]
    rfl
  | cons item items ih =>
    rw [values?, List.mapM_cons, ← ih, section?]
    cases item.json? .keep room with
    | none => rfl
    | some value =>
      -- Nothing is made on either side once one of the later items cannot be read.
      cases values? .keep room items with
      | none => cases made : Section.ofJson? value <;> simp [made]
      | some values => simp [Section.ofItems?]

theorem members?_bind_ofMembers? (room : Nat) (members : List (List Char × Tree)) :
    (members? .keep room members).bind Section.ofMembers? =
      (members.mapM (part? .keep room)).map List.flatten := by
  induction members with
  | nil =>
    rw [members?]
    rfl
  | cons member members ih =>
    obtain ⟨key, value⟩ := member
    rw [members?, List.mapM_cons, part?]
    cases keyOf? .keep key with
    | none => rfl
    | some name =>
      cases read : value.json? .keep room with
      | none => cases known : Part.ofKey? name <;> simp [section?, read, known]
      | some json =>
        cases others : members? .keep room members with
        | none =>
          -- What cannot be read gives no parts, whether or not its key is that of a part.
          have noParts : members.mapM (part? .keep room) = none := by simpa [others] using ih.symm
          simp [noParts]
        | some values =>
          rw [others, Option.bind_some] at ih
          generalize members.mapM (part? .keep room) = found at ih ⊢
          cases known : Part.ofKey? name with
          | none => cases found <;> simp [Section.ofMembers?, known, ih]
          | some part =>
            cases made : Section.ofJson? json <;> cases found <;>
              simp [Section.ofMembers?, known, ih, section?, read, made]

theorem exists_value {room : Nat} {items : List Tree} {values : List Json}
    (read : values? .keep room items = some values) {item : Tree} (member : item ∈ items) :
    ∃ value ∈ values, item.json? .keep room = some value := by
  have each : items.mapM (json? .keep room) = some values := by
    rw [← read]
    clear read member
    induction items with
    | nil => rw [values?]; rfl
    | cons item items ih => rw [values?, List.mapM_cons, ih]
  exact exists_of_mem_right (option_mapM_eq_some.mp each).flip member

/-- A string is a scalar. -/
theorem json?_ne_string {care : Care} {room : Nat} {tree : Tree} {text : String}
    (container : ∀ token, tree ≠ scalar token) : tree.json? care room ≠ some (.string text) := by
  cases tree with
  | scalar token => exact absurd rfl (container token)
  -- Containers are read as containers, if they are read at all.
  | array items =>
    rw [json?]
    split
    · exact nofun
    · cases values? care (room - 1) items <;> exact nofun
  | object members =>
    rw [json?]
    split
    · exact nofun
    · cases members? care (room - 1) members <;> exact nofun

/-- An object inside a description describes what its parts make. -/
theorem section?_object (room : Nat) (members : List (List Char × Tree)) :
    (object members).section? (room + 1) =
      ((object members).given? .keep room).bind Section.ofParts? := by
  rw [section?, json?, given?, if_neg (by simp), Nat.add_sub_cancel]
  have parts := members?_bind_ofMembers? room members
  cases read : members? .keep room members with
  -- Members that cannot be read make no parts, and those that can are judged part by part.
  | none =>
    have noParts : members.mapM (part? .keep room) = none := by simpa [read] using parts.symm
    simp [noParts]
  | some values =>
    rw [read, Option.bind_some] at parts
    simp only [Option.map_some, Option.bind_some, Section.ofJson?, parts]
    cases members.mapM (part? .keep room) with
    | none => rfl
    | some found =>
      -- A part that is given twice is refused on both sides.
      simp only [Option.map_some, Option.bind_some, distinct?]
      split <;> simp

/-- So does an array, unless it holds nothing but strings. -/
theorem section?_array (room : Nat) {items : List Tree}
    (notLines : ∃ item ∈ items, ∀ token, item ≠ scalar token) :
    (array items).section? (room + 1) =
      ((array items).given? .keep room).bind Section.ofParts? := by
  rw [section?, json?, given?, if_neg (by simp), Nat.add_sub_cancel, ← values?_bind_ofItems?]
  cases read : values? .keep room items with
  | none => rfl
  | some values =>
    have noLines : values.mapM Json.string? = none := by
      -- One of the items is no scalar, so it is no string either.
      obtain ⟨item, member, container⟩ := notLines
      obtain ⟨value, found, item_read⟩ := exists_value read member
      by_contra lines
      obtain ⟨texts, strings⟩ := Option.ne_none_iff_exists'.mp lines
      rw [Section.mapM_string?_eq_some.mp strings] at found
      obtain ⟨text, -, rfl⟩ := List.mem_map.mp found
      exact json?_ne_string container item_read
    simp only [Option.map_some, Option.bind_some, Section.ofJson?, noLines]
    cases Section.ofItems? values <;> simp

end Json.Tree

/-! ### Reading the outermost description -/

namespace Layout

open Json.Tree

theorem lift_toOption {α : Type} (value : Except TextFault α) :
    (lift value).toOption = value.toOption := by
  cases value <;> rfl

theorem readSection_toOption {tree : Tree} {text rest : List Char} (front : tree.Front text rest) :
    (readSection text).toOption = (tree.section? (nestingLimit - 1)).map (·, rest) := by
  -- Reading comes first; what was read is judged afterwards.
  have decoded : (readSection text).toOption =
      (Json.read (nestingLimit - 1) text).toOption.bind fun read =>
        (Section.ofJson? read.1).map (·, read.2) := by
    unfold readSection
    cases Json.read (nestingLimit - 1) text with
    | error fault => rfl
    | ok read =>
      obtain ⟨json, after⟩ := read
      simp only [Except.toOption, Option.bind_some]
      cases Section.ofJson? json <;> rfl
  have enough : text.length ≤ enoughSteps text + rest.length := by
    rw [enoughSteps]
    omega
  rw [decoded, Json.read, front.read .keep _ _ enough, section?]
  cases tree.json? .keep (nestingLimit - 1) <;> rfl

/-- How deep a tree nests does not matter when it is skimmed. -/
theorem skim_toOption {tree : Tree} {text rest : List Char} (front : tree.Front text rest)
    (room : Nat) : (skim text).toOption = (tree.json? .skim room).map fun _ => rest := by
  have enough : text.length ≤ enoughSteps text + rest.length := by
    rw [enoughSteps]
    omega
  -- The values may differ, but there is one for both or for neither.
  have same : (tree.json? .skim 0).isSome = (tree.json? .skim room).isSome :=
    Bool.eq_iff_iff.mpr ⟨(isSome_skim · room), (isSome_skim · 0)⟩
  rw [skim, toOption_map, front.read .skim _ 0 enough]
  cases skimmed : tree.json? .skim 0 <;> cases skimmed' : tree.json? .skim room <;>
    simp_all

theorem endOfItems_of_nextItem {first : Bool} {text rest : List Char}
    (ended : nextItem .keep first text = .ok (false, rest)) : endOfItems text = .ok rest := by
  obtain ⟨gap, blanks, rfl⟩ := exists_end_of_nextItem ended
  rw [endOfItems, skipSpace_blanks blanks ']' rfl]
  rfl

/-- Where another item follows, the array does not end. -/
theorem endOfItems_toOption {first : Bool} {text rest : List Char}
    (next : nextItem .keep first text = .ok (true, rest)) : (endOfItems text).toOption = none := by
  unfold nextItem at next
  unfold endOfItems
  -- What follows is a first item or a comma; neither is the bracket that ends the array.
  split at next
  · cases next
  · cases next
  next c behind noEnd skipped =>
    rw [skipped]
    split
    · rfl
    next same =>
      cases same
      exact absurd rfl noEnd
    · split <;> rfl
    · rfl

theorem readItems_toOption {first : Bool} {items : List Tree} {text rest : List Char}
    (fronts : ItemsFront first items text rest) :
    ∀ before parts, (readItems first before parts text).toOption =
      (items.mapM (section? (nestingLimit - 1))).bind fun sections =>
        if sections.length ≤ parts.length then some (before ++ parts.zip sections, rest)
        else none := by
  induction fronts with
  | stop ended =>
    intro before parts
    cases parts with
    | nil =>
      rw [readItems, endOfItems_of_nextItem (ended .keep)]
      simp [bind, Except.bind, pure, Except.pure, Except.toOption]
    | cons part parts =>
      rw [readItems, ended .keep]
      simp [lift, bind, Except.bind, pure, Except.pure, Except.toOption]
  | @item first item items text behind after rest next front others ih =>
    intro before parts
    rw [List.mapM_cons]
    cases parts with
    | nil =>
      -- All parts are given, and yet there is another item.
      rw [readItems, toOption_bind, endOfItems_toOption (next .keep)]
      cases item.section? (nestingLimit - 1) <;>
        cases items.mapM (section? (nestingLimit - 1)) <;> simp
    | cons part parts =>
      rw [readItems, next .keep]
      change (readSection behind >>= fun read =>
        readItems false (before ++ [(part, read.1)]) parts read.2).toOption = _
      rw [toOption_bind, readSection_toOption front]
      cases item.section? (nestingLimit - 1) with
      | none => rfl
      | some content =>
        simp only [Option.map_some, Option.bind_some, ih]
        cases items.mapM (section? (nestingLimit - 1)) <;> simp

/-- A member adds the part that it gives to those before it, unless that is among them. -/
theorem readMembers_step {first : Bool} {key : List Char} {value : Tree}
    {text behind behindKey behindColon after : List Char}
    (next : nextMember .keep first text = .ok (true, behind))
    (key_read : (readString .keep behind).toOption = (keyOf? .keep key).map (·, behindKey))
    (colon : takeColon behindKey = .ok behindColon) (front : value.Front behindColon after)
    (steps : Nat) (before : List (Part × Section)) :
    (readMembers before (steps + 1) first text).toOption =
      (part? .skim (nestingLimit - 1) (key, value)).bind fun parts =>
        if Fresh before parts then (readMembers (before ++ parts) steps false after).toOption
        else none := by
  rw [readMembers, next, part?]
  change (lift (readString .keep behind) >>= fun read => _).toOption = _
  rw [toOption_bind, lift_toOption, key_read]
  cases keyOf? .keep key with
  | none => rfl
  | some name =>
    simp only [Option.map_some, Option.bind_some, bind, colon]
    cases Part.ofKey? name with
    | none =>
      -- A member with another key is passed over.
      change (lift (skim behindColon) >>= fun text =>
        readMembers before steps false text).toOption = _
      rw [toOption_bind, lift_toOption, skim_toOption front (nestingLimit - 1)]
      cases value.json? .skim (nestingLimit - 1) <;> simp [Fresh]
    | some part =>
      have given_iff : (before.any fun found => found.1 = part) = true ↔
          part ∈ before.map Prod.fst := by
        simp
      simp only [given_iff]
      split
      next old => cases value.section? (nestingLimit - 1) <;> simp_all [Fresh, Except.toOption]
      next new =>
        change (readSection behindColon >>= fun read =>
          readMembers (before ++ [(part, read.1)]) steps false read.2).toOption = _
        rw [toOption_bind, readSection_toOption front]
        cases value.section? (nestingLimit - 1) <;> simp_all [Fresh]

/-- The members of the outermost description, behind some that are known already. -/
theorem readMembers_toOption {first : Bool} {members : List (List Char × Tree)}
    {text rest : List Char} (fronts : MembersFront first members text rest) :
    ∀ steps before, text.length ≤ steps → (before.map Prod.fst).Nodup →
      (readMembers before steps first text).toOption =
        (members.mapM (part? .skim (nestingLimit - 1))).bind fun found =>
          (distinct? (before ++ found.flatten)).map (·, rest) := by
  -- On the members; the parts `before` were given by the members that are read already.
  induction fronts with
  | stop ended =>
    intro steps before enough distinct
    have := length_of_nextMember (ended .keep)
    -- The brace is still to be read, so there is a step left.
    obtain _ | steps := steps
    · omega
    rw [readMembers, ended .keep]
    simp [lift, distinct?, distinct, bind, Except.bind, pure, Except.pure, Except.toOption]
  | @member first key value members text behind behindKey behindColon after rest next key_read
      key_shorter colon front others ih =>
    intro steps before enough distinct
    have := length_of_nextMember (next .keep)
    have := length_of_takeColon colon
    have := front.shorter
    -- A member is never empty, so the others have a step less to go.
    obtain _ | steps := steps
    · omega
    rw [readMembers_step (next .keep) (key_read .keep) colon front, List.mapM_cons]
    cases given : part? .skim (nestingLimit - 1) (key, value) with
    | none => rfl
    | some parts =>
      rw [Option.bind_some]
      split
      -- The part is new, and so it stays for the members that follow.
      next fresh =>
        rw [ih steps _ (by omega) (fresh.nodup distinct (nodup_of_part? given))]
        cases members.mapM (part? .skim (nestingLimit - 1)) <;> simp
      -- The part is there already: the reader stops here, the list of all parts has it twice.
      next old =>
        cases members.mapM (part? .skim (nestingLimit - 1)) <;>
          simp [distinct?_of_not_fresh old]

theorem read_toOption (expected : String) {tree : Tree} (proper : tree.Proper) {text : List Char}
    (consists : ConsistsOf tree.tokens text) :
    ∃ rest, Blanks rest ∧ (read expected text).toOption =
      (tree.given? .skim (nestingLimit - 1)).map fun given => (.ofGiven given, rest) := by
  rw [← List.append_nil tree.tokens] at consists
  -- By the form of the outermost value, of which the first token decides.
  match tree with
  -- Nothing is described by a scalar.
  | .scalar token =>
    obtain ⟨c, tail, rfl, -, solid, noArray, -, noObject⟩ := exists_of_proper_scalar proper
    rw [tokens] at consists
    obtain ⟨gap, rest, blanks, rfl, consists⟩ := consists
    refine ⟨rest, consists, ?_⟩
    rw [read, List.cons_append, skipSpace_blanks blanks c solid]
    simp only [if_neg noArray, if_neg noObject]
    cases readScalar .keep c (tail ++ rest) <;> rfl
  -- An array gives its parts in the order head, body and tail.
  | .array items =>
    rw [tokens] at consists
    obtain ⟨gap, behind, blanks, rfl, consists⟩ := consists
    obtain ⟨rest, consists, fronts⟩ := exists_itemsFront (proper_array.mp proper) consists
    refine ⟨rest, consists, ?_⟩
    have items_read := readItems_toOption fronts [] Part.all
    rw [read, List.singleton_append, skipSpace_blanks blanks '[' rfl]
    simp only [if_true]
    -- The binding is named, so that `toOption` can be pushed through it.
    change (readItems true [] Part.all behind >>= fun read =>
      pure (ofGiven read.1, read.2)).toOption = _
    rw [toOption_bind, items_read, given?]
    cases items.mapM (section? (nestingLimit - 1)) with
    | none => rfl
    | some sections =>
      simp only [Option.bind_some, Section.inOrder?]
      split <;> rfl
  -- An object gives its parts by their keys.
  | .object members =>
    rw [tokens] at consists
    obtain ⟨gap, behind, blanks, rfl, consists⟩ := consists
    obtain ⟨rest, consists, fronts⟩ := exists_membersFront (proper_object.mp proper) consists
    refine ⟨rest, consists, ?_⟩
    have members_read := readMembers_toOption fronts (behind.length + 1) [] (Nat.le_succ _) .nil
    rw [read, List.singleton_append, skipSpace_blanks blanks '\x7b' rfl]
    simp only [Char.reduceEq, if_false, if_true]
    change (readMembers [] (behind.length + 1) true behind >>= fun read =>
      pure (ofGiven read.1, read.2)).toOption = _
    rw [toOption_bind, members_read, given?]
    cases members.mapM (part? .skim (nestingLimit - 1)) with
    | none => rfl
    | some found =>
      simp only [Option.bind_some, List.nil_append]
      cases distinct? found.flatten <;> rfl

/-- A text describes what its tree describes. -/
theorem parse_toOption {tree : Tree} {text : String} (written : tree.Written text) :
    (parse text).toOption = (tree.given? .skim (nestingLimit - 1)).map .ofGiven := by
  obtain ⟨rest, blanks, layout_read⟩ := read_toOption "Description" written.proper written.consists
  rw [parse, toOption_bind, layout_read]
  cases tree.given? .skim (nestingLimit - 1) with
  | none => rfl
  | some given =>
    simp only [Option.map_some, Option.bind_some, endOfText_eq_ok.mpr blanks]
    rfl

/-! ### Every description has a tree -/

theorem exists_of_readSection {text rest : List Char} {content : Section}
    (read : readSection text = .ok (content, rest)) :
    ∃ tree : Tree, tree.Proper ∧ Takes tree.tokens text rest := by
  unfold readSection at read
  split at read
  · cases read
  next json after value_read =>
    split at read <;> cases read
    exact exists_of_readValue value_read

theorem exists_of_skim {text rest : List Char} (skimmed : skim text = .ok rest) :
    ∃ tree : Tree, tree.Proper ∧ Takes tree.tokens text rest := by
  obtain ⟨⟨json, after⟩, value_read, rfl⟩ := except_map_eq_ok.mp skimmed
  exact exists_of_readValue value_read

theorem exists_end_of_endOfItems {text rest : List Char} (ended : endOfItems text = .ok rest) :
    ∃ gap, Blanks gap ∧ text = gap ++ ']' :: rest := by
  unfold endOfItems at ended
  split at ended
  · cases ended
  next skipped =>
    cases ended
    exact exists_blanks_of_skipSpace skipped
  · split at ended <;> cases ended
  · cases ended

theorem exists_of_readItems {parts : List Part} {first : Bool} {before given : List (Part × Section)}
    {text rest : List Char} (read : readItems first before parts text = .ok (given, rest)) :
    ∃ items, (values? .skim 0 items).isSome ∧ Takes (itemTokens first items) text rest := by
  -- On the parts that may still be given; with none left the array has to end.
  induction parts generalizing first before text with
  | nil =>
    obtain ⟨after, ended, made⟩ := except_bind_eq_ok.mp read
    cases made
    obtain ⟨gap, blanks, rfl⟩ := exists_end_of_endOfItems ended
    exact ⟨[], by rw [values?]; rfl, takes_noItems (nextItem_end blanks .keep first rest)⟩
  | cons part parts ih =>
    obtain ⟨⟨more, behind⟩, next, read⟩ := except_bind_eq_ok.mp read
    rw [lift_eq_ok] at next
    cases more with
    | false =>
      cases read
      exact ⟨[], by rw [values?]; rfl, takes_noItems next⟩
    | true =>
      obtain ⟨⟨content, after⟩, section_read, read⟩ := except_bind_eq_ok.mp read
      -- Each part that is read has a tree, and these make up the items.
      obtain ⟨item, itemProper, takes⟩ := exists_of_readSection section_read
      obtain ⟨items, othersProper, others⟩ := ih read
      exact ⟨item :: items, isSome_values?_cons.mpr ⟨itemProper, othersProper⟩,
        takes_item next takes others⟩

theorem exists_of_readMembers {steps : Nat} {first : Bool} {before given : List (Part × Section)}
    {text rest : List Char} (read : readMembers before steps first text = .ok (given, rest)) :
    ∃ members, (members? .skim 0 members).isSome ∧ Takes (memberTokens first members) text rest := by
  induction steps generalizing first before text with
  | zero => cases read
  | succ steps ih =>
    obtain ⟨⟨more, behind⟩, next, read⟩ := except_bind_eq_ok.mp read
    rw [lift_eq_ok] at next
    cases more with
    | false =>
      cases read
      exact ⟨[], by rw [members?]; rfl, takes_noMembers next⟩
    | true =>
      obtain ⟨⟨name, behindKey⟩, key_read, read⟩ := except_bind_eq_ok.mp read
      rw [lift_eq_ok] at key_read
      -- Whether it is a part or passed over, the value of the member is read as a tree.
      obtain ⟨before', value, behindColon, after, colon, valueProper, takes, read⟩ :
          ∃ before' value behindColon after, takeColon behindKey = .ok behindColon ∧
            Proper value ∧ Takes value.tokens behindColon after ∧
              readMembers before' steps false after = .ok (given, rest) := by
        dsimp only at read
        split at read
        · obtain ⟨behindColon, colon, read⟩ := except_bind_eq_ok.mp read
          obtain ⟨after, skimmed, read⟩ := except_bind_eq_ok.mp read
          obtain ⟨value, valueProper, takes⟩ := exists_of_skim (lift_eq_ok.mp skimmed)
          exact ⟨_, value, behindColon, after, lift_eq_ok.mp colon, valueProper, takes, read⟩
        · split at read
          · cases read
          obtain ⟨behindColon, colon, read⟩ := except_bind_eq_ok.mp read
          obtain ⟨⟨content, after⟩, section_read, read⟩ := except_bind_eq_ok.mp read
          obtain ⟨value, valueProper, takes⟩ := exists_of_readSection section_read
          exact ⟨_, value, behindColon, after, lift_eq_ok.mp colon, valueProper, takes, read⟩
      obtain ⟨members, othersProper, others⟩ := ih read
      obtain ⟨key, keyProper, takes⟩ := exists_key next key_read colon takes others
      exact ⟨(key, value) :: members,
        isSome_members?_cons.mpr ⟨keyProper, valueProper, othersProper⟩, takes⟩

theorem exists_written {text : String} {layout : Layout} (parsed : parse text = .ok layout) :
    ∃ tree : Tree, tree.Written text := by
  obtain ⟨rest, layout_read, ended⟩ := (parse_eq_ok "Description").mp parsed
  have blanks := endOfText_eq_ok.mp ended
  have written {tree : Tree} (proper : tree.Proper) (takes : Takes tree.tokens text.toList rest) :
      tree.Written text :=
    ⟨proper, by simpa using takes [] blanks⟩
  rw [read] at layout_read
  split at layout_read
  · cases layout_read
  next c behind skipped =>
  obtain ⟨gap, blanks, text_eq⟩ := exists_blanks_of_skipSpace skipped
  split at layout_read
  next isArray =>
    subst isArray
    obtain ⟨⟨given, after⟩, items_read, made⟩ := except_bind_eq_ok.mp layout_read
    cases made
    obtain ⟨items, proper, takes⟩ := exists_of_readItems items_read
    refine ⟨.array items, written (proper_array.mpr proper) ?_⟩
    rw [tokens, text_eq]
    exact (Takes.token blanks ['['] behind).append takes
  next =>
  split at layout_read
  next isObject =>
    subst isObject
    obtain ⟨⟨given, after⟩, members_read, made⟩ := except_bind_eq_ok.mp layout_read
    cases made
    obtain ⟨members, proper, takes⟩ := exists_of_readMembers members_read
    refine ⟨.object members, written (proper_object.mpr proper) ?_⟩
    rw [tokens, text_eq]
    exact (Takes.token blanks ['\x7b'] behind).append takes
  next =>
    -- A scalar is never a description.
    obtain ⟨⟨scalar, after⟩, -, made⟩ := except_bind_eq_ok.mp layout_read
    cases made

end Layout

end Gleaner
