import Gleaner.Proofs.Layout.Decoding
import Mathlib.Data.List.Perm.Basic
import Mathlib.Logic.Relation

/-!
# Rearranged descriptions

What a text describes does not depend on how its objects are laid out: their members may stand in
any order, members that say `null` may be left out, members with other keys may be added, and blanks
may stand between all tokens. This holds for the outermost description and for those inside it,
which are decoded in another way, so a change is followed from the object where it is made up to the
outermost one: what an object gives as parts makes the same layout before and after.
-/

namespace Gleaner

open Json

/-! ### Parts in another order -/

theorem partAmong_cons (found : Part × Section) (given : List (Part × Section)) (part : Part) :
    partAmong (found :: given) part = if found.1 = part then found.2 else partAmong given part := by
  unfold partAmong
  rw [List.find?_cons]
  by_cases same : found.1 = part <;> simp [same]

/-- A part that is not given is absent. -/
theorem partAmong_of_notMem {given : List (Part × Section)} {part : Part}
    (missing : part ∉ given.map Prod.fst) : partAmong given part = .absent := by
  induction given with
  | nil => rfl
  | cons found given ih =>
    rw [List.map_cons, List.mem_cons, not_or] at missing
    rw [partAmong_cons, if_neg (Ne.symm missing.1), ih missing.2]

theorem partAmong_perm {given given' : List (Part × Section)} (same : given.Perm given')
    (distinct : (given.map Prod.fst).Nodup) (part : Part) :
    partAmong given part = partAmong given' part := by
  induction same with
  | nil => rfl
  | cons found _ ih =>
    rw [List.map_cons, List.nodup_cons] at distinct
    rw [partAmong_cons, partAmong_cons, ih distinct.2]
  | swap found found' given =>
    -- Two parts that change places are different parts.
    have apart : found'.1 ≠ found.1 := by
      rw [List.map_cons, List.map_cons, List.nodup_cons] at distinct
      exact fun same => distinct.1 (List.mem_cons.mpr (.inl same))
    simp only [partAmong_cons]
    by_cases first : found'.1 = part
    · rw [if_pos first, if_neg fun second => apart (first.trans second.symm), if_pos first]
    · simp only [if_neg first]
  | trans first _ ih ih' =>
    rw [ih distinct, ih' ((first.map Prod.fst).nodup_iff.mp distinct)]

theorem Layout.ofGiven_congr {given given' : List (Part × Section)}
    (same : ∀ part, partAmong given part = partAmong given' part) :
    ofGiven given = ofGiven given' := by
  simp only [ofGiven, same]

namespace Json.Tree

/-! ### Changes -/

/-- A change in the layout of a description, or of one inside it. Arrays and objects may enclose
each other `room` times inside of it, and members with other keys are read with the given care. As
members may be put in any order, it is always the first one that is left out, added or changed. -/
inductive Rearranges : Care → Nat → Tree → Tree → Prop where
  | permute {care : Care} {room : Nat} {members members' : List (List Char × Tree)}
    (same : members.Perm members') : Rearranges care room (object members) (object members')
  | leaveOut {care : Care} {room : Nat} {key : List Char} {members : List (List Char × Tree)}
    (part : Part) (known : keyOf? .keep key = some part.key) :
    Rearranges care room (object ((key, scalar writeNull) :: members)) (object members)
  | add {care : Care} {room : Nat} {key : List Char} {value : Tree}
    {members : List (List Char × Tree)} (name : String) (named : keyOf? .keep key = some name)
    (unknown : Part.ofKey? name = none) (readable : (value.json? care room).isSome) :
    Rearranges care room (object members) (object ((key, value) :: members))
  | member {care : Care} {room : Nat} {key : List Char} {value value' : Tree}
    {members : List (List Char × Tree)} (part : Part) (known : keyOf? .keep key = some part.key)
    (inside : Rearranges .keep room value value') :
    Rearranges care (room + 1) (object ((key, value) :: members))
      (object ((key, value') :: members))
  | item {care : Care} {room : Nat} {item item' : Tree} (before after : List Tree)
    (inside : Rearranges .keep room item item') :
    Rearranges care (room + 1) (array (before ++ item :: after)) (array (before ++ item' :: after))

theorem part?_of_known {key : List Char} {part : Part} (known : keyOf? .keep key = some part.key)
    (care : Care) (room : Nat) (value : Tree) :
    part? care room (key, value) = (value.section? room).map fun content => [(part, content)] := by
  rw [part?, known]
  simp only [Option.bind_some, bind, Part.ofKey?_key]

theorem section?_null (room : Nat) : (scalar writeNull).section? room = some .absent := rfl

theorem given?_object_eq_some {care : Care} {room : Nat} {members : List (List Char × Tree)}
    {given : List (Part × Section)} :
    (object members).given? care room = some given ↔
      ∃ found, List.Forall₂ (fun member parts => part? care room member = some parts) members found ∧
        found.flatten = given ∧ (given.map Prod.fst).Nodup := by
  rw [given?, Option.bind_eq_some_iff]
  simp only [distinct?, Option.ite_none_right_eq_some, Option.some.injEq, option_mapM_eq_some]
  constructor
  · rintro ⟨found, each, distinct, rfl⟩
    exact ⟨found, each, rfl, distinct⟩
  · rintro ⟨found, each, rfl, distinct⟩
    exact ⟨found, each, distinct, rfl⟩

/-- The parts of one tree make the same layout as those of another. -/
def Carries (care : Care) (room : Nat) (tree tree' : Tree) : Prop :=
  ∀ given, tree.given? care room = some given →
    ∃ given', tree'.given? care room = some given' ∧ Layout.ofGiven given' = Layout.ofGiven given

namespace Rearranges

variable {care : Care} {room : Nat} {tree tree' : Tree}

theorem container (change : Rearranges care room tree tree') :
    (∀ token, tree ≠ scalar token) ∧ ∀ token, tree' ≠ scalar token := by
  cases change <;> exact ⟨nofun, nofun⟩

/-- A tree that is changed is no list of lines, so it describes what its parts make. -/
theorem section?_eq (change : Rearranges .keep room tree tree') :
    tree.section? (room + 1) = (tree.given? .keep room).bind Section.ofParts? ∧
      tree'.section? (room + 1) = (tree'.given? .keep room).bind Section.ofParts? := by
  cases change with
  | permute | leaveOut | add | member => exact ⟨section?_object _ _, section?_object _ _⟩
  | item before after inside =>
    constructor
    · exact section?_array _ ⟨_, by simp, inside.container.1⟩
    · exact section?_array _ ⟨_, by simp, inside.container.2⟩

theorem section?_eq_some (change : Rearranges .keep room tree tree')
    (carries : Carries .keep room tree tree') {content : Section}
    (described : tree.section? (room + 1) = some content) :
    tree'.section? (room + 1) = some content := by
  obtain ⟨eq, eq'⟩ := change.section?_eq
  rw [eq] at described
  obtain ⟨given, found, made⟩ := Option.bind_eq_some_iff.mp described
  obtain ⟨given', found', same⟩ := carries given found
  rw [eq', found', Option.bind_some, ← made, Section.ofParts?, Section.ofParts?, same]

/-- Each change keeps the layout that the parts make. -/
theorem carries (change : Rearranges care room tree tree') : Carries care room tree tree' := by
  induction change with
  | permute same =>
    intro given found
    obtain ⟨parts, each, rfl, distinct⟩ := given?_object_eq_some.mp found
    -- The parts that the members give are permuted like the members.
    obtain ⟨parts', each', same'⟩ := List.perm_comp_forall₂ same.symm each
    have sameParts := same'.flatten
    refine ⟨parts'.flatten, given?_object_eq_some.mpr ⟨parts', each', rfl, ?_⟩, ?_⟩
    · exact (sameParts.map Prod.fst).nodup_iff.mpr distinct
    · exact Layout.ofGiven_congr fun part =>
        (partAmong_perm sameParts.symm distinct part).symm
  | leaveOut part known =>
    intro given found
    obtain ⟨_, ⟨⟩ | ⟨first, each⟩, rfl, distinct⟩ := given?_object_eq_some.mp found
    rw [part?_of_known known, section?_null] at first
    cases first
    obtain ⟨missing, distinct⟩ := List.nodup_cons.mp distinct
    refine ⟨_, given?_object_eq_some.mpr ⟨_, each, rfl, distinct⟩, ?_⟩
    apply Layout.ofGiven_congr
    intro part'
    -- The part that said nothing is absent either way.
    change _ = partAmong ((part, .absent) :: _) part'
    rw [partAmong_cons]
    split
    next same =>
      subst same
      exact partAmong_of_notMem missing
    next => rfl
  | @add care room key value members name named unknown readable =>
    intro given found
    obtain ⟨parts, each, rfl, distinct⟩ := given?_object_eq_some.mp found
    have noPart : part? care room (key, value) = some [] := by
      obtain ⟨json, read⟩ := Option.isSome_iff_exists.mp readable
      simp [part?, named, unknown, read]
    exact ⟨_, given?_object_eq_some.mpr ⟨[] :: parts, .cons noPart each, rfl, distinct⟩, rfl⟩
  | @member care room key value value' members part known inside ih =>
    intro given found
    obtain ⟨_, ⟨⟩ | ⟨first, each⟩, rfl, distinct⟩ := given?_object_eq_some.mp found
    -- The changed value describes the same section, so the member gives the same part.
    have same : part? care (room + 1) (key, value') = part? care (room + 1) (key, value) := by
      rw [part?_of_known known] at first
      obtain ⟨content, described, -⟩ := Option.map_eq_some_iff.mp first
      have described' := inside.section?_eq_some ih described
      rw [part?_of_known known, part?_of_known known, described, described']
    exact ⟨_, given?_object_eq_some.mpr ⟨_, .cons (same.trans first) each, rfl, distinct⟩, rfl⟩
  | @item care room item item' before after inside ih =>
    intro given found
    obtain ⟨sections, each, -⟩ := Option.bind_eq_some_iff.mp found
    have member : item ∈ before ++ item :: after := by simp
    obtain ⟨content, -, described⟩ :=
      exists_of_mem_right (option_mapM_eq_some.mp each).flip member
    have same : item'.section? (room + 1) = item.section? (room + 1) :=
      (inside.section?_eq_some ih described).trans described.symm
    refine ⟨given, ?_, rfl⟩
    rw [given?, List.mapM_append, List.mapM_cons, same, ← List.mapM_cons, ← List.mapM_append]
    exact found

end Rearranges

/-- So does a sequence of changes. -/
theorem carries_of_reflTransGen {care : Care} {room : Nat} {tree tree' : Tree}
    (changes : Relation.ReflTransGen (Rearranges care room) tree tree') :
    Carries care room tree tree' := by
  induction changes with
  | refl => exact fun given found => ⟨given, found, rfl⟩
  | tail _ change ih =>
    intro given found
    obtain ⟨given', found', same⟩ := ih given found
    obtain ⟨given'', found'', same'⟩ := change.carries given' found'
    exact ⟨given'', found'', same'.trans same⟩

end Json.Tree

/-! ### Rearranged texts -/

namespace Template

/-- A text with the same tree up to rearrangement gives the same template, and with it the same
pattern, whatever the blanks between its tokens are; and every text that gives a template has a tree.
Added members of the outermost object are only skimmed, those of an object inside it must be readable
within the limit. -/
theorem parse_rearranged :
    (∀ text template, parse text = .ok template → ∃ tree : Tree, tree.Written text) ∧
    ∀ (text text' : String) (tree tree' : Tree) (template : Template),
      parse text = .ok template → tree.Written text →
      Relation.ReflTransGen (Tree.Rearranges .skim (Layout.nestingLimit - 1)) tree tree' →
      tree'.Written text' → parse text' = .ok template := by
  constructor
  · intro text template parsed
    exact Layout.exists_written (parse_eq_ok.mp parsed)
  · intro text text' tree tree' template parsed written changes written'
    -- Both texts describe what the parts of their trees make.
    have layout_read := toOption_eq_some.mpr (parse_eq_ok.mp parsed)
    rw [Layout.parse_toOption written] at layout_read
    obtain ⟨given, found, made⟩ := Option.map_eq_some_iff.mp layout_read
    obtain ⟨given', found', same⟩ := Tree.carries_of_reflTransGen changes given found
    apply parse_eq_ok.mpr
    apply toOption_eq_some.mp
    rw [Layout.parse_toOption written', found', Option.map_some, same, made]

/-- A block inside a block: at both levels members change places, one that says `null` is left out
and one with another key is added. -/
theorem parse_rearranged_nested :
    ∃ text text' template,
      text = "\x7b\"body\":\x7b\"body\":[\"~!\"],\"head\":null\x7d," ++
        "\"tail\":null,\"head\":\"~\"\x7d" ∧
      text' = " \x7b\"a\": [true, \x7b\x7d],\n\"head\": \"~\"," ++
        "\n\"body\": \x7b\"b\": \"\\n\", \"body\": [\"~!\" ]\x7d \x7d\n" ∧
      parse text = .ok template ∧ parse text' = .ok template := by
  let head := ("\"head\"".toList, Tree.scalar "\"~\"".toList)
  let noHead := ("\"head\"".toList, Tree.scalar writeNull)
  let noTail := ("\"tail\"".toList, Tree.scalar writeNull)
  let lines := ("\"body\"".toList, Tree.array [.scalar "\"~!\"".toList])
  let other := ("\"a\"".toList, Tree.array [.scalar "true".toList, .object []])
  let other' := ("\"b\"".toList, Tree.scalar "\"\\n\"".toList)
  let body (members : List (List Char × Tree)) := ("\"body\"".toList, Tree.object members)
  let tree : Tree := .object [body [lines, noHead], noTail, head]
  let tree' : Tree := .object [other, head, body [other', lines]]
  have known (part : Part) : Tree.keyOf? .keep ('\x22' :: part.key.toList ++ ['\x22']) =
      some part.key := by
    cases part <;> decide +kernel
  have inside {members members' others : List (List Char × Tree)}
      (change : Tree.Rearranges .keep 125 (.object members) (.object members')) :
      Tree.Rearranges .skim (Layout.nestingLimit - 1) (.object (body members :: others))
        (.object (body members' :: others)) :=
    .member .body (known .body) change
  -- Inside the body the members change places, one goes and one comes; then the same outside.
  have changes :
      Relation.ReflTransGen (Tree.Rearranges .skim (Layout.nestingLimit - 1)) tree tree' :=
    .head (inside (.permute (.swap _ _ _))) <|
    .head (inside (.leaveOut .head (known .head))) <|
    .head (inside (.add "b" (by decide +kernel) (by decide) (by decide +kernel))) <|
    .head (.permute ((List.Perm.swap _ _ _).trans ((List.Perm.swap _ _ _).cons _))) <|
    .head (.leaveOut .tail (known .tail)) <|
    .single (.add "a" (by decide +kernel) (by decide) (by decide +kernel))
  let text := "\x7b\"body\":\x7b\"body\":[\"~!\"],\"head\":null\x7d," ++
    "\"tail\":null,\"head\":\"~\"\x7d"
  let text' := " \x7b\"a\": [true, \x7b\x7d],\n\"head\": \"~\"," ++
    "\n\"body\": \x7b\"b\": \"\\n\", \"body\": [\"~!\" ]\x7d \x7d\n"
  have answered : (parse text).isOk = true := by decide +kernel
  obtain ⟨template, parsed⟩ := exists_of_isOk answered
  have written : tree.Written text :=
    ⟨by decide +kernel, consistsOf_of_findTokens (by decide +kernel)⟩
  have written' : tree'.Written text' :=
    ⟨by decide +kernel, consistsOf_of_findTokens (by decide +kernel)⟩
  have parsed' := parse_rearranged.2 text text' tree tree' template parsed written changes written'
  exact ⟨text, text', template, rfl, rfl, parsed, parsed'⟩

end Template

end Gleaner
