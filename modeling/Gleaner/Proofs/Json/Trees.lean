import Gleaner.Proofs.Json.Scalars

/-!
# Token trees

The tree of a text holds its tokens as they are written, arranged as the value is. It leaves open
what the tokens stand for, how deep they may nest and which blanks stand between them.

What is read off a text depends on its tree alone. `Tree.Front`, `ItemsFront` and `MembersFront`
follow the reader along the tree, whether it reads or skims.
-/

namespace Gleaner.Json

/-- The tokens of a value. The key of a member is a token with its quotes. -/
inductive Tree where
  | scalar (token : List Char)
  | array (items : List Tree)
  | object (members : List (List Char × Tree))

namespace Tree

/-- The token between an item or member and the one before it. -/
def comma (first : Bool) : List (List Char) :=
  if first then [] else [[',']]

mutual

/-- The tokens of a tree in the order of the text. -/
def tokens : Tree → List (List Char)
  | scalar token => [token]
  | array items => ['['] :: itemTokens true items
  | object members => ['\x7b'] :: memberTokens true members

/-- The tokens of items, with the closing bracket. -/
def itemTokens (first : Bool) : List Tree → List (List Char)
  | [] => [[']']]
  | item :: rest => comma first ++ (item.tokens ++ itemTokens false rest)

/-- The tokens of members, with the closing brace. -/
def memberTokens (first : Bool) : List (List Char × Tree) → List (List Char)
  | [] => [['\x7d']]
  | (key, value) :: rest =>
    comma first ++ (key :: [':'] :: (value.tokens ++ memberTokens false rest))

end

/-- The scalar that a token stands for. -/
def scalarOf? (care : Care) : List Char → Option Scalar
  | [] => none
  | c :: rest => whole? (readScalar care c) rest

/-- The key that a token stands for. -/
def keyOf? (care : Care) : List Char → Option String
  | '\x22' :: rest => whole? (readString care) rest
  | _ => none

mutual

/-- The value that a tree stands for. Arrays and objects may enclose each other `room` times unless
the tree is only skimmed. -/
def json? (care : Care) (room : Nat) : Tree → Option Json
  | scalar token => (scalarOf? care token).map Scalar.toJson
  | array items =>
    if care = .keep ∧ room = 0 then none else (values? care (room - 1) items).map .array
  | object members =>
    if care = .keep ∧ room = 0 then none else (members? care (room - 1) members).map .object

def values? (care : Care) (room : Nat) : List Tree → Option (List Json)
  | [] => some []
  | item :: rest => do
    let first ← item.json? care room
    let others ← values? care room rest
    return first :: others

def members? (care : Care) (room : Nat) : List (List Char × Tree) → Option (List (String × Json))
  | [] => some []
  | (key, value) :: rest => do
    let name ← keyOf? care key
    let first ← value.json? care room
    let others ← members? care room rest
    return (name, first) :: others

end

/-- All the tokens of a tree are tokens of JSON. -/
def Proper (tree : Tree) : Prop :=
  (tree.json? .skim 0).isSome

end Tree

/-- A text consists of some tokens, with any blanks between and around them. -/
def ConsistsOf : List (List Char) → List Char → Prop
  | [], text => Blanks text
  | token :: more, text => ∃ gap rest, Blanks gap ∧ text = gap ++ (token ++ rest) ∧ ConsistsOf more rest

/-- A text is written with the tokens of a tree. -/
structure Tree.Written (tree : Tree) (text : String) : Prop where
  proper : tree.Proper
  consists : ConsistsOf tree.tokens text.toList

instance (tree : Tree) : Decidable tree.Proper :=
  inferInstanceAs (Decidable (_ = true))

/-- Finds some tokens in a text one after the other, passing over blanks. -/
def findTokens : List (List Char) → List Char → Bool
  | [], text => (skipSpace text).isEmpty
  | token :: more, text =>
    token.isPrefixOf (skipSpace text) && findTokens more ((skipSpace text).drop token.length)

/-! ### Tokens and blanks -/

theorem Blanks.append {first second : List Char} (blanks : Blanks first) (blanks' : Blanks second) :
    Blanks (first ++ second) :=
  List.forall_mem_append.mpr ⟨blanks, blanks'⟩

theorem exists_blanks (text : List Char) : ∃ gap, Blanks gap ∧ text = gap ++ skipSpace text :=
  ⟨text.takeWhile isSpace, fun _ member => List.mem_takeWhile_imp member,
    List.takeWhile_append_dropWhile.symm⟩

/-- Where the tokens are found, the text consists of them. -/
theorem consistsOf_of_findTokens {tokens : List (List Char)} {text : List Char}
    (found : findTokens tokens text = true) : ConsistsOf tokens text := by
  obtain ⟨gap, blanks, text_eq⟩ := exists_blanks text
  -- On the tokens, with the blanks in front split off the text at every step.
  induction tokens generalizing text gap with
  | nil =>
    rw [findTokens, List.isEmpty_iff] at found
    rw [text_eq, found, List.append_nil]
    exact blanks
  | cons token more ih =>
    rw [findTokens, Bool.and_eq_true, List.isPrefixOf_iff_prefix] at found
    obtain ⟨⟨rest, token_eq⟩, found⟩ := found
    rw [← token_eq, List.drop_left] at found
    obtain ⟨gap', blanks', rest_eq⟩ := exists_blanks rest
    exact ⟨gap, rest, blanks, by rw [token_eq, ← text_eq], ih found gap' blanks' rest_eq⟩

theorem Lead.append {first : Bool} {lead gap : List Char} (leads : Lead first lead)
    (blanks : Blanks gap) : Lead first (lead ++ gap) := by
  cases leads with
  | first blanks' => exact .first (blanks'.append blanks)
  | later blanks' blanks'' =>
    rw [List.append_assoc, List.cons_append]
    exact .later blanks' (blanks''.append blanks)

theorem ConsistsOf.behind_blanks {tokens : List (List Char)} {gap text : List Char}
    (consists : ConsistsOf tokens text) (blanks : Blanks gap) : ConsistsOf tokens (gap ++ text) := by
  cases tokens with
  | nil => exact blanks.append consists
  | cons token more =>
    obtain ⟨gap', rest, blanks', rfl, consists⟩ := consists
    exact ⟨gap ++ gap', rest, blanks.append blanks', by simp, consists⟩

/-- Before an item or member stands what separates it from the one before. -/
theorem consistsOf_comma {first : Bool} {tokens : List (List Char)} {text : List Char} :
    ConsistsOf (Tree.comma first ++ tokens) text ↔
      ∃ lead rest, Lead first lead ∧ text = lead ++ rest ∧ ConsistsOf tokens rest := by
  cases first with
  | true =>
    -- Nothing but blanks may stand before the first one, and they may be given to what follows.
    constructor
    · intro consists
      exact ⟨[], text, .first .nil, rfl, consists⟩
    · rintro ⟨_, rest, ⟨blanks⟩, rfl, consists⟩
      exact consists.behind_blanks blanks
  | false =>
    constructor
    -- The blanks behind the comma go with the comma or with what follows, as one likes.
    · rintro ⟨gap, rest, blanks, rfl, consists⟩
      exact ⟨gap ++ [','], rest, .later blanks .nil, by simp, consists⟩
    · rintro ⟨_, rest, ⟨⟩ | ⟨blanks, blanks'⟩, rfl, consists⟩
      exact ⟨_, _, blanks, by simp, consists.behind_blanks blanks'⟩

/-- Nothing follows, or what follows begins with a token that ends a name or number. -/
def Closes (tokens : List (List Char)) : Prop :=
  ∀ token ∈ tokens.head?, ∃ c, token = [c] ∧ Delimits c

theorem Closes.delimits {tokens : List (List Char)} {text : List Char} (closes : Closes tokens)
    (consists : ConsistsOf tokens text) : HeadIn Delimits text := by
  -- With no token left there is at most a blank; otherwise a blank or the token's delimiter.
  cases tokens with
  | nil =>
    intro c head
    exact .inl (consists c (List.mem_of_mem_head? head))
  | cons token more =>
    obtain ⟨gap, rest, blanks, rfl, -⟩ := consists
    obtain ⟨c, rfl, delimits⟩ := closes token rfl
    apply HeadIn.append
    · intro c head
      exact .inl (blanks c (List.mem_of_mem_head? head))
    · rintro _ ⟨⟩
      exact delimits

namespace Tree

theorem closes_itemTokens (items : List Tree) (more : List (List Char)) :
    Closes (itemTokens false items ++ more) := by
  cases items with
  | nil =>
    rintro _ ⟨⟩
    exact ⟨']', rfl, .inr (.inr (.inl rfl))⟩
  | cons item items =>
    rintro _ ⟨⟩
    exact ⟨',', rfl, .inr (.inl rfl)⟩

theorem closes_memberTokens (members : List (List Char × Tree)) (more : List (List Char)) :
    Closes (memberTokens false members ++ more) := by
  cases members with
  | nil =>
    rintro _ ⟨⟩
    exact ⟨'\x7d', rfl, .inr (.inr (.inr rfl))⟩
  | cons member members =>
    rintro _ ⟨⟩
    exact ⟨',', rfl, .inr (.inl rfl)⟩

/-! ### Trees in front of a text -/

/-- A tree stands in front of a text, and `rest` follows it: with a step for each of its characters
the reader makes of the text what the tree stands for. -/
structure Front (tree : Tree) (text rest : List Char) : Prop where
  shorter : rest.length < text.length
  read : ∀ care steps depth, text.length ≤ steps + rest.length →
    (readValue care steps depth text).toOption = (tree.json? care depth).map (·, rest)

/-- The items of an array, with its closing bracket. -/
inductive ItemsFront : Bool → List Tree → List Char → List Char → Prop where
  | stop {first : Bool} {text rest : List Char}
    (ended : ∀ care, nextItem care first text = .ok (false, rest)) : ItemsFront first [] text rest
  | item {first : Bool} {item : Tree} {items : List Tree} {text behind after rest : List Char}
    (next : ∀ care, nextItem care first text = .ok (true, behind)) (front : Front item behind after)
    (others : ItemsFront false items after rest) : ItemsFront first (item :: items) text rest

/-- The members of an object, with its closing brace. -/
inductive MembersFront : Bool → List (List Char × Tree) → List Char → List Char → Prop where
  | stop {first : Bool} {text rest : List Char}
    (ended : ∀ care, nextMember care first text = .ok (false, rest)) :
    MembersFront first [] text rest
  | member {first : Bool} {key : List Char} {value : Tree} {members : List (List Char × Tree)}
    {text behind behindKey behindColon after rest : List Char}
    (next : ∀ care, nextMember care first text = .ok (true, behind))
    (key_read : ∀ care, (readString care behind).toOption = (keyOf? care key).map (·, behindKey))
    (key_shorter : behindKey.length < behind.length)
    (colon : takeColon behindKey = .ok behindColon) (front : Front value behindColon after)
    (others : MembersFront false members after rest) :
    MembersFront first ((key, value) :: members) text rest

theorem ItemsFront.shorter {first : Bool} {items : List Tree} {text rest : List Char}
    (fronts : ItemsFront first items text rest) : rest.length < text.length := by
  induction fronts with
  | stop ended => exact (length_of_nextItem (ended .keep)).2 rfl
  | item next front _ ih =>
    have := (length_of_nextItem (next .keep)).1
    have := front.shorter
    omega

theorem MembersFront.shorter {first : Bool} {members : List (List Char × Tree)}
    {text rest : List Char} (fronts : MembersFront first members text rest) :
    rest.length < text.length := by
  induction fronts with
  | stop ended => exact length_of_nextMember (ended .keep)
  | member next _ key_shorter colon front _ ih =>
    have := length_of_nextMember (next .keep)
    have := length_of_takeColon colon
    have := front.shorter
    omega

theorem ItemsFront.read {first : Bool} {items : List Tree} {text rest : List Char}
    (fronts : ItemsFront first items text rest) :
    ∀ care steps depth found, text.length ≤ steps + rest.length →
      (readItems care steps depth first found text).toOption =
        (values? care depth items).map fun values => (.array (found.reverse ++ values), rest) := by
  induction fronts with
  | stop ended =>
    intro care steps depth found enough
    have := (length_of_nextItem (ended care)).2 rfl
    obtain _ | steps := steps
    · omega
    rw [readItems, ended care, values?, Option.map_some, List.append_nil]
    rfl
  | @item first item items text behind after rest next front others ih =>
    intro care steps depth found enough
    have := (length_of_nextItem (next care)).1
    have := front.shorter
    have := others.shorter
    obtain _ | steps := steps
    · omega
    -- The item and the items behind it leave at least one character to each other.
    have item_read := front.read care steps depth (by omega)
    have others_read (value : Json) := ih care steps depth (value :: found) (by omega)
    rw [readItems, next care, values?]
    change (readValue care steps depth behind >>= fun read =>
      readItems care steps depth false (read.1 :: found) read.2).toOption = _
    rw [toOption_bind, item_read]
    cases item.json? care depth with
    | none => rfl
    | some value =>
      simp only [Option.map_some, Option.bind_some, others_read, bind]
      cases values? care depth items <;> simp

theorem MembersFront.read {first : Bool} {members : List (List Char × Tree)} {text rest : List Char}
    (fronts : MembersFront first members text rest) :
    ∀ care steps depth found, text.length ≤ steps + rest.length →
      (readMembers care steps depth first found text).toOption =
        (members? care depth members).map fun values =>
          (.object (found.reverse ++ values), rest) := by
  induction fronts with
  | stop ended =>
    intro care steps depth found enough
    have := length_of_nextMember (ended care)
    obtain _ | steps := steps
    · omega
    rw [readMembers, ended care, members?, Option.map_some, List.append_nil]
    rfl
  | @member first key value members text behind behindKey behindColon after rest next key_read
      key_shorter colon front others ih =>
    intro care steps depth found enough
    have := length_of_nextMember (next care)
    have := length_of_takeColon colon
    have := front.shorter
    have := others.shorter
    obtain _ | steps := steps
    · omega
    -- The key, the value and the members behind them are read one after the other.
    have value_read := front.read care steps depth (by omega)
    have others_read (member : String × Json) := ih care steps depth (member :: found) (by omega)
    rw [readMembers, next care, members?]
    change (readString care behind >>= fun name => takeColon name.2 >>= fun behindColon =>
      readValue care steps depth behindColon >>= fun read =>
        readMembers care steps depth false ((name.1, read.1) :: found) read.2).toOption = _
    rw [toOption_bind, key_read care]
    cases keyOf? care key with
    | none => rfl
    | some name =>
      simp only [Option.map_some, Option.bind_some, colon, bind]
      change (readValue care steps depth behindColon >>= fun read =>
        readMembers care steps depth false ((name, read.1) :: found) read.2).toOption = _
      rw [toOption_bind, value_read]
      cases value.json? care depth with
      | none => rfl
      | some json =>
        simp only [Option.map_some, Option.bind_some, others_read]
        cases members? care depth members <;> simp

/-- The first character of a scalar tells it from an array and an object. -/
theorem exists_of_proper_scalar {token : List Char} (proper : (scalar token).Proper) :
    ∃ c tail, token = c :: tail ∧ (whole? (readScalar .skim c) tail).isSome ∧ isSpace c = false ∧
      c ≠ '[' ∧ c ≠ ']' ∧ c ≠ '\x7b' := by
  rw [Proper, json?, Option.isSome_map] at proper
  cases token with
  | nil => cases proper
  | cons c tail =>
    obtain ⟨scalar, taken⟩ := Option.isSome_iff_exists.mp proper
    exact ⟨c, tail, rfl, proper, head_of_readScalar (whole?_eq_some.mp taken)⟩

namespace Front

theorem array {items : List Tree} {text behind rest : List Char}
    (skipped : skipSpace text = '[' :: behind) (fronts : ItemsFront true items behind rest) :
    Front (.array items) text rest := by
  have shorter := length_skipSpace_le text
  rw [skipped, List.length_cons] at shorter
  have := fronts.shorter
  refine ⟨by omega, fun care steps depth enough => ?_⟩
  obtain _ | steps := steps
  · omega
  have items_read := fronts.read care steps (depth - 1) [] (by omega)
  rw [readValue, skipped, json?]
  simp only [if_true]
  -- Without room there is no array, unless it is only skimmed.
  split
  · rfl
  next enclosed =>
    have allowed : ¬ (care = .keep ∧ depth = 0) := fun full => enclosed full.1 full.2
    rw [items_read, if_neg allowed]
    cases values? care (depth - 1) items <;> rfl

theorem object {members : List (List Char × Tree)} {text behind rest : List Char}
    (skipped : skipSpace text = '\x7b' :: behind) (fronts : MembersFront true members behind rest) :
    Front (.object members) text rest := by
  have shorter := length_skipSpace_le text
  rw [skipped, List.length_cons] at shorter
  have := fronts.shorter
  refine ⟨by omega, fun care steps depth enough => ?_⟩
  -- The brace is read already, which pays for the step that reads the members.
  obtain _ | steps := steps
  · omega
  have members_read := fronts.read care steps (depth - 1) [] (by omega)
  rw [readValue, skipped, json?]
  simp only [Char.reduceEq, if_false, if_true]
  split
  · rfl
  -- Both sides stop at the same limit, so only the members are left to compare.
  next enclosed =>
    have allowed : ¬ (care = .keep ∧ depth = 0) := fun full => enclosed full.1 full.2
    rw [members_read, if_neg allowed]
    cases members? care (depth - 1) members <;> rfl

theorem scalar {token gap rest : List Char} (proper : (Tree.scalar token).Proper)
    (blanks : Blanks gap) (delimited : HeadIn Delimits rest) :
    Front (.scalar token) (gap ++ (token ++ rest)) rest := by
  obtain ⟨c, tail, rfl, taken, solid, noArray, -, noObject⟩ := exists_of_proper_scalar proper
  refine ⟨by simp; omega, fun care steps depth enough => ?_⟩
  obtain _ | steps := steps
  · simp at enough
    omega
  -- The token is read the same in front of any text that ends it.
  have scalar_read := (takesTokens_readScalar c).toOption_append taken delimited care
  rw [List.cons_append, readValue, skipSpace_blanks blanks c solid]
  simp only [if_neg noArray, if_neg noObject]
  -- The binding is named, so that `toOption` can be pushed through it.
  change (readScalar care c (tail ++ rest) >>= fun read =>
    Except.ok (read.1.toJson, read.2)).toOption = _
  rw [toOption_bind, scalar_read, json?, scalarOf?]
  cases whole? (readScalar care c) tail <;> rfl

end Front

/-- The tokens of a tree begin with a character that is neither a blank nor a closing bracket. -/
theorem Proper.head {tree : Tree} (proper : tree.Proper) :
    ∃ c tail more, tree.tokens = (c :: tail) :: more ∧ isSpace c = false ∧ c ≠ ']' := by
  cases tree with
  | scalar token =>
    obtain ⟨c, tail, rfl, -, solid, -, noEnd, -⟩ := exists_of_proper_scalar proper
    exact ⟨c, tail, [], by rw [tokens], solid, noEnd⟩
  | array items => exact ⟨'[', [], _, by rw [tokens], rfl, by decide⟩
  | object members => exact ⟨'\x7b', [], _, by rw [tokens], rfl, by decide⟩

theorem exists_of_keyOf? {care : Care} {key : List Char} (read : (keyOf? care key).isSome) :
    ∃ tail, key = '\x22' :: tail ∧ (whole? (readString care) tail).isSome := by
  unfold keyOf? at read
  split at read
  next tail => exact ⟨tail, rfl, read⟩
  next => cases read

theorem isSome_values?_cons {care : Care} {room : Nat} {item : Tree} {items : List Tree} :
    (values? care room (item :: items)).isSome ↔
      (item.json? care room).isSome ∧ (values? care room items).isSome := by
  rw [values?]
  cases item.json? care room <;> cases values? care room items <;> simp

theorem isSome_members?_cons {care : Care} {room : Nat} {key : List Char} {value : Tree}
    {members : List (List Char × Tree)} :
    (members? care room ((key, value) :: members)).isSome ↔
      (keyOf? care key).isSome ∧ (value.json? care room).isSome ∧
        (members? care room members).isSome := by
  rw [members?]
  cases keyOf? care key <;> cases value.json? care room <;> cases members? care room members <;> simp

theorem isSome_array {care : Care} {room : Nat} {items : List Tree} :
    ((array items).json? care room).isSome ↔
      ¬ (care = .keep ∧ room = 0) ∧ (values? care (room - 1) items).isSome := by
  rw [json?]
  split <;> simp_all

theorem isSome_object {care : Care} {room : Nat} {members : List (List Char × Tree)} :
    ((object members).json? care room).isSome ↔
      ¬ (care = .keep ∧ room = 0) ∧ (members? care (room - 1) members).isSome := by
  rw [json?]
  split <;> simp_all

theorem proper_array {items : List Tree} : (array items).Proper ↔ (values? .skim 0 items).isSome := by
  simp [Proper, isSome_array]

theorem proper_object {members : List (List Char × Tree)} :
    (object members).Proper ↔ (members? .skim 0 members).isSome := by
  simp [Proper, isSome_object]

mutual

/-- Where the tokens of a tree stand at the front of a text, the tree does. -/
theorem exists_front {tree : Tree} (proper : tree.Proper) {more : List (List Char)}
    {text : List Char} (consists : ConsistsOf (tree.tokens ++ more) text) (closes : Closes more) :
    ∃ rest, ConsistsOf more rest ∧ Front tree text rest := by
  match tree with
  | .scalar token =>
    -- Only here does it matter what follows: a number would go on.
    rw [tokens] at consists
    obtain ⟨gap, rest, blanks, rfl, consists⟩ := consists
    exact ⟨rest, consists, .scalar proper blanks (closes.delimits consists)⟩
  | .array items =>
    rw [tokens] at consists
    obtain ⟨gap, behind, blanks, rfl, consists⟩ := consists
    obtain ⟨rest, consists, fronts⟩ := exists_itemsFront (proper_array.mp proper) consists
    exact ⟨rest, consists, .array (skipSpace_blanks blanks '[' rfl _) fronts⟩
  | .object members =>
    rw [tokens] at consists
    obtain ⟨gap, behind, blanks, rfl, consists⟩ := consists
    obtain ⟨rest, consists, fronts⟩ := exists_membersFront (proper_object.mp proper) consists
    exact ⟨rest, consists, .object (skipSpace_blanks blanks '\x7b' rfl _) fronts⟩

theorem exists_itemsFront {items : List Tree} (proper : (values? .skim 0 items).isSome)
    {first : Bool} {more : List (List Char)} {text : List Char}
    (consists : ConsistsOf (itemTokens first items ++ more) text) :
    ∃ rest, ConsistsOf more rest ∧ ItemsFront first items text rest := by
  match items with
  | [] =>
    rw [itemTokens] at consists
    obtain ⟨gap, rest, blanks, rfl, consists⟩ := consists
    exact ⟨rest, consists, .stop fun care => nextItem_end blanks care first rest⟩
  | item :: items =>
    obtain ⟨itemProper, othersProper⟩ := isSome_values?_cons.mp proper
    rw [itemTokens, List.append_assoc, List.append_assoc] at consists
    obtain ⟨lead, behind, leads, text_eq, consists⟩ := consistsOf_comma.mp consists
    -- The first character of the item shows that the array goes on.
    obtain ⟨c, tail, others, tokens_eq, solid, noEnd⟩ := Proper.head itemProper
    rw [tokens_eq] at consists
    obtain ⟨gap, behindToken, blanks, rfl, consists⟩ := consists
    have next (care : Care) :
        nextItem care first text = .ok (true, c :: (tail ++ behindToken)) := by
      rw [text_eq, ← List.append_assoc]
      exact nextItem_lead (leads.append blanks) solid noEnd care _
    have consists' : ConsistsOf (item.tokens ++ (itemTokens false items ++ more))
        (c :: (tail ++ behindToken)) := by
      rw [tokens_eq]
      exact ⟨[], behindToken, .nil, rfl, consists⟩
    obtain ⟨after, consists, front⟩ := exists_front itemProper consists' (closes_itemTokens _ _)
    obtain ⟨rest, consists, fronts⟩ := exists_itemsFront othersProper consists
    exact ⟨rest, consists, .item next front fronts⟩

theorem exists_membersFront {members : List (List Char × Tree)}
    (proper : (members? .skim 0 members).isSome) {first : Bool} {more : List (List Char)}
    {text : List Char} (consists : ConsistsOf (memberTokens first members ++ more) text) :
    ∃ rest, ConsistsOf more rest ∧ MembersFront first members text rest := by
  match members with
  | [] =>
    rw [memberTokens] at consists
    obtain ⟨gap, rest, blanks, rfl, consists⟩ := consists
    exact ⟨rest, consists, .stop fun care => nextMember_end blanks care first rest⟩
  | (key, value) :: members =>
    obtain ⟨keyProper, valueProper, othersProper⟩ := isSome_members?_cons.mp proper
    obtain ⟨tail, rfl, quoted⟩ := exists_of_keyOf? keyProper
    obtain ⟨name, taken⟩ := Option.isSome_iff_exists.mp quoted
    have key_shorter : 0 < tail.length := length_of_takeString (whole?_eq_some.mp taken)
    rw [memberTokens, List.append_assoc, List.cons_append, List.cons_append, List.append_assoc]
      at consists
    obtain ⟨lead, behind, leads, text_eq, consists⟩ := consistsOf_comma.mp consists
    obtain ⟨gap, behindKey, blanks, rfl, consists⟩ := consists
    obtain ⟨gap', behindColon, blanks', rfl, consists⟩ := consists
    obtain ⟨after, consists, front⟩ := exists_front valueProper consists (closes_memberTokens _ _)
    obtain ⟨rest, consists, fronts⟩ := exists_membersFront othersProper consists
    -- The key ends with its quote, whatever stands before the colon.
    let behindKey := gap' ++ ([':'] ++ behindColon)
    have next (care : Care) : nextMember care first text = .ok (true, tail ++ behindKey) := by
      rw [text_eq, ← List.append_assoc]
      exact nextMember_lead (leads.append blanks) care _
    have key_read (care : Care) : (readString care (tail ++ behindKey)).toOption =
        (keyOf? care ('\x22' :: tail)).map (·, behindKey) :=
      takesTokens_readString.toOption_append quoted trivial care
    refine ⟨rest, consists, .member next key_read ?_ (takeColon_blanks blanks' _) front fronts⟩
    simp only [List.length_append]
    omega

end

/-! ### Skimming -/

mutual

/-- What can be read can be skimmed, however deep it is. -/
theorem isSome_skim {care : Care} {room : Nat} {tree : Tree} (read : (tree.json? care room).isSome)
    (room' : Nat) : (tree.json? .skim room').isSome := by
  -- By the tree: the room is only ever counted down, and skimming does not ask for it.
  match tree with
  | .scalar token =>
    rw [json?, Option.isSome_map] at read ⊢
    cases token with
    | nil => cases read
    | cons c tail => exact (takesTokens_readScalar c).isSome_skim read
  | .array items =>
    have inside := isSome_skim_values (isSome_array.mp read).2 (room' - 1)
    exact isSome_array.mpr ⟨by simp, inside⟩
  | .object members =>
    have inside := isSome_skim_members (isSome_object.mp read).2 (room' - 1)
    exact isSome_object.mpr ⟨by simp, inside⟩

theorem isSome_skim_values {care : Care} {room : Nat} {items : List Tree}
    (read : (values? care room items).isSome) (room' : Nat) :
    (values? .skim room' items).isSome := by
  match items with
  | [] =>
    rw [values?]
    rfl
  | item :: items =>
    obtain ⟨itemRead, othersRead⟩ := isSome_values?_cons.mp read
    exact isSome_values?_cons.mpr ⟨isSome_skim itemRead room', isSome_skim_values othersRead room'⟩

theorem isSome_skim_members {care : Care} {room : Nat} {members : List (List Char × Tree)}
    (read : (members? care room members).isSome) (room' : Nat) :
    (members? .skim room' members).isSome := by
  match members with
  | [] =>
    rw [members?]
    rfl
  | (key, value) :: members =>
    obtain ⟨keyRead, valueRead, othersRead⟩ := isSome_members?_cons.mp read
    obtain ⟨tail, rfl, quoted⟩ := exists_of_keyOf? keyRead
    -- A key is skimmed like any string, and the rest by the calls for value and members.
    exact isSome_members?_cons.mpr ⟨takesTokens_readString.isSome_skim quoted,
      isSome_skim valueRead room', isSome_skim_members othersRead room'⟩

end

end Tree

/-! ### Whole texts -/

theorem endOfText_eq_ok {text : List Char} : endOfText text = .ok () ↔ Blanks text := by
  simp [endOfText, skipSpace, Blanks]

/-- A text stands for what its tree stands for. -/
theorem Tree.Written.parse_eq {tree : Tree} {text : String} (written : tree.Written text)
    {json : Json} (stands : tree.json? .keep text.toList.length = some json) :
    parse text = .ok json := by
  have consists : ConsistsOf (tree.tokens ++ []) text.toList := by
    rw [List.append_nil]
    exact written.consists
  have closes : Closes [] := by simp [Closes]
  obtain ⟨rest, blanks, front⟩ := exists_front written.proper consists closes
  have value := front.read .keep (enoughSteps text.toList) text.toList.length
    (by rw [enoughSteps]; omega)
  rw [stands] at value
  refine except_bind_eq_ok.mpr ⟨(json, rest), toOption_eq_some.mp value, ?_⟩
  simp only [endOfText_eq_ok.mpr blanks]
  rfl

end Gleaner.Json
