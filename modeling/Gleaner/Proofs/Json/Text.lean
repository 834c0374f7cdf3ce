import Gleaner.Json.Writer
import Gleaner.Proofs.Json.Fronts

/-!
# Texts that stand for values

A text stands for a value if the reader takes exactly this text off the front of whatever follows it
and returns the value, provided that the value does not nest too deep. There is one lemma for each
kind of value: the texts of `null`, of a string, of an array and of an object, the last two with any
blanks between their tokens. From them it follows that arrays and objects are read back from both
their written forms if their items and members are.

The steps of the reader are counted by the characters of the text: every step into or along a value
takes at least one.
-/

namespace Gleaner.Json

/-! ### Strings -/

private theorem hexValue?_hexDigit : ∀ n < 16, hexValue? (hexDigit n) = some n := by decide

private theorem takeHex_write {n : Nat} (small : n < 0x20) (rest : List Char) :
    takeHex ('0' :: '0' :: hexDigit (n / 16) :: hexDigit (n % 16) :: rest) = .ok (n, rest) := by
  have zero : hexValue? '0' = some 0 := by decide
  have high := hexValue?_hexDigit (n / 16) (by omega)
  have low := hexValue?_hexDigit (n % 16) (by omega)
  have unit : ((0 * 16 + 0) * 16 + n / 16) * 16 + n % 16 = n := by omega
  simp only [takeHex, zero, high, low, unit]

private theorem takeEscape_control {c : Char} (control : c.toNat < 0x20) (rest : List Char) :
    takeEscape .keep
        ('u' :: '0' :: '0' :: hexDigit (c.toNat / 16) :: hexDigit (c.toNat % 16) :: rest) =
      .ok (c, rest) := by
  -- Control characters are far from the surrogates.
  have notLow : (decide (0xDC00 ≤ c.toNat) && decide (c.toNat ≤ 0xDFFF)) = false := by
    simp
    omega
  have notHigh : (decide (0xD800 ≤ c.toNat) && decide (c.toNat ≤ 0xDBFF)) = false := by
    simp
    omega
  simp only [takeEscape, if_true, takeHex_write control, bind, Except.bind, notLow, notHigh,
    Char.ofNat_toNat]
  rfl

theorem takeString_escape {care : Care} {found escape after : List Char} {c : Char}
    (taken : takeEscape care escape = .ok (c, after)) :
    takeString care found ('\\' :: escape) = takeString care (c :: found) after := by
  rw [takeString]
  simp only [Char.reduceEq, if_false, if_true]
  -- The match carries its equation for the sake of termination, so it is split, not rewritten.
  split
  next fault failed =>
    rw [taken] at failed
    cases failed
  next escaped rest' took =>
    rw [taken] at took
    cases took
    rfl

theorem takeString_writeChar (c : Char) (found rest : List Char) :
    takeString .keep found (writeChar c ++ rest) = takeString .keep (c :: found) rest := by
  -- Characters with an escape of their own come first, then the other control characters.
  unfold writeChar
  split
  · subst c
    exact takeString_escape rfl
  next quote =>
  split
  · subst c
    exact takeString_escape rfl
  next backslash =>
  iterate 5
    split
    · subst c
      exact takeString_escape rfl
  split
  next control => exact takeString_escape (takeEscape_control control rest)
  next printed =>
    rw [List.singleton_append, takeString]
    simp only [quote, backslash, printed, if_false]

theorem readString_write (value : String) (rest : List Char) :
    readString .keep (value.toList.flatMap writeChar ++ '\x22' :: rest) = .ok (value, rest) := by
  -- With the characters found so far generalized, every written character is read by one round.
  have taken (chars found : List Char) :
      takeString .keep found (chars.flatMap writeChar ++ '\x22' :: rest) =
        .ok (String.ofList (found.reverse ++ chars), rest) := by
    induction chars generalizing found with
    | nil =>
      rw [List.flatMap_nil, List.nil_append, takeString]
      simp
    | cons c chars ih =>
      rw [List.flatMap_cons, List.append_assoc, takeString_writeChar, ih]
      simp
  rw [readString, taken]
  simp

/-! ### Between values -/

/-- Only blanks. -/
def Blanks (text : List Char) : Prop :=
  ∀ c ∈ text, isSpace c = true

theorem Blanks.nil : Blanks [] := fun _ member => nomatch member

theorem skipSpace_blanks {gap : List Char} (blanks : Blanks gap) (c : Char)
    (solid : isSpace c = false) (rest : List Char) : skipSpace (gap ++ c :: rest) = c :: rest := by
  rw [skipSpace, List.dropWhile_append_of_pos blanks, List.dropWhile_cons_of_neg (by simp [solid])]

/-- What stands before an item or member: blanks, and a comma unless it is the first. -/
inductive Lead : Bool → List Char → Prop where
  | first {gap : List Char} (blanks : Blanks gap) : Lead true gap
  | later {gap gap' : List Char} (blanks : Blanks gap) (blanks' : Blanks gap') :
    Lead false (gap ++ ',' :: gap')

theorem nextItem_lead {first : Bool} {lead : List Char} (leads : Lead first lead) {c : Char}
    (solid : isSpace c = false) (notEnd : c ≠ ']') (care : Care) (rest : List Char) :
    nextItem care first (lead ++ c :: rest) = .ok (true, c :: rest) := by
  cases leads with
  | first blanks =>
    rw [nextItem, skipSpace_blanks blanks c solid]
    -- The first item needs no comma: behind the blanks stands its first character.
    split <;> simp_all
  | @later gap gap' blanks blanks' =>
    rw [List.append_assoc, List.cons_append, nextItem, skipSpace_blanks blanks ',' rfl]
    simp only [Char.reduceEq, imp_false, not_false_eq_true, Bool.false_eq_true, if_false, if_true,
      skipSpace_blanks blanks' c solid]
    -- Blanks, a comma and blanks again were taken before it.
    split <;> simp_all

theorem nextItem_end {gap : List Char} (blanks : Blanks gap) (care : Care) (first : Bool)
    (rest : List Char) : nextItem care first (gap ++ ']' :: rest) = .ok (false, rest) := by
  rw [nextItem, skipSpace_blanks blanks ']' rfl]
  rfl

theorem nextMember_lead {first : Bool} {lead : List Char} (leads : Lead first lead) (care : Care)
    (rest : List Char) : nextMember care first (lead ++ '\x22' :: rest) = .ok (true, rest) := by
  cases leads with
  | first blanks => simp [nextMember, skipSpace_blanks blanks '\x22' rfl]
  | later blanks blanks' =>
    simp [nextMember, skipSpace_blanks blanks ',' rfl, skipSpace_blanks blanks' '\x22' rfl]

theorem nextMember_end {gap : List Char} (blanks : Blanks gap) (care : Care) (first : Bool)
    (rest : List Char) : nextMember care first (gap ++ '\x7d' :: rest) = .ok (false, rest) := by
  rw [nextMember, skipSpace_blanks blanks '\x7d' rfl]
  rfl

theorem takeColon_blanks {gap : List Char} (blanks : Blanks gap) (rest : List Char) :
    takeColon (gap ++ ':' :: rest) = .ok rest := by
  simp [takeColon, skipSpace_blanks blanks ':' rfl]

theorem readValue_blanks {gap : List Char} (blanks : Blanks gap) (care : Care)
    (steps depth : Nat) (text : List Char) :
    readValue care steps depth (gap ++ text) = readValue care steps depth text := by
  have skipped : skipSpace (gap ++ text) = skipSpace text := List.dropWhile_append_of_pos blanks
  cases steps with
  | zero => rw [readValue, readValue]
  | succ steps => rw [readValue, readValue, skipped]

/-! ### Values -/

/-- A text stands for a value: it is read as the value, whatever follows it. -/
structure Spells (json : Json) (text : List Char) : Prop where
  head : ∃ c rest, text = c :: rest ∧ isSpace c = false ∧ c ≠ ']'
  read : ∀ steps depth rest, text.length ≤ steps → json.depth ≤ depth →
    readValue .keep steps depth (text ++ rest) = .ok (json, rest)

theorem Spells.length_pos {json : Json} {text : List Char} (spells : Spells json text) :
    0 < text.length := by
  obtain ⟨c, rest, rfl, -, -⟩ := spells.head
  exact Nat.succ_pos _

/-- The items of an array, behind its opening bracket and with its closing one. -/
inductive SpellsItems : Bool → List Json → List Char → Prop where
  | stop {first : Bool} {gap : List Char} (blanks : Blanks gap) :
    SpellsItems first [] (gap ++ [']'])
  | item {first : Bool} {lead : List Char} {item : Json} {text : List Char} {rest : List Json}
    {more : List Char} (leads : Lead first lead) (spells : Spells item text)
    (others : SpellsItems false rest more) : SpellsItems first (item :: rest) (lead ++ text ++ more)

/-- The members of an object, behind its opening brace and with its closing one. -/
inductive SpellsMembers : Bool → List (String × Json) → List Char → Prop where
  | stop {first : Bool} {gap : List Char} (blanks : Blanks gap) :
    SpellsMembers first [] (gap ++ ['\x7d'])
  | member {first : Bool} {lead : List Char} (key : String) {gap gap' : List Char} {value : Json}
    {text : List Char} {rest : List (String × Json)} {more : List Char} (leads : Lead first lead)
    (blanks : Blanks gap) (blanks' : Blanks gap') (spells : Spells value text)
    (others : SpellsMembers false rest more) :
    SpellsMembers first ((key, value) :: rest)
      (lead ++ writeString key ++ gap ++ ':' :: gap' ++ text ++ more)

/-- A member as the reader meets it, token by token. -/
theorem memberText_append (lead : List Char) (key : String) (gap gap' text more rest : List Char) :
    lead ++ writeString key ++ gap ++ ':' :: gap' ++ text ++ more ++ rest =
      lead ++ '\x22' :: (key.toList.flatMap writeChar ++
        '\x22' :: (gap ++ ':' :: (gap' ++ (text ++ (more ++ rest))))) := by
  simp [writeString]

/-- A text that stands for a value is in front of whatever follows, also behind blanks. -/
theorem Spells.front {json : Json} {text gap : List Char} (spells : Spells json text)
    (blanks : Blanks gap) (rest : List Char) : Front json (gap ++ (text ++ rest)) rest where
  shorter := by
    have := spells.length_pos
    simp only [List.length_append]
    omega
  read := by
    intro steps depth enough shallow
    simp only [List.length_append] at enough
    rw [readValue_blanks blanks]
    exact spells.read steps depth rest (by omega) shallow

theorem SpellsItems.front {first : Bool} {items : List Json} {text : List Char}
    (spells : SpellsItems first items text) (rest : List Char) :
    FrontItems first items (text ++ rest) rest := by
  induction spells with
  | stop blanks =>
    rw [List.append_assoc, List.singleton_append]
    exact .stop (nextItem_end blanks .keep _ rest)
  | @item first lead item text others more leads spells _ ih =>
    -- The first character of the item shows that the array goes on.
    obtain ⟨c, tail, text_eq, solid, notEnd⟩ := spells.head
    have next : nextItem .keep first (lead ++ (text ++ (more ++ rest))) =
        .ok (true, text ++ (more ++ rest)) := by
      rw [text_eq]
      exact nextItem_lead leads solid notEnd .keep _
    rw [List.append_assoc, List.append_assoc]
    exact .item next (spells.front .nil _) ih

theorem SpellsMembers.front {first : Bool} {members : List (String × Json)} {text : List Char}
    (spells : SpellsMembers first members text) (rest : List Char) :
    FrontMembers first members (text ++ rest) rest := by
  induction spells with
  | stop blanks =>
    rw [List.append_assoc, List.singleton_append]
    exact .stop (nextMember_end blanks .keep _ rest)
  | member key leads blanks blanks' spells _ ih =>
    -- The key, the colon and the value are taken one after the other.
    rw [memberText_append]
    exact .member (nextMember_lead leads .keep _) (readString_write key _) (takeColon_blanks blanks _)
      (spells.front blanks' _) ih

namespace Spells

theorem null : Spells .null writeNull where
  head := ⟨'n', _, rfl, rfl, by decide⟩
  read := by
    intro steps depth rest enough _
    obtain _ | steps := steps
    · simp [writeNull] at enough
    rfl

theorem string (value : String) : Spells (.string value) (writeString value) where
  head := ⟨'\x22', _, rfl, rfl, by decide⟩
  read := by
    intro steps depth rest enough _
    obtain _ | steps := steps
    · simp [writeString] at enough
    -- The text begins with a quote, which is what the reader decides on.
    have text_eq : writeString value ++ rest =
        '\x22' :: (value.toList.flatMap writeChar ++ '\x22' :: rest) := by
      simp [writeString]
    have scalar : readScalar .keep '\x22' (value.toList.flatMap writeChar ++ '\x22' :: rest) =
        .ok (.string value, rest) := by
      simp only [readScalar, Char.reduceEq, if_false, if_true, readString_write]
      rfl
    rw [text_eq, readValue, ← List.nil_append ('\x22' :: _), skipSpace_blanks .nil _ rfl]
    simp only [Char.reduceEq, if_false, scalar]
    rfl

theorem array {items : List Json} {text : List Char} (spells : SpellsItems true items text) :
    Spells (.array items) ('[' :: text) where
  head := ⟨'[', text, rfl, rfl, by decide⟩
  read := by
    intro steps depth rest enough shallow
    have front : Front (.array items) ('[' :: (text ++ rest)) rest :=
      .array (skipSpace_blanks .nil '[' rfl _) (spells.front rest)
    apply front.read steps depth _ shallow
    simp only [List.length_cons, List.length_append] at enough ⊢
    omega

theorem object {members : List (String × Json)} {text : List Char}
    (spells : SpellsMembers true members text) : Spells (.object members) ('\x7b' :: text) where
  head := ⟨'\x7b', text, rfl, rfl, by decide⟩
  read := by
    intro steps depth rest enough shallow
    have front : Front (.object members) ('\x7b' :: (text ++ rest)) rest :=
      .object (skipSpace_blanks .nil '\x7b' rfl _) (spells.front rest)
    apply front.read steps depth _ shallow
    simp only [List.length_cons, List.length_append] at enough ⊢
    omega

end Spells

/-! ### Written forms -/

/-- Items that are written with the same blanks before each of them. A comma that is written behind
an item stands before the next one. -/
theorem spellsItems_written {write : Json → List Char} (join : List Json → List Char)
    {gap close : List Char} (blanks : Blanks gap) (blanks' : Blanks close)
    (last : ∀ item, join [item] = gap ++ write item)
    (cons : ∀ item next rest,
      join (item :: next :: rest) = gap ++ write item ++ ',' :: join (next :: rest))
    {first : Bool} {comma : List Char} (leads : Lead first (comma ++ gap)) (item : Json)
    (rest : List Json) (each : ∀ other ∈ item :: rest, Spells other (write other)) :
    SpellsItems first (item :: rest) (comma ++ join (item :: rest) ++ close ++ [']']) := by
  obtain ⟨here, others⟩ := List.forall_mem_cons.mp each
  -- On the items behind the first; the comma belongs to the lead of the next one.
  induction rest generalizing first comma item with
  | nil =>
    rw [last]
    simpa using SpellsItems.item leads here (.stop blanks')
  | cons next rest ih =>
    obtain ⟨here', others'⟩ := List.forall_mem_cons.mp others
    have comma : Lead false ([','] ++ gap) := .later .nil blanks
    have later := ih comma next others here' others'
    rw [cons]
    simpa using SpellsItems.item leads here later

/-- Members that are written with the same blanks before each of them and behind each colon. -/
theorem spellsMembers_written {write : Json → List Char}
    (join : List (String × Json) → List Char)
    {gap gap' close : List Char} (blanks : Blanks gap) (blanks' : Blanks gap')
    (blanks'' : Blanks close)
    (last : ∀ member : String × Json,
      join [member] = gap ++ writeString member.1 ++ ':' :: gap' ++ write member.2)
    (cons : ∀ (member next : String × Json) rest, join (member :: next :: rest) =
      gap ++ writeString member.1 ++ ':' :: gap' ++ write member.2 ++ ',' :: join (next :: rest))
    {first : Bool} {comma : List Char} (leads : Lead first (comma ++ gap))
    (member : String × Json) (rest : List (String × Json))
    (each : ∀ other ∈ member :: rest, Spells other.2 (write other.2)) :
    SpellsMembers first (member :: rest) (comma ++ join (member :: rest) ++ close ++ ['\x7d']) := by
  obtain ⟨here, others⟩ := List.forall_mem_cons.mp each
  -- As for items, with the key and its colon before each value.
  induction rest generalizing first comma member with
  | nil =>
    rw [last]
    simpa using SpellsMembers.member member.1 leads .nil blanks' here (.stop blanks'')
  | cons next rest ih =>
    obtain ⟨here', others'⟩ := List.forall_mem_cons.mp others
    have comma : Lead false ([','] ++ gap) := .later .nil blanks
    have later := ih comma next others here' others'
    rw [cons]
    simpa using SpellsMembers.member member.1 leads .nil blanks' here later

theorem Blanks.newLine (indent : Nat) : Blanks (newLine indent) := by
  intro c member
  rcases List.mem_cons.mp member with rfl | blank
  · rfl
  · rw [List.eq_of_mem_replicate blank]
    rfl

theorem spellsMembers_compact (member : String × Json) (rest : List (String × Json))
    (each : ∀ other ∈ member :: rest, Spells other.2 (writeCompact other.2)) :
    SpellsMembers true (member :: rest) (writeMembers (member :: rest) ++ ['\x7d']) := by
  have spells := spellsMembers_written writeMembers .nil .nil .nil (fun _ => by simp [writeMembers])
    (fun _ _ _ => by simp [writeMembers]) (.first .nil : Lead true ([] ++ [])) member rest each
  simpa using spells

theorem Spells.compact_array {items : List Json}
    (each : ∀ item ∈ items, Spells item (writeCompact item)) :
    Spells (.array items) (writeCompact (.array items)) := by
  rw [writeCompact]
  cases items with
  | nil => exact .array (.stop .nil)
  | cons item rest =>
    have spells := spellsItems_written writeItems .nil .nil (fun _ => rfl) (fun _ _ _ => rfl)
      (.first .nil : Lead true ([] ++ [])) item rest each
    exact .array (by simpa using spells)

theorem Spells.compact_object {members : List (String × Json)}
    (each : ∀ member ∈ members, Spells member.2 (writeCompact member.2)) :
    Spells (.object members) (writeCompact (.object members)) := by
  rw [writeCompact]
  cases members with
  | nil => exact .object (.stop .nil)
  | cons member rest => exact .object (spellsMembers_compact member rest each)

theorem Spells.pretty_array {items : List Json} (indent : Nat)
    (each : ∀ item ∈ items, Spells item (writePretty (indent + 2) item)) :
    Spells (.array items) (writePretty indent (.array items)) := by
  cases items with
  | nil => exact .array (.stop .nil)
  | cons item rest =>
    exact .array (spellsItems_written (prettyItems (indent + 2)) (.newLine _) (.newLine indent)
      (fun _ => rfl) (fun _ _ _ => rfl)
      (.first (.newLine _) : Lead true ([] ++ _)) item rest each)

theorem Spells.pretty_object {members : List (String × Json)} (indent : Nat)
    (each : ∀ member ∈ members, Spells member.2 (writePretty (indent + 2) member.2)) :
    Spells (.object members) (writePretty indent (.object members)) := by
  have space : Blanks [' '] := List.forall_mem_singleton.mpr rfl
  cases members with
  | nil => exact .object (.stop .nil)
  | cons member rest =>
    exact .object (spellsMembers_written (prettyMembers (indent + 2)) (.newLine _) space
      (.newLine indent) (fun _ => rfl)
      (fun _ _ _ => rfl) (.first (.newLine _) : Lead true ([] ++ _)) member rest each)

/-! ### What can be read is not too deep -/

theorem Scalar.depth_toJson (scalar : Scalar) : scalar.toJson.depth = 0 := by
  cases scalar <;> simp [toJson, Json.depth]

mutual

/-- What is read nests no deeper than it may, and every level takes a step. -/
theorem depth_le_min_of_readValue {steps depth : Nat} {text rest : List Char} {json : Json}
    (read : readValue .keep steps depth text = .ok (json, rest)) : json.depth ≤ min steps depth := by
  match steps with
  | 0 => cases read
  | steps + 1 =>
    rw [readValue] at read
    split at read
    · cases read
    split at read
    · -- At depth 0 no bracket is read.
      cases depth with
      | zero => cases read
      | succ depth =>
        rw [Nat.add_min_add_right]
        exact depth_le_of_readItems read (Nat.le_refl _) (List.forall_mem_nil _)
    split at read
    · cases depth with
      | zero => cases read
      | succ depth =>
        rw [Nat.add_min_add_right]
        exact depth_le_of_readMembers read (Nat.le_refl _) (List.forall_mem_nil _)
    obtain ⟨⟨scalar, after⟩, -, made⟩ := except_bind_eq_ok.mp read
    cases made
    rw [scalar.depth_toJson]
    exact Nat.zero_le _

/-- Items that were found within the limit are enclosed by one more array. -/
theorem depth_le_of_readItems {steps depth limit : Nat} {first : Bool} {found : List Json}
    {text rest : List Char} {json : Json}
    (read : readItems .keep steps depth first found text = .ok (json, rest))
    (within : min steps depth ≤ limit) (shallow : ∀ item ∈ found, item.depth ≤ limit) :
    json.depth ≤ limit + 1 := by
  match steps with
  | 0 => cases read
  | steps + 1 =>
    rw [readItems] at read
    obtain ⟨⟨more, after⟩, -, read⟩ := except_bind_eq_ok.mp read
    dsimp only at read
    split at read
    · obtain ⟨⟨item, after'⟩, itemRead, read⟩ := except_bind_eq_ok.mp read
      -- The item had one step less, and it is within the limit like those before it.
      have itemShallow : item.depth ≤ min steps depth := depth_le_min_of_readValue itemRead
      have within' : min steps depth ≤ limit := by omega
      exact depth_le_of_readItems read within'
        (List.forall_mem_cons.mpr ⟨Nat.le_trans itemShallow within', shallow⟩)
    · cases read
      -- At the end the items stand in their order, all within the limit.
      exact depth_array_le.mpr fun item member => shallow item (List.mem_reverse.mp member)

theorem depth_le_of_readMembers {steps depth limit : Nat} {first : Bool}
    {found : List (String × Json)} {text rest : List Char} {json : Json}
    (read : readMembers .keep steps depth first found text = .ok (json, rest))
    (within : min steps depth ≤ limit) (shallow : ∀ member ∈ found, member.2.depth ≤ limit) :
    json.depth ≤ limit + 1 := by
  match steps with
  | 0 => cases read
  | steps + 1 =>
    rw [readMembers] at read
    obtain ⟨⟨more, after⟩, -, read⟩ := except_bind_eq_ok.mp read
    dsimp only at read
    split at read
    · obtain ⟨⟨key, behindKey⟩, -, read⟩ := except_bind_eq_ok.mp read
      obtain ⟨behindColon, -, read⟩ := except_bind_eq_ok.mp read
      obtain ⟨⟨value, after'⟩, valueRead, read⟩ := except_bind_eq_ok.mp read
      -- Only the value counts: a key has no depth.
      have valueShallow : value.depth ≤ min steps depth := depth_le_min_of_readValue valueRead
      have within' : min steps depth ≤ limit := by omega
      exact depth_le_of_readMembers read within'
        (List.forall_mem_cons.mpr ⟨Nat.le_trans valueShallow within', shallow⟩)
    · cases read
      exact depth_object_le.mpr fun member found => shallow member (List.mem_reverse.mp found)

end

theorem depth_le_of_readValue {steps depth : Nat} {text rest : List Char} {json : Json}
    (read : readValue .keep steps depth text = .ok (json, rest)) : json.depth ≤ depth :=
  Nat.le_trans (depth_le_min_of_readValue read) (Nat.min_le_right _ _)

/-- The text of a value is long enough for its nesting. -/
theorem Spells.depth_le_length {json : Json} {text : List Char} (spells : Spells json text) :
    json.depth ≤ text.length := by
  have read := spells.read text.length json.depth [] (Nat.le_refl _) (Nat.le_refl _)
  exact Nat.le_trans (depth_le_min_of_readValue read) (Nat.min_le_left _ _)

/-- A whole text that stands for a value is parsed as this value; blanks may follow it. -/
theorem Spells.parse_eq {json : Json} {text gap : List Char} (spells : Spells json text)
    (blanks : Blanks gap) : parse (String.ofList (text ++ gap)) = .ok json := by
  have read : Json.read (text ++ gap).length (text ++ gap) = .ok (json, gap) := by
    -- A text is never shorter than the value is deep, so its length is room enough.
    have := spells.depth_le_length
    apply spells.read
    · simp only [enoughSteps, List.length_append]
      omega
    · rw [List.length_append]
      omega
  -- Behind the value there are only blanks.
  have ended : endOfText gap = .ok () := by
    have skipped : skipSpace (gap ++ []) = [] := List.dropWhile_append_of_pos blanks
    rw [endOfText, ← List.append_nil gap, skipped]
    rfl
  rw [parse, String.toList_ofList, read]
  simp only [bind, Except.bind, ended]
  rfl

end Gleaner.Json
