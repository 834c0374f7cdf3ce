import Gleaner.Json.Reader
import Gleaner.Proofs.Fallible

/-!
# Values in front of a text

A reading that succeeds takes at least one character off the text, and a step for each character it
takes is enough for it. So a value that was read in front of a text is read there by any reader with
that many steps, if it goes as deep as the value does. `Front` says this of a value, and
`FrontItems` and `FrontMembers` follow the reader from item to item and from member to member.
-/

namespace Gleaner.Json

/-! ### Nesting -/

mutual

/-- The greatest number of arrays and objects that enclose each other in a value. -/
def depth : Json → Nat
  | array items => depthOfItems items + 1
  | object members => depthOfMembers members + 1
  | _ => 0

def depthOfItems : List Json → Nat
  | [] => 0
  | item :: rest => max item.depth (depthOfItems rest)

def depthOfMembers : List (String × Json) → Nat
  | [] => 0
  | (_, value) :: rest => max value.depth (depthOfMembers rest)

end

theorem depth_array_le {items : List Json} {limit : Nat} :
    (array items).depth ≤ limit + 1 ↔ ∀ item ∈ items, item.depth ≤ limit := by
  rw [depth, Nat.add_le_add_iff_right]
  induction items with
  | nil => simp [depthOfItems]
  | cons item rest ih => rw [depthOfItems, Nat.max_le, ih, List.forall_mem_cons]

theorem depth_object_le {members : List (String × Json)} {limit : Nat} :
    (object members).depth ≤ limit + 1 ↔ ∀ member ∈ members, member.2.depth ≤ limit := by
  rw [depth, Nat.add_le_add_iff_right]
  induction members with
  | nil => simp [depthOfMembers]
  | cons member rest ih =>
    obtain ⟨key, value⟩ := member
    rw [depthOfMembers, Nat.max_le, ih, List.forall_mem_cons]

/-! ### Lengths -/

theorem length_skipSpace_le (text : List Char) : (skipSpace text).length ≤ text.length :=
  (List.dropWhile_suffix _).length_le

theorem length_of_takeString {care : Care} {found text rest : List Char} {value : String}
    (taken : takeString care found text = .ok (value, rest)) : rest.length < text.length := by
  -- A quote or a character goes with every call, and an escape takes at least one more.
  fun_induction takeString care found text with
  | case1 => cases taken
  | case2 =>
    cases taken
    exact Nat.lt_succ_self _
  | case3 => cases taken
  | case4 _ _ _ after escape _ ih =>
    exact Nat.lt_succ_of_lt (Nat.lt_trans (ih taken) (takeEscape_length escape))
  | case5 => cases taken
  | case6 _ _ _ _ _ _ ih => exact Nat.lt_succ_of_lt (ih taken)

theorem length_of_takeName {name text rest : List Char} (taken : takeName name text = .ok rest) :
    rest.length ≤ text.length := by
  fun_induction takeName name text with
  | case1 =>
    cases taken
    exact Nat.le_refl _
  | case2 => cases taken
  | case3 _ _ _ ih => exact Nat.le_succ_of_le (ih taken)
  | case4 => cases taken

theorem length_takeDigits_le (text : List Char) : (takeDigits text).2.length ≤ text.length :=
  (List.dropWhile_suffix _).length_le

theorem length_of_takeWhole {care : Care} {text digits rest : List Char}
    (taken : takeWhole care text = .ok (digits, rest)) : rest.length < text.length := by
  -- The digits that are taken and what is left of them make up the text.
  have parts : ((takeDigits text).1 ++ (takeDigits text).2).length = text.length :=
    congrArg List.length List.takeWhile_append_dropWhile
  rw [List.length_append] at parts
  unfold takeWhole at taken
  dsimp only at taken
  split at taken
  · cases taken
  · cases taken
  next some _ =>
    cases taken
    have := List.length_pos_iff.mpr some
    omega

/-- Digits that must not be missing, behind a mark of their own. -/
theorem length_of_someDigits {α : Type} {text rest : List Char}
    {fault : TextFault} {given result : α}
    (taken : (if (takeDigits text).1.isEmpty then .error fault
      else .ok (given, (takeDigits text).2) : Except TextFault (α × List Char)) =
      .ok (result, rest)) : rest.length ≤ text.length := by
  split at taken
  · cases taken
  · cases taken
    exact length_takeDigits_le text

theorem length_of_takeFraction {care : Care} {text rest : List Char} {fraction : Option (List Char)}
    (taken : takeFraction care text = .ok (fraction, rest)) : rest.length ≤ text.length := by
  unfold takeFraction at taken
  split at taken
  · exact Nat.le_succ_of_le (length_of_someDigits taken)
  · cases taken
    exact Nat.le_refl _

theorem length_of_takeExponent {care : Care} {text rest : List Char}
    {exponent : Option (List Char × List Char)}
    (taken : takeExponent care text = .ok (exponent, rest)) : rest.length ≤ text.length := by
  unfold takeExponent at taken
  split at taken
  next c behind =>
    split at taken
    · -- A sign may stand between the letter and the digits.
      dsimp only at taken
      split at taken
      · exact Nat.le_succ_of_le (Nat.le_succ_of_le (length_of_someDigits taken))
      · exact Nat.le_succ_of_le (Nat.le_succ_of_le (length_of_someDigits taken))
      · exact Nat.le_succ_of_le (length_of_someDigits taken)
    · cases taken
      exact Nat.le_refl _
  · cases taken
    exact Nat.le_refl _

theorem length_of_takeNumber {care : Care} {negative : Bool} {text rest : List Char}
    {numeral : Numeral} (taken : takeNumber care negative text = .ok (numeral, rest)) :
    rest.length < text.length := by
  obtain ⟨⟨whole, behind⟩, wholeTaken, taken⟩ := except_bind_eq_ok.mp taken
  obtain ⟨⟨fraction, behind'⟩, fractionTaken, taken⟩ := except_bind_eq_ok.mp taken
  obtain ⟨⟨exponent, behind''⟩, exponentTaken, taken⟩ := except_bind_eq_ok.mp taken
  dsimp only at taken
  split at taken
  · cases taken
  · cases taken
    -- Only the whole part is never empty: it carries the strict step.
    calc rest.length
      _ ≤ behind'.length := length_of_takeExponent exponentTaken
      _ ≤ behind.length := length_of_takeFraction fractionTaken
      _ < text.length := length_of_takeWhole wholeTaken

theorem length_of_readScalar {care : Care} {c : Char} {text rest : List Char} {scalar : Scalar}
    (read : readScalar care c text = .ok (scalar, rest)) : rest.length ≤ text.length := by
  unfold readScalar at read
  iterate 3
    split at read
    · obtain ⟨behind, taken, made⟩ := except_bind_eq_ok.mp read
      cases made
      exact length_of_takeName taken
  split at read
  · obtain ⟨⟨numeral, behind⟩, taken, made⟩ := except_bind_eq_ok.mp read
    cases made
    exact Nat.le_of_lt (length_of_takeNumber taken)
  split at read
  · -- The first digit is read again, with the number.
    obtain ⟨⟨numeral, behind⟩, taken, made⟩ := except_bind_eq_ok.mp read
    cases made
    exact Nat.le_of_lt_succ (length_of_takeNumber taken)
  split at read
  · obtain ⟨⟨value, behind⟩, taken, made⟩ := except_bind_eq_ok.mp read
    cases made
    exact Nat.le_of_lt (length_of_takeString taken)
  · cases read

theorem length_of_nextItem {care : Care} {first more : Bool} {text rest : List Char}
    (next : nextItem care first text = .ok (more, rest)) :
    rest.length ≤ text.length ∧ (more = false → rest.length < text.length) := by
  have skipped := length_skipSpace_le text
  unfold nextItem at next
  split at next
  · cases next
  next behind text_eq =>
    cases next
    rw [text_eq, List.length_cons] at skipped
    omega
  next c behind _ text_eq =>
    rw [text_eq, List.length_cons] at skipped
    have skipped' := length_skipSpace_le behind
    split at next
    · cases next
      -- The first item stays where it is, so nothing but blanks is gone.
      simpa using skipped
    split at next
    · split at next
      · cases next
      · cases next
      -- Behind a comma the item is still there: more items are no strict step.
      · cases next
        exact ⟨by omega, fun ended => nomatch ended⟩
    · cases next

theorem length_of_nextMember {care : Care} {first more : Bool} {text rest : List Char}
    (next : nextMember care first text = .ok (more, rest)) : rest.length < text.length := by
  have skipped := length_skipSpace_le text
  unfold nextMember at next
  split at next
  · cases next
  next behind text_eq =>
    cases next
    rw [text_eq, List.length_cons] at skipped
    omega
  next c behind _ text_eq =>
    rw [text_eq, List.length_cons] at skipped
    have skipped' := length_skipSpace_le behind
    split at next
    -- The quote of the key is gone in both cases, so a member always makes the text shorter.
    · split at next <;> cases next
      omega
    split at next
    · split at next <;> cases next
      next behind' text_eq' =>
        rw [text_eq', List.length_cons] at skipped'
        omega
    · cases next

theorem length_of_takeColon {text rest : List Char} (taken : takeColon text = .ok rest) :
    rest.length < text.length := by
  have skipped := length_skipSpace_le text
  unfold takeColon at taken
  split at taken
  · cases taken
  next text_eq =>
    rw [text_eq, List.length_cons] at skipped
    split at taken <;> cases taken
    omega

/-! ### Values -/

/-- A value stands in front of a text, and `rest` follows it: with a step for each of its characters
it is read, if it may be as deep as it is. -/
structure Front (json : Json) (text rest : List Char) : Prop where
  shorter : rest.length < text.length
  read : ∀ steps depth, text.length ≤ steps + rest.length → json.depth ≤ depth →
    readValue .keep steps depth text = .ok (json, rest)

/-- The items of an array, with its closing bracket. -/
inductive FrontItems : Bool → List Json → List Char → List Char → Prop where
  | stop {first : Bool} {text rest : List Char}
    (ended : nextItem .keep first text = .ok (false, rest)) : FrontItems first [] text rest
  | item {first : Bool} {item : Json} {items : List Json} {text behind after rest : List Char}
    (next : nextItem .keep first text = .ok (true, behind)) (front : Front item behind after)
    (others : FrontItems false items after rest) : FrontItems first (item :: items) text rest

/-- The members of an object, with its closing brace. -/
inductive FrontMembers : Bool → List (String × Json) → List Char → List Char → Prop where
  | stop {first : Bool} {text rest : List Char}
    (ended : nextMember .keep first text = .ok (false, rest)) : FrontMembers first [] text rest
  | member {first : Bool} {key : String} {value : Json} {members : List (String × Json)}
    {text behind behindKey behindColon after rest : List Char}
    (next : nextMember .keep first text = .ok (true, behind))
    (key_read : readString .keep behind = .ok (key, behindKey))
    (colon : takeColon behindKey = .ok behindColon) (front : Front value behindColon after)
    (others : FrontMembers false members after rest) :
    FrontMembers first ((key, value) :: members) text rest

namespace FrontItems

theorem shorter {first : Bool} {items : List Json} {text rest : List Char}
    (fronts : FrontItems first items text rest) : rest.length < text.length := by
  induction fronts with
  | stop ended => exact (length_of_nextItem ended).2 rfl
  | item next front _ ih =>
    have := (length_of_nextItem next).1
    have := front.shorter
    omega

theorem read {first : Bool} {items : List Json} {text rest : List Char}
    (fronts : FrontItems first items text rest) :
    ∀ steps depth found, text.length ≤ steps + rest.length →
      (∀ item ∈ items, item.depth ≤ depth) →
        readItems .keep steps depth first found text =
          .ok (.array (found.reverse ++ items), rest) := by
  induction fronts with
  | stop ended =>
    intro steps depth found enough _
    have := (length_of_nextItem ended).2 rfl
    obtain _ | steps := steps
    · omega
    rw [readItems, ended]
    simp [bind, Except.bind, pure, Except.pure]
  | @item first item items text behind after rest next front others ih =>
    intro steps depth found enough shallow
    have := (length_of_nextItem next).1
    have := front.shorter
    have := others.shorter
    obtain _ | steps := steps
    · omega
    obtain ⟨itemShallow, othersShallow⟩ := List.forall_mem_cons.mp shallow
    -- The item and the items behind it leave at least one character to each other.
    have item_read := front.read steps depth (by omega) itemShallow
    have others_read := ih steps depth (item :: found) (by omega) othersShallow
    rw [readItems, next]
    simp only [bind, Except.bind, if_true, item_read, others_read]
    simp

end FrontItems

namespace FrontMembers

theorem shorter {first : Bool} {members : List (String × Json)} {text rest : List Char}
    (fronts : FrontMembers first members text rest) : rest.length < text.length := by
  induction fronts with
  | stop ended => exact length_of_nextMember ended
  | member next key_read colon front _ ih =>
    have := length_of_nextMember next
    have := length_of_takeString key_read
    have := length_of_takeColon colon
    have := front.shorter
    omega

theorem read {first : Bool} {members : List (String × Json)} {text rest : List Char}
    (fronts : FrontMembers first members text rest) :
    ∀ steps depth found, text.length ≤ steps + rest.length →
      (∀ member ∈ members, member.2.depth ≤ depth) →
        readMembers .keep steps depth first found text =
          .ok (.object (found.reverse ++ members), rest) := by
  -- The induction is over the members; `steps` and the pairs `found` before them are generalized.
  induction fronts with
  | stop ended =>
    intro steps depth found enough _
    have := length_of_nextMember ended
    -- A call without steps is excluded: a closing brace is still to be read.
    obtain _ | steps := steps
    · omega
    rw [readMembers, ended]
    simp [bind, Except.bind, pure, Except.pure]
  | @member first key value members text behind behindKey behindColon after rest next key_read colon
      front others ih =>
    intro steps depth found enough shallow
    -- Each part of the member makes the text shorter, which leaves steps for the value and the
    -- others.
    have := length_of_nextMember next
    have := length_of_takeString key_read
    have := length_of_takeColon colon
    have := front.shorter
    have := others.shorter
    obtain _ | steps := steps
    · omega
    obtain ⟨valueShallow, othersShallow⟩ := List.forall_mem_cons.mp shallow
    have value_read := front.read steps depth (by omega) valueShallow
    have others_read := ih steps depth ((key, value) :: found) (by omega) othersShallow
    rw [readMembers, next]
    simp only [bind, Except.bind, if_true, key_read, colon, value_read, others_read]
    simp

end FrontMembers

namespace Front

theorem array {items : List Json} {text behind rest : List Char}
    (skipped : skipSpace text = '[' :: behind) (fronts : FrontItems true items behind rest) :
    Front (.array items) text rest := by
  have shorter := length_skipSpace_le text
  rw [skipped, List.length_cons] at shorter
  refine ⟨Nat.lt_trans fronts.shorter shorter, fun steps depth enough shallow => ?_⟩
  have := fronts.shorter
  obtain _ | steps := steps
  · omega
  -- An array needs room for itself, and what is in it has one level less.
  obtain _ | depth := depth
  · simp [Json.depth] at shallow
  have items_read := fronts.read steps depth [] (by omega) (depth_array_le.mp shallow)
  rw [readValue, skipped]
  exact items_read

theorem object {members : List (String × Json)} {text behind rest : List Char}
    (skipped : skipSpace text = '\x7b' :: behind) (fronts : FrontMembers true members behind rest) :
    Front (.object members) text rest := by
  have shorter := length_skipSpace_le text
  rw [skipped, List.length_cons] at shorter
  refine ⟨Nat.lt_trans fronts.shorter shorter, fun steps depth enough shallow => ?_⟩
  have := fronts.shorter
  obtain _ | steps := steps
  · omega
  obtain _ | depth := depth
  · simp [Json.depth] at shallow
  have members_read := fronts.read steps depth [] (by omega) (depth_object_le.mp shallow)
  rw [readValue, skipped]
  exact members_read

theorem scalar {scalar : Scalar} {c : Char} {text behind rest : List Char}
    (skipped : skipSpace text = c :: behind) (noArray : c ≠ '[') (noObject : c ≠ '\x7b')
    (scalar_read : readScalar .keep c behind = .ok (scalar, rest)) :
    Front scalar.toJson text rest := by
  have shorter := length_skipSpace_le text
  rw [skipped, List.length_cons] at shorter
  have := length_of_readScalar scalar_read
  refine ⟨by omega, fun steps depth enough _ => ?_⟩
  -- One step is enough for a scalar, and its depth never matters.
  obtain _ | steps := steps
  · omega
  rw [readValue, skipped]
  simp only [noArray, noObject, if_false, scalar_read]
  rfl

end Front

/-- A value with the character it begins with. -/
inductive Begins : Json → List Char → List Char → Prop where
  | array {items : List Json} {text behind rest : List Char}
    (skipped : skipSpace text = '[' :: behind) (fronts : FrontItems true items behind rest) :
    Begins (.array items) text rest
  | object {members : List (String × Json)} {text behind rest : List Char}
    (skipped : skipSpace text = '\x7b' :: behind) (fronts : FrontMembers true members behind rest) :
    Begins (.object members) text rest
  | scalar {scalar : Scalar} {c : Char} {text behind rest : List Char}
    (skipped : skipSpace text = c :: behind) (noArray : c ≠ '[') (noObject : c ≠ '\x7b')
    (scalar_read : readScalar .keep c behind = .ok (scalar, rest)) :
    Begins scalar.toJson text rest

theorem Begins.front {json : Json} {text rest : List Char} (begins : Begins json text rest) :
    Front json text rest := by
  cases begins with
  | array skipped fronts => exact .array skipped fronts
  | object skipped fronts => exact .object skipped fronts
  | scalar skipped noArray noObject scalar_read =>
    exact .scalar skipped noArray noObject scalar_read

mutual

/-- A value that is read stands in front of the text. -/
theorem begins_of_readValue {steps depth : Nat} {text rest : List Char} {json : Json}
    (read : readValue .keep steps depth text = .ok (json, rest)) : Begins json text rest := by
  match steps with
  | 0 => cases read
  | steps + 1 =>
    rw [readValue] at read
    split at read
    · cases read
    next c behind skipped =>
    -- The three ways to begin are read back in the order in which the reader tries them.
    by_cases isArray : c = '['
    · subst isArray
      obtain _ | depth := depth
      · cases read
      obtain ⟨items, rfl, fronts⟩ := frontItems_of_readItems read
      exact .array skipped fronts
    by_cases isObject : c = '\x7b'
    · subst isObject
      obtain _ | depth := depth
      · cases read
      obtain ⟨members, rfl, fronts⟩ := frontMembers_of_readMembers read
      exact .object skipped fronts
    -- Neither bracket: what is left is a scalar.
    rw [if_neg isArray, if_neg isObject] at read
    obtain ⟨⟨scalar, after⟩, scalar_read, made⟩ := except_bind_eq_ok.mp read
    cases made
    exact .scalar skipped isArray isObject scalar_read

theorem frontItems_of_readItems {steps depth : Nat} {first : Bool} {found : List Json}
    {text rest : List Char} {json : Json}
    (read : readItems .keep steps depth first found text = .ok (json, rest)) :
    ∃ items, json = .array (found.reverse ++ items) ∧ FrontItems first items text rest := by
  match steps with
  | 0 => cases read
  | steps + 1 =>
    rw [readItems] at read
    obtain ⟨⟨more, behind⟩, next, read⟩ := except_bind_eq_ok.mp read
    cases more with
    | false =>
      cases read
      exact ⟨[], by rw [List.append_nil], .stop next⟩
    | true =>
      obtain ⟨⟨item, after⟩, item_read, read⟩ := except_bind_eq_ok.mp read
      -- The items before are kept in `found`, so only the ones from here on are on the right.
      obtain ⟨items, rfl, fronts⟩ := frontItems_of_readItems read
      exact ⟨item :: items, by simp, .item next (begins_of_readValue item_read).front fronts⟩

theorem frontMembers_of_readMembers {steps depth : Nat} {first : Bool}
    {found : List (String × Json)} {text rest : List Char} {json : Json}
    (read : readMembers .keep steps depth first found text = .ok (json, rest)) :
    ∃ members, json = .object (found.reverse ++ members) ∧
      FrontMembers first members text rest := by
  match steps with
  | 0 => cases read
  | steps + 1 =>
    rw [readMembers] at read
    obtain ⟨⟨more, behind⟩, next, read⟩ := except_bind_eq_ok.mp read
    cases more with
    | false =>
      cases read
      exact ⟨[], by rw [List.append_nil], .stop next⟩
    | true =>
      obtain ⟨⟨key, behindKey⟩, key_read, read⟩ := except_bind_eq_ok.mp read
      obtain ⟨behindColon, colon, read⟩ := except_bind_eq_ok.mp read
      obtain ⟨⟨value, after⟩, value_read, read⟩ := except_bind_eq_ok.mp read
      obtain ⟨members, rfl, fronts⟩ := frontMembers_of_readMembers read
      exact ⟨(key, value) :: members, by simp,
        .member next key_read colon (begins_of_readValue value_read).front fronts⟩

end

/-- The members of the object that a whole text stands for follow its first brace. -/
theorem frontMembers_of_parse {text : String} {members : List (String × Json)}
    (parsed : parse text = .ok (.object members)) :
    ∃ behind rest, skipSpace text.toList = '\x7b' :: behind ∧
      FrontMembers true members behind rest ∧ endOfText rest = .ok () := by
  obtain ⟨⟨json, rest⟩, value_read, parsed⟩ := except_bind_eq_ok.mp parsed
  obtain ⟨_, ended, made⟩ := except_bind_eq_ok.mp parsed
  cases made
  have begins := begins_of_readValue value_read
  -- Of the three kinds of values only an object has members.
  generalize same : Json.object members = json at begins
  cases begins with
  | array => cases same
  | object skipped fronts =>
    cases same
    exact ⟨_, _, skipped, fronts, ended⟩
  | @scalar scalar => cases scalar <;> cases same

end Gleaner.Json
