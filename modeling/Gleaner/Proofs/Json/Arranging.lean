import Gleaner.Proofs.Json.Trees

/-!
# Trees of texts

A reader that succeeds has followed the tokens of a tree: every value that is read or skimmed in
front of a text has one. Where the reader goes from one token to the next, the blanks and tokens it
passes over are recovered from the text.
-/

namespace Gleaner.Json

theorem exists_blanks_of_skipSpace {text rest : List Char} {c : Char}
    (skipped : skipSpace text = c :: rest) : ∃ gap, Blanks gap ∧ text = gap ++ c :: rest :=
  skipped ▸ exists_blanks text

theorem exists_lead_of_nextItem {care : Care} {first : Bool} {text rest : List Char}
    (next : nextItem care first text = .ok (true, rest)) :
    ∃ lead, Lead first lead ∧ text = lead ++ rest := by
  unfold nextItem at next
  split at next
  · cases next
  · cases next
  next c behind _ skipped =>
    obtain ⟨gap, blanks, rfl⟩ := exists_blanks_of_skipSpace skipped
    split at next
    next isFirst =>
      cases next
      exact ⟨gap, isFirst ▸ .first blanks, rfl⟩
    next isLater =>
      split at next
      next isComma =>
        have later : first = false := by simpa using isLater
        -- The reader has passed over the blanks behind the comma already.
        obtain ⟨gap', blanks', behind_eq⟩ := exists_blanks behind
        split at next
        · cases next
        · cases next
        · cases next
          refine ⟨gap ++ ',' :: gap', later ▸ .later blanks blanks', ?_⟩
          rw [isComma, List.append_assoc, List.cons_append, ← behind_eq]
      · cases next

theorem exists_end_of_nextItem {care : Care} {first : Bool} {text rest : List Char}
    (next : nextItem care first text = .ok (false, rest)) :
    ∃ gap, Blanks gap ∧ text = gap ++ ']' :: rest := by
  unfold nextItem at next
  split at next
  · cases next
  next skipped =>
    cases next
    exact exists_blanks_of_skipSpace skipped
  · repeat' split at next
    all_goals cases next

theorem exists_lead_of_nextMember {care : Care} {first : Bool} {text rest : List Char}
    (next : nextMember care first text = .ok (true, rest)) :
    ∃ lead, Lead first lead ∧ text = lead ++ '\x22' :: rest := by
  unfold nextMember at next
  split at next
  · cases next
  · cases next
  next c behind _ skipped =>
    obtain ⟨gap, blanks, rfl⟩ := exists_blanks_of_skipSpace skipped
    split at next
    next isFirst =>
      -- The first member needs no comma: the quote has to stand right behind the blanks.
      split at next <;> cases next
      next isQuote => exact ⟨gap, isFirst ▸ .first blanks, by rw [isQuote]⟩
    next isLater =>
      split at next
      next isComma =>
        have later : first = false := by simpa using isLater
        -- A later one needs its comma, and only then blanks and the quote.
        split at next <;> cases next
        next skipped' =>
          obtain ⟨gap', blanks', rfl⟩ := exists_blanks_of_skipSpace skipped'
          exact ⟨gap ++ ',' :: gap', later ▸ .later blanks blanks', by simp [isComma]⟩
      · cases next

theorem exists_end_of_nextMember {care : Care} {first : Bool} {text rest : List Char}
    (next : nextMember care first text = .ok (false, rest)) :
    ∃ gap, Blanks gap ∧ text = gap ++ '\x7d' :: rest := by
  unfold nextMember at next
  split at next
  · cases next
  next skipped =>
    cases next
    exact exists_blanks_of_skipSpace skipped
  · repeat' split at next
    all_goals cases next

theorem exists_blanks_of_takeColon {text rest : List Char} (taken : takeColon text = .ok rest) :
    ∃ gap, Blanks gap ∧ text = gap ++ ':' :: rest := by
  unfold takeColon at taken
  split at taken
  · cases taken
  next skipped =>
    split at taken <;> cases taken
    next isColon =>
      rw [isColon] at skipped
      exact exists_blanks_of_skipSpace skipped

/-- Some tokens are all that stands before a rest, apart from blanks. -/
def Takes (tokens : List (List Char)) (text rest : List Char) : Prop :=
  ∀ more, ConsistsOf more rest → ConsistsOf (tokens ++ more) text

namespace Takes

theorem token {gap : List Char} (blanks : Blanks gap) (token rest : List Char) :
    Takes [token] (gap ++ (token ++ rest)) rest :=
  fun _ consists => ⟨gap, rest, blanks, rfl, consists⟩

theorem append {first second : List (List Char)} {text behind rest : List Char}
    (takes : Takes first text behind) (takes' : Takes second behind rest) :
    Takes (first ++ second) text rest := by
  intro more consists
  rw [List.append_assoc]
  exact takes _ (takes' more consists)

theorem comma {first : Bool} {lead text rest : List Char} {tokens : List (List Char)}
    (leads : Lead first lead) (takes : Takes tokens text rest) :
    Takes (Tree.comma first ++ tokens) (lead ++ text) rest := by
  intro more consists
  rw [List.append_assoc]
  exact consistsOf_comma.mpr ⟨lead, text, leads, rfl, takes more consists⟩

end Takes

namespace Tree

theorem takes_noItems {care : Care} {first : Bool} {text rest : List Char}
    (ended : nextItem care first text = .ok (false, rest)) :
    Takes (itemTokens first []) text rest := by
  obtain ⟨gap, blanks, rfl⟩ := exists_end_of_nextItem ended
  rw [itemTokens]
  exact .token blanks [']'] rest

theorem takes_item {care : Care} {first : Bool} {text behind after rest : List Char} {item : Tree}
    {items : List Tree} (next : nextItem care first text = .ok (true, behind))
    (takes : Takes item.tokens behind after) (others : Takes (itemTokens false items) after rest) :
    Takes (itemTokens first (item :: items)) text rest := by
  obtain ⟨lead, leads, rfl⟩ := exists_lead_of_nextItem next
  rw [itemTokens]
  exact .comma leads (takes.append others)

theorem takes_noMembers {care : Care} {first : Bool} {text rest : List Char}
    (ended : nextMember care first text = .ok (false, rest)) :
    Takes (memberTokens first []) text rest := by
  obtain ⟨gap, blanks, rfl⟩ := exists_end_of_nextMember ended
  rw [memberTokens]
  exact .token blanks ['\x7d'] rest

/-- A member that was read has a token for its key. -/
theorem exists_key {care : Care} {first : Bool} {name : String}
    {text behind behindKey behindColon after rest : List Char} {value : Tree}
    {members : List (List Char × Tree)} (next : nextMember care first text = .ok (true, behind))
    (key_read : readString care behind = .ok (name, behindKey))
    (colon : takeColon behindKey = .ok behindColon) (takes : Takes value.tokens behindColon after)
    (others : Takes (memberTokens false members) after rest) :
    ∃ key, (keyOf? .skim key).isSome ∧
      Takes (memberTokens first ((key, value) :: members)) text rest := by
  obtain ⟨lead, leads, rfl⟩ := exists_lead_of_nextMember next
  obtain ⟨tail, rfl, quoted⟩ := takesTokens_readString.exists_token key_read
  obtain ⟨gap, blanks, rfl⟩ := exists_blanks_of_takeColon colon
  -- The tokens of the member, from its quote to the rest of the object.
  have key : Takes ['\x22' :: tail] ('\x22' :: tail ++ (gap ++ ':' :: behindColon))
      (gap ++ ':' :: behindColon) := .token .nil _ _
  have colon : Takes [[':']] (gap ++ ':' :: behindColon) behindColon := .token blanks [':'] _
  refine ⟨'\x22' :: tail, quoted, ?_⟩
  rw [memberTokens]
  exact .comma leads (key.append (colon.append (takes.append others)))

mutual

/-- A value that was read has a tree. -/
theorem exists_of_readValue {care : Care} {steps depth : Nat} {text rest : List Char} {json : Json}
    (read : readValue care steps depth text = .ok (json, rest)) :
    ∃ tree : Tree, tree.Proper ∧ Takes tree.tokens text rest := by
  match steps with
  | 0 => cases read
  | steps + 1 =>
    -- What is read is told apart by the first character behind the blanks.
    rw [readValue] at read
    split at read
    · cases read
    next c behind skipped =>
    obtain ⟨gap, blanks, rfl⟩ := exists_blanks_of_skipSpace skipped
    split at read
    next isArray =>
      subst isArray
      split at read
      -- An array that would pass the limit on depth is not read at all.
      · cases read
      obtain ⟨items, proper, takes⟩ := exists_of_readItems read
      refine ⟨.array items, proper_array.mpr proper, ?_⟩
      rw [tokens]
      exact (Takes.token blanks ['['] behind).append takes
    next noArray =>
    split at read
    next isObject =>
      subst isObject
      split at read
      · cases read
      obtain ⟨members, proper, takes⟩ := exists_of_readMembers read
      refine ⟨.object members, proper_object.mpr proper, ?_⟩
      rw [tokens]
      exact (Takes.token blanks ['\x7b'] behind).append takes
    next noObject =>
      obtain ⟨⟨scalar, after⟩, scalar_read, made⟩ := except_bind_eq_ok.mp read
      cases made
      -- A scalar has no structure of its own: its one token is what its reader took.
      obtain ⟨tail, rfl, proper⟩ := (takesTokens_readScalar c).exists_token scalar_read
      refine ⟨.scalar (c :: tail), ?_, ?_⟩
      · rw [Proper, json?, Option.isSome_map]
        exact proper
      · rw [tokens]
        exact .token blanks (c :: tail) rest

theorem exists_of_readItems {care : Care} {steps depth : Nat} {first : Bool} {found : List Json}
    {text rest : List Char} {json : Json}
    (read : readItems care steps depth first found text = .ok (json, rest)) :
    ∃ items, (values? .skim 0 items).isSome ∧ Takes (itemTokens first items) text rest := by
  match steps with
  | 0 => cases read
  | steps + 1 =>
    rw [readItems] at read
    obtain ⟨⟨more, behind⟩, next, read⟩ := except_bind_eq_ok.mp read
    -- Whether an item follows was decided by the text; the tree is built in the same order.
    cases more with
    | false =>
      cases read
      exact ⟨[], by rw [values?]; rfl, takes_noItems next⟩
    | true =>
      obtain ⟨⟨value, after⟩, item_read, read⟩ := except_bind_eq_ok.mp read
      obtain ⟨item, itemProper, takes⟩ := exists_of_readValue item_read
      obtain ⟨items, othersProper, others⟩ := exists_of_readItems read
      exact ⟨item :: items, isSome_values?_cons.mpr ⟨itemProper, othersProper⟩,
        takes_item next takes others⟩

theorem exists_of_readMembers {care : Care} {steps depth : Nat} {first : Bool}
    {found : List (String × Json)} {text rest : List Char} {json : Json}
    (read : readMembers care steps depth first found text = .ok (json, rest)) :
    ∃ members, (members? .skim 0 members).isSome ∧ Takes (memberTokens first members) text rest := by
  match steps with
  | 0 => cases read
  | steps + 1 =>
    rw [readMembers] at read
    obtain ⟨⟨more, behind⟩, next, read⟩ := except_bind_eq_ok.mp read
    cases more with
    | false =>
      cases read
      exact ⟨[], by rw [members?]; rfl, takes_noMembers next⟩
    | true =>
      obtain ⟨⟨name, behindKey⟩, key_read, read⟩ := except_bind_eq_ok.mp read
      obtain ⟨behindColon, colon, read⟩ := except_bind_eq_ok.mp read
      obtain ⟨⟨json, after⟩, value_read, read⟩ := except_bind_eq_ok.mp read
      obtain ⟨value, valueProper, takes⟩ := exists_of_readValue value_read
      obtain ⟨members, othersProper, others⟩ := exists_of_readMembers read
      -- The key's token reaches from the quote to the quote; the colon is a token of its own.
      obtain ⟨key, keyProper, takes⟩ := exists_key next key_read colon takes others
      exact ⟨(key, value) :: members,
        isSome_members?_cons.mpr ⟨keyProper, valueProper, othersProper⟩, takes⟩

end

end Tree

end Gleaner.Json
