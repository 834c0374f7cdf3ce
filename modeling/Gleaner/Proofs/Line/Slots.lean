import Gleaner.Line.Pattern
import Gleaner.Proofs.Regex.Names
import Mathlib.Data.List.Nodup

/-!
# Slots and named groups

The named groups of a line or a sequence of lines are its slots, in the same order. Where no
captures are allowed there are none of either. The slots are numbered one after the other, so that
no two of them have the same name, as long as there are numbers left.
-/

namespace Gleaner

theorem map_token_placeTokens (allowCapture : Bool) (next : Nat) (tokens : List Token) :
    (placeTokens allowCapture next tokens).map PlacedToken.token = tokens := by
  induction tokens generalizing next with
  | nil => rfl
  | cons token rest ih =>
    rw [placeTokens]
    split <;> simp [ih]

/-- Where no captures are allowed, no token is given a group. -/
theorem placeTokens_false (next : Nat) (tokens : List Token) :
    placeTokens false next tokens = tokens.map (⟨·, none⟩) := by
  induction tokens with
  | nil => rfl
  | cons token rest ih => simp [placeTokens, Token.needsGroup, ih]

theorem Numeral.groupNames_pattern (kind : NumberKind) (sign : Sign) :
    (pattern kind sign).groupNames = [] := by
  cases kind <;> cases sign <;> rfl

theorem Spacing.groupNames_separator (spacing : Spacing) : spacing.separator.groupNames = [] := by
  cases spacing <;> rfl

theorem Token.groupNames_fragment (token : Token) : token.fragment.groupNames = [] := by
  cases token with
  | optionalLine => rfl
  | anything capture => rfl
  | literal flags first rest =>
    have once := Regex.groupNames_literal (first :: rest)
    cases quantity : flags.quantity with
    | single => simpa only [fragment, quantity, Quantity.choose] using once
    -- The group of a repetition has no name.
    | oneOrMore =>
      simpa only [fragment, quantity, Quantity.choose, Regex.groupNames, GroupKind.name?,
        Option.toList_none, List.nil_append] using once
  | misc flags => cases quantity : flags.quantity <;> simp only [fragment, quantity] <;> rfl
  | number flags sign kind =>
    have once := Numeral.groupNames_pattern kind sign
    cases quantity : flags.quantity with
    | single => simpa only [fragment, quantity, Quantity.choose] using once
    | oneOrMore =>
      simp only [fragment, quantity, Quantity.choose, Regex.groupNames_append, Regex.groupNames,
        GroupKind.name?, Spacing.groupNames_separator, once]
      rfl

namespace PlacedToken

theorem groupNames_pattern (placed : PlacedToken) :
    placed.pattern.groupNames = placed.slot?.toList.map Slot.name := by
  obtain ⟨token, slot⟩ := placed
  cases slot with
  | none => exact token.groupNames_fragment
  | some index =>
    simp only [pattern, Regex.groupNames, token.groupNames_fragment]
    rfl

theorem groupNames_bounded (glued : Bool) (placed : PlacedToken) :
    (placed.bounded glued).groupNames = placed.slot?.toList.map Slot.name := by
  have opening : ∀ on : Bool, (if on then WordBoundary.opening else .empty).groupNames = [] := by
    decide
  have closing : ∀ on : Bool, (if on then WordBoundary.closing else .empty).groupNames = [] := by
    decide
  simp only [bounded, Regex.groupNames_concat, List.flatMap_cons, List.flatMap_nil,
    groupNames_pattern, opening, closing, List.nil_append, List.append_nil]

theorem filterMap_slot?_cons (placed : PlacedToken) (rest : List PlacedToken) :
    (placed :: rest).filterMap slot? = placed.slot?.toList ++ rest.filterMap slot? := by
  cases slotted : placed.slot? <;> simp [slotted]

theorem groupNames_patternOf (glued : Bool) (placed : List PlacedToken) :
    (patternOf glued placed).groupNames = (placed.filterMap slot?).map Slot.name := by
  induction placed generalizing glued with
  | nil => rfl
  | cons first rest ih =>
    rw [filterMap_slot?_cons]
    cases rest with
    | nil => simp [patternOf, groupNames_bounded]
    | cons second rest =>
      simp only [patternOf, Regex.groupNames_concat, List.flatMap_cons, List.flatMap_nil,
        -- Separators and boundaries have no groups, so only those of the tokens are left.
        groupNames_bounded, Spacing.groupNames_separator, ih, List.map_append]
      simp

end PlacedToken

namespace Line

theorem groupNames_pattern (line : Line) (allowCapture : Bool) (start : Nat) :
    (line.pattern allowCapture start).regex.groupNames =
      (line.pattern allowCapture start).slots.map Slot.name := by
  have whole : ∀ placed, (wholeRegex placed).groupNames =
      (placed.filterMap PlacedToken.slot?).map Slot.name := by
    intro placed
    -- The anchors and margins of a line have no groups.
    have margins : ∀ on : Bool, (if on then .empty else margin).groupNames = [] := by decide
    have ends : lineStart.groupNames = [] ∧ margin.groupNames = [] ∧ lineEnd.groupNames = [] := by
      decide
    simp only [wholeRegex, Regex.groupNames_concat, List.flatMap_cons, List.flatMap_nil,
      PlacedToken.groupNames_patternOf, margins, ends, List.nil_append, List.append_nil]
  simp only [pattern]
  split
  next => exact whole _
  next => exact whole _

theorem groupNames_sequence (allowCapture : Bool) (start : Nat) (lines : List Line) :
    (sequence allowCapture start lines).regex.groupNames =
      (sequence allowCapture start lines).slots.map Slot.name := by
  induction lines generalizing start with
  | nil => rfl
  | cons line rest ih =>
    cases rest with
    | nil => exact line.groupNames_pattern allowCapture start
    | cons second rest =>
      have joint : lineJoint.groupNames = [] := rfl
      simp [sequence, groupNames_pattern, ih, joint]

theorem slots_sequence_false (start : Nat) (lines : List Line) :
    (sequence false start lines).slots = [] := by
  -- Without captures no token is given a slot.
  have tokens (next : Nat) (tokens : List Token) :
      (placeTokens false next tokens).filterMap PlacedToken.slot? = [] := by
    simp [placeTokens_false, PlacedToken.slot?]
  induction lines generalizing start with
  | nil => rfl
  | cons line rest ih =>
    cases rest with
    | nil => exact tokens start line.tokens
    | cons second rest =>
      simp only [sequence, ih, List.append_nil]
      exact tokens start line.tokens

/-- A sequence of lines that may keep nothing has no named groups. -/
theorem groupNames_sequence_false (start : Nat) (lines : List Line) :
    (sequence false start lines).regex.groupNames = [] := by
  rw [groupNames_sequence, slots_sequence_false, List.map_nil]

end Line

/-! ### Slots of the tokens that are kept -/

theorem groupCount_true (tokens : List Token) :
    groupCount true tokens = (tokens.filter Token.capture).length := by
  simp [groupCount, Token.needsGroup, List.countP_eq_length_filter]

theorem slotted_placeTokens (next : Nat) (tokens : List Token) :
    ∀ placed ∈ placeTokens true next tokens, placed.slot.isSome = placed.token.capture := by
  induction tokens generalizing next with
  | nil => simp [placeTokens]
  | cons token rest ih =>
    rw [placeTokens]
    split
    next captured =>
      exact List.forall_mem_cons.mpr ⟨by simpa [Token.needsGroup] using captured.symm, ih _⟩
    next passed => exact List.forall_mem_cons.mpr ⟨by simpa [Token.needsGroup] using passed, ih _⟩

theorem length_slots_placeTokens (allowCapture : Bool) (next : Nat) (tokens : List Token) :
    ((placeTokens allowCapture next tokens).filterMap PlacedToken.slot?).length =
      groupCount allowCapture tokens := by
  induction tokens generalizing next with
  | nil => rfl
  | cons token rest ih =>
    rw [placeTokens, groupCount, List.countP_cons, ← groupCount]
    split
    next =>
      -- A token that is kept takes this number, and the others go on behind it.
      rw [← ih (groupAfter next 1)]
      rfl
    next =>
      rw [← ih next]
      rfl

/-! ### Numbers -/

theorem groupAfter_lt (number count : Nat) : groupAfter number count < UInt64.size :=
  Nat.mod_lt _ (by decide)

theorem groupAfter_groupAfter (number count count' : Nat) :
    groupAfter (groupAfter number count) count' = groupAfter number (count + count') := by
  simp only [groupAfter, Nat.mod_add_mod, Nat.add_assoc]

/-- The numbers from another one on, as many as are asked for. -/
def groupsFrom (number count : Nat) : List Nat :=
  (List.range count).map (groupAfter number)

theorem groupsFrom_add (number count count' : Nat) :
    groupsFrom number (count + count') =
      groupsFrom number count ++ groupsFrom (groupAfter number count) count' := by
  simp [groupsFrom, List.range_add, Function.comp_def, groupAfter_groupAfter]

theorem groupsFrom_one {number : Nat} (isNumber : number < UInt64.size) :
    groupsFrom number 1 = [number] := by
  simp [groupsFrom, groupAfter, Nat.mod_eq_of_lt isNumber]

theorem nodup_groupsFrom (number : Nat) {count : Nat} (enough : count ≤ UInt64.size) :
    (groupsFrom number count).Nodup := by
  refine List.Nodup.map_on (fun i inRange j inRange' same => ?_) List.nodup_range
  rw [List.mem_range] at inRange inRange'
  simp only [groupAfter, UInt64.size] at same enough
  omega

theorem map_index_placeTokens (allowCapture : Bool) {start : Nat} (isNumber : start < UInt64.size)
    (tokens : List Token) :
    ((placeTokens allowCapture start tokens).filterMap PlacedToken.slot?).map Slot.index =
      groupsFrom start (groupCount allowCapture tokens) := by
  induction tokens generalizing start with
  | nil => rfl
  | cons token rest ih =>
    rw [placeTokens, groupCount, List.countP_cons]
    split
    next =>
      -- The number of this token comes first; those of the others begin at the next one.
      rw [Nat.add_comm, groupsFrom_add, groupsFrom_one isNumber, ← groupCount,
        ← ih (groupAfter_lt start 1)]
      rfl
    next =>
      rw [Nat.add_zero, ← groupCount, ← ih isNumber]
      rfl

namespace Line

/-- The tokens of some lines whose matches are kept, from the first line to the last. -/
def kept (lines : List Line) : List Token :=
  (lines.flatMap Line.tokens).filter Token.capture

theorem kept_cons (line : Line) (rest : List Line) :
    kept (line :: rest) = line.tokens.filter Token.capture ++ kept rest := by
  simp [kept]

/-- The slots of a sequence of lines have consecutive numbers, one for each token that is kept. -/
theorem map_index_sequence {start : Nat} (isNumber : start < UInt64.size) (lines : List Line) :
    (sequence true start lines).slots.map Slot.index = groupsFrom start (kept lines).length := by
  induction lines generalizing start with
  | nil => rfl
  | cons line rest ih =>
    have here := map_index_placeTokens true isNumber line.tokens
    -- The numbers of the line come first, and the next line goes on where they end.
    rw [kept_cons, List.length_append, groupsFrom_add, ← groupCount_true, ← here]
    cases rest with
    | nil => simp [sequence, pattern, kept, groupsFrom]
    | cons second rest =>
      rw [← ih (groupAfter_lt _ _)]
      exact List.map_append

/-- No two slots of a sequence of lines have the same name. -/
theorem nodup_names_sequence {start : Nat} (isNumber : start < UInt64.size) {lines : List Line}
    (enough : (kept lines).length ≤ UInt64.size) :
    ((sequence true start lines).slots.map Slot.name).Nodup := by
  have names : (sequence true start lines).slots.map Slot.name =
      ((sequence true start lines).slots.map Slot.index).map GroupName.slot := by
    rw [List.map_map]
    rfl
  rw [names, map_index_sequence isNumber]
  exact (nodup_groupsFrom start enough).map fun _ _ same => GroupName.slot.inj same

end Line

end Gleaner
