import Gleaner.Proofs.Layout.Outlines
import Gleaner.Proofs.Line.Faults

/-!
# What is wrong with a layout

The lines of a layout are read from head to tail, and those of a block inside it where the block
stands. Something else than a line is wrong where a body or the lines of a sequence are missing. The
first fault in this order is the one that is reported: `Section.checks` lists what is read, and
`Layout.outlines_eq_error_iff` says that the fault comes from the first entry that has one.
-/

namespace Gleaner

/-- What is met when a layout is read: a line, or that something is missing. -/
inductive Check where
  | line (text : String)
  | missing (cause : SectionCause)
deriving DecidableEq, Repr

namespace Check

def Sound : Check → Prop
  | line text => SoundLine text
  | missing _ => False

def Faulty : Check → Fault → Prop
  | line text, fault => LineFault text fault
  | missing cause, fault => fault = .badSection cause

end Check

/-- The fault of the first entry that is not sound. -/
inductive FirstFault : List Check → Fault → Prop where
  | here {check : Check} {rest : List Check} {fault : Fault} (faulty : check.Faulty fault) :
    FirstFault (check :: rest) fault
  | later {check : Check} {rest : List Check} {fault : Fault} (sound : check.Sound)
    (others : FirstFault rest fault) : FirstFault (check :: rest) fault

/-- What is met in a part of a block, in the order of reading. -/
def Section.checks : Section → List Check
  | absent => []
  | line text => [.line text]
  | lines texts => if texts.isEmpty then [.missing .noLines] else texts.map .line
  | nested head body tail =>
    head.checks ++
      ((if body = .absent then [.missing .bodyRequired] else body.checks) ++ tail.checks)

def Layout.checks (layout : Layout) : List Check :=
  Section.checks (.nested layout.head layout.body layout.tail)

theorem firstFault_append {first second : List Check} {fault : Fault} :
    FirstFault (first ++ second) fault ↔
      FirstFault first fault ∨ (∀ check ∈ first, check.Sound) ∧ FirstFault second fault := by
  -- On the checks before; the first one that fails decides.
  induction first with
  | nil =>
    constructor
    · exact fun faulty => .inr ⟨List.forall_mem_nil _, faulty⟩
    · rintro (none_ | ⟨-, faulty⟩)
      · cases none_
      · exact faulty
  | cons check rest ih =>
    constructor
    · rintro (faulty | ⟨sound, others⟩)
      · exact .inl (.here faulty)
      -- This check is sound, so the fault is in the rest of the first ones or in the second ones.
      · rcases ih.mp others with faulty | ⟨sound', faulty⟩
        · exact .inl (.later sound faulty)
        · exact .inr ⟨List.forall_mem_cons.mpr ⟨sound, sound'⟩, faulty⟩
    · rintro ((faulty | ⟨sound, others⟩) | ⟨sound, faulty⟩)
      · exact .here faulty
      · exact .later sound (ih.mpr (.inl others))
      · obtain ⟨here, others⟩ := List.forall_mem_cons.mp sound
        exact .later here (ih.mpr (.inr ⟨others, faulty⟩))

/-- The outcome of reading fits what is met: a result if it is all sound, else the first fault. -/
def Fits {α : Type} (checks : List Check) (outcome : Except Fault α) : Prop :=
  match outcome with
  | .ok _ => ∀ check ∈ checks, check.Sound
  | .error fault => FirstFault checks fault

theorem fits_parse (text : String) : Fits [.line text] (Line.parse text) := by
  cases parsed : Line.parse text with
  | ok line => exact List.forall_mem_singleton.mpr (Line.exists_parse_iff.mp ⟨line, parsed⟩)
  | error fault => exact .here (Line.parse_eq_error_iff.mp parsed)

theorem fits_map {α β : Type} {checks : List Check} {outcome : Except Fault α} {f : α → β} :
    Fits checks (outcome.map f) ↔ Fits checks outcome := by
  cases outcome <;> rfl

/-- Of two readings, the second is made if the first one succeeds. -/
theorem Fits.bind {α β : Type} {first second : List Check} {outcome : Except Fault α}
    {next : α → Except Fault β} (fits : Fits first outcome)
    (fits' : ∀ given, outcome = .ok given → Fits second (next given)) :
    Fits (first ++ second) (outcome >>= next) := by
  cases outcome with
  | error fault => exact firstFault_append.mpr (.inl fits)
  | ok given =>
    -- The first reading is sound, so its checks are passed on to whatever the second one answers.
    have after := fits' given rfl
    change Fits (first ++ second) (next given)
    cases reached : next given with
    | ok result =>
      rw [reached] at after
      exact List.forall_mem_append.mpr ⟨fits, after⟩
    | error fault =>
      rw [reached] at after
      exact firstFault_append.mpr (.inr ⟨fits, after⟩)

theorem fits_mapM (texts : List String) : Fits (texts.map .line) (texts.mapM Line.parse) := by
  induction texts with
  | nil => exact List.forall_mem_nil _
  | cons text rest ih =>
    rw [List.mapM_cons, List.map_cons, ← List.singleton_append]
    exact (fits_parse text).bind fun line _ => fits_map.mpr ih

namespace Section

theorem absent_of_outline {content : Section} (outlined : content.outline = .ok none) :
    content = .absent := by
  cases content with
  | absent => rfl
  | line | lines | nested =>
    obtain ⟨_, -, some_⟩ := except_map_eq_ok.mp outlined
    cases some_

theorem fits_outline (content : Section) : Fits content.checks content.outline := by
  induction content with
  | absent => exact List.forall_mem_nil _
  | line text => exact fits_map.mpr (fits_map.mpr (fits_parse text))
  | lines texts =>
    rw [checks, outline, compileLines, parseLines]
    -- No line at all is a fault of its own, and comes before those of any line.
    split
    next => exact .here rfl
    next => exact fits_map.mpr (fits_map.mpr (fits_mapM texts))
  | nested head body tail headed bodied tailed =>
    refine fits_map.mpr (headed.bind fun headOutline _ => ?_)
    -- A missing body is reported after the head and before anything of the tail.
    split
    next missing =>
      subst missing
      exact .here rfl
    next present =>
      refine bodied.bind fun bodyOutline outlined => ?_
      cases bodyOutline with
      | none => exact absurd (absent_of_outline outlined) present
      | some => exact fits_map.mpr tailed

end Section

theorem Layout.fits_outlines (layout : Layout) : Fits layout.checks layout.outlines :=
  fits_map.mp (Section.fits_outline (.nested layout.head layout.body layout.tail))

/-! ### The fault of a layout -/

namespace Check.Faulty

/-- A sound entry has no fault. -/
theorem not_sound {check : Check} {fault : Fault} (faulty : check.Faulty fault) : ¬check.Sound := by
  cases check with
  | line text =>
    intro sound
    obtain ⟨parsed, made⟩ := Line.parse_of_sound sound
    cases made.symm.trans (Line.parse_of_fault faulty)
  | missing => exact id

theorem unique {check : Check} {fault fault' : Fault} (faulty : check.Faulty fault)
    (faulty' : check.Faulty fault') : fault = fault' := by
  cases check with
  | line text =>
    have refused := Line.parse_of_fault faulty
    have refused' := Line.parse_of_fault faulty'
    exact Except.error.inj (refused.symm.trans refused')
  | missing => exact Eq.trans faulty (Eq.symm faulty')

end Check.Faulty

namespace FirstFault

theorem not_sound {checks : List Check} {fault : Fault} (faulty : FirstFault checks fault) :
    ¬∀ check ∈ checks, check.Sound := by
  intro sound
  induction faulty with
  | here faulty => exact faulty.not_sound (sound _ List.mem_cons_self)
  | later _ _ ih => exact ih fun check member => sound check (List.mem_cons_of_mem _ member)

theorem unique {checks : List Check} {fault fault' : Fault} (faulty : FirstFault checks fault)
    (faulty' : FirstFault checks fault') : fault = fault' := by
  induction faulty with
  | here faulty =>
    cases faulty' with
    | here faulty' => exact faulty.unique faulty'
    | later sound => exact absurd sound faulty.not_sound
  | later sound _ ih =>
    cases faulty' with
    | here faulty' => exact absurd sound faulty'.not_sound
    | later _ others => exact ih others

end FirstFault

/-- The fault of a layout is the first one from head to tail. -/
theorem Layout.outlines_eq_error_iff {layout : Layout} {fault : Fault} :
    layout.outlines = .error fault ↔ FirstFault layout.checks fault := by
  -- The outcome fits its checks, and no two faults can both be the first.
  have fits := layout.fits_outlines
  cases outlined : layout.outlines with
  | ok outlines =>
    rw [outlined] at fits
    exact ⟨nofun, fun faulty => absurd fits faulty.not_sound⟩
  | error fault' =>
    rw [outlined] at fits
    rw [Except.error.injEq]
    constructor
    · rintro rfl
      exact fits
    · exact fits.unique

/-- A line is refused for the first thing that is wrong with it and for nothing else: it breaks, a
word is no token, or a mark is misplaced. The fault points at a part of the line, and a part that is
no token is that word when it stands alone. Whatever precedes a break can be cut, and the character
at the break tells the cause. In a layout, the first fault from head to tail counts. -/
theorem refused_for_first_fault (line : String) (allowCapture : Bool) (start : Nat) :
    (∀ fault, compileLine line allowCapture start = .error fault ↔ LineFault line fault) ∧
    ((∃ pattern, compileLine line allowCapture start = .ok pattern) ↔ SoundLine line) ∧
    (∀ fault, LineFault line fault →
      ∃ span, fault.location? = some ⟨line, span⟩ ∧ span.Within line) ∧
    (∀ token location, LineFault line (.badToken token (some location)) →
      Word.split (location.span.slice line) =
        .ok [⟨token.toList, ⟨0, (location.span.slice line).utf8ByteSize⟩⟩]) ∧
    (∀ cause location, LineFault line (.badLine cause location) →
      cause.message ∈ ["unterminated quote", "dangling escape",
        "optional-line marker `?` must be the first token"]) ∧
    (∀ complete, Word.Complete complete →
      ∃ words, Word.split (String.ofList complete) = .ok words) ∧
    (∀ cause c rest, Word.Breaks cause (c :: rest) →
      cause.message = if c = '\\' then "dangling escape" else "unterminated quote") ∧
    ∀ layout fault, Template.make layout = .error fault ↔ FirstFault layout.checks fault := by
  refine ⟨fun fault => compileLine_eq_error, exists_compileLine_iff, fun fault => LineFault.located,
    fun token location => LineFault.token_alone, fun cause location => LineFault.cause_message,
    fun complete whole => ?_, fun cause c rest => Word.Breaks.message, fun layout fault => ?_⟩
  · rw [Word.exists_split_iff, String.toList_ofList]
    exact whole
  · rw [Template.make_eq_error, Layout.outlines_eq_error_iff]

/-- A mark behind a token, a word that is no token and a quote that is not closed: each is reported
once those after it in this list are gone. -/
theorem refused_for_first_fault_each :
    compileLine "@.é ? q \"b" true 0 =
      .error (.badLine .unterminatedQuote ⟨"@.é ? q \"b", ⟨9, 11⟩⟩) ∧
    compileLine "@.é ? q" true 0 = .error (.badToken "q" (some ⟨"@.é ? q", ⟨7, 8⟩⟩)) ∧
    compileLine "@.é ?" true 0 = .error (.badLine .misplacedMarker ⟨"@.é ?", ⟨5, 6⟩⟩) := by
  -- The quote breaks the line before any word is looked at.
  have quoted : LineFault "@.é ? q \"b" (.badLine .unterminatedQuote ⟨"@.é ? q \"b", ⟨9, 11⟩⟩) := by
    have words : Word.split "@.é ? q " =
        .ok [⟨['@', '.', 'é'], ⟨0, 4⟩⟩, ⟨['?'], ⟨5, 6⟩⟩, ⟨['q'], ⟨7, 8⟩⟩] := by decide +kernel
    have whole : Word.Complete "@.é ? q ".toList := Word.exists_split_iff.mp ⟨_, words⟩
    have breaks : Word.Breaks .unterminatedQuote ['\x22', 'b'] :=
      .double (Word.takeDouble_eq_none.mp rfl)
    exact .broken rfl whole breaks
  -- Without the quote the words can be cut, and the first one that is no token counts.
  have word : LineFault "@.é ? q" (.badToken "q" (some ⟨"@.é ? q", ⟨7, 8⟩⟩)) :=
    .token (show Word.split "@.é ? q" = .ok ([⟨['@', '.', 'é'], ⟨0, 4⟩⟩, ⟨['?'], ⟨5, 6⟩⟩] ++
      ⟨['q'], ⟨7, 8⟩⟩ :: []) by decide +kernel) (by decide) (by decide)
  -- With tokens only, the mark is left, which stands behind another token.
  have marker : LineFault "@.é ?" (.badLine .misplacedMarker ⟨"@.é ?", ⟨5, 6⟩⟩) :=
    .marker (show Word.split "@.é ?" = .ok (⟨['@', '.', 'é'], ⟨0, 4⟩⟩ :: ([] ++
      ⟨['?'], ⟨5, 6⟩⟩ :: [])) by decide +kernel) (by decide) (by decide) rfl
  exact ⟨((refused_for_first_fault _ true 0).1 _).mpr quoted,
    ((refused_for_first_fault _ true 0).1 _).mpr word,
    ((refused_for_first_fault _ true 0).1 _).mpr marker⟩

end Gleaner
