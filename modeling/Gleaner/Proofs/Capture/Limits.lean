import Gleaner.Proofs.Layout.Framing
import Gleaner.Proofs.Regex.Budgets
import Mathlib.Tactic

/-!
# A limit refuses answers and changes none

The limit of an extractor reaches a capture in one place only, the budget of a search, and a search
with a larger budget keeps its answer. A capture is put together from searches so that the first one
without an answer ends it. Hence a capture with a smaller limit either comes to what it comes to with
a larger one, or it fails because a search was given up, and it cannot fail for any other reason.

The relation `KeptBy` says both at once, and is passed on by everything that a capture does with the
results of its searches.
-/

namespace Gleaner

/-! ### The budget of a search -/

namespace Budget

private theorem foldl_utf8Size (chars : List Char) (bytes : Nat) :
    chars.foldl (fun bytes c => bytes + c.utf8Size) bytes = bytes + byteLength chars := by
  induction chars generalizing bytes with
  | nil => rfl
  | cons c rest ih => rw [List.foldl_cons, ih, byteLength_cons, Nat.add_assoc]

theorem forBytes_eq (limit bytes : Nat) :
    forBytes limit bytes = min (2 ^ 64 - 1) (limit + 32 * bytes) := by
  have greatest : ceiling = 2 ^ 64 - 1 := rfl
  have units : unitsPerByte = 32 := rfl
  simp only [forBytes, saturate, greatest, units]
  -- A product that was cut off at the greatest budget cuts off the sum as well.
  omega

theorem forText_eq (limit : Nat) (text : Array Char) :
    forText limit text = min (2 ^ 64 - 1) (limit + 32 * max (byteLength text.toList) 65536) := by
  have bytes : text.foldl (fun bytes c => bytes + c.utf8Size) 0 = byteLength text.toList := by
    rw [← Array.foldl_toList, foldl_utf8Size, Nat.zero_add]
  have least : leastBytes = 65536 := rfl
  simp only [forText, bytes, forBytes_eq, least]
  split
  next short => rw [Nat.max_eq_right short]
  next long => rw [Nat.max_eq_left (by omega)]

theorem forText_mono {limit limit' : Nat} {text text' : Array Char} (le : limit ≤ limit')
    (shorter : byteLength text.toList ≤ byteLength text'.toList) :
    forText limit text ≤ forText limit' text' := by
  rw [forText_eq, forText_eq]
  omega

end Budget

/-! ### Results that are kept -/

/-- The second result is the first one, unless the first was spoilt by a search that was given up. -/
inductive KeptBy {α : Type} : Except Fault α → Except Fault α → Prop where
  | answered (value : α) : KeptBy (.ok value) (.ok value)
  | gaveUp (cause : SearchCause) (other : Except Fault α) :
    KeptBy (.error (.failedSearch cause)) other

namespace KeptBy

variable {α β : Type}

theorem bind {result result' : Except Fault α} {next next' : α → Except Fault β}
    (kept : KeptBy result result') (also : ∀ value, KeptBy (next value) (next' value)) :
    KeptBy (result >>= next) (result' >>= next') := by
  cases kept with
  | answered value => exact also value
  | gaveUp cause other => exact gaveUp cause _

theorem map {result result' : Except Fault α} (kept : KeptBy result result') (f : α → β) :
    KeptBy (result.map f) (result'.map f) := by
  cases kept with
  | answered value => exact answered (f value)
  | gaveUp cause other => exact gaveUp cause _

theorem mapM {f f' : α → Except Fault β} (kept : ∀ one, KeptBy (f one) (f' one))
    (all : List α) : KeptBy (all.mapM f) (all.mapM f') := by
  induction all with
  | nil => exact answered []
  | cons first rest ih =>
    rw [List.mapM_cons, List.mapM_cons]
    exact (kept first).bind fun _ => ih.bind fun _ => answered _

theorem ok {result result' : Except Fault α} (kept : KeptBy result result') {value : α}
    (returned : result = .ok value) : result' = .ok value := by
  subst returned
  cases kept
  rfl

theorem failedSearch {result result' : Except Fault α} (kept : KeptBy result result')
    {fault : Fault} (failed : result = .error fault) : ∃ cause, fault = .failedSearch cause := by
  subst failed
  cases kept with
  | gaveUp cause => exact ⟨cause, rfl⟩

end KeptBy

/-! ### Searches, parts and blocks -/

theorem Regex.findAll_eq_ok {regex : Regex} {limit : Nat} {text : Array Char} {found : List Match} :
    regex.findAll limit text = .ok found ↔
      regex.matchesIn text (Budget.forText limit text) = .ok found := by
  unfold findAll
  split <;> simp_all

section

variable {limit limit' : Nat}

theorem Regex.findAll_keptBy (le : limit ≤ limit') (regex : Regex) (text : Array Char) :
    KeptBy (regex.findAll limit text) (regex.findAll limit' text) := by
  cases searched : regex.matchesIn text (Budget.forText limit text) with
  | ok found =>
    -- A larger limit gives a larger budget, within which the same matches are found.
    have more := matchesIn_mono_budget (Budget.forText_mono le (Nat.le_refl _)) searched
    rw [findAll_eq_ok.mpr searched, findAll_eq_ok.mpr more]
    exact .answered found
  | error cause =>
    rw [findAll, searched]
    cases cause with
    | outOfBudget => exact .gaveUp .outOfBudget _
    | outOfRoom => exact .gaveUp .outOfRoom _

theorem readRows_keptBy (le : limit ≤ limit') (regex : Regex) (slots : List Slot)
    (text : Array Char) :
    KeptBy (readRows regex slots limit text) (readRows regex slots limit' text) :=
  (regex.findAll_keptBy le text).bind fun _ => .answered _

theorem readBlocks_keptBy (le : limit ≤ limit') (regex : Regex) (mode : Mode)
    {readers : Part → PartReader}
    (kept : ∀ part extent?,
      KeptBy ((readers part).read mode limit extent?) ((readers part).read mode limit' extent?))
    (text : Array Char) :
    KeptBy (readBlocks regex mode limit (fun part => (readers part).read mode limit) text)
      (readBlocks regex mode limit' (fun part => (readers part).read mode limit') text) := by
  -- The blocks are found first, and then their parts are read one by one.
  apply (regex.findAll_keptBy le text).bind
  intro found
  apply KeptBy.mapM
  intro block
  cases mode with
  | body => exact kept .body _
  | struct =>
    exact (kept .head _).bind fun _ => (kept .body _).bind fun _ => (kept .tail _).bind fun _ =>
      .answered _

theorem PartReader.read_keptBy (le : limit ≤ limit') (mode : Mode) (reader : PartReader)
    (text? : Option (Array Char)) :
    KeptBy (reader.read mode limit text?) (reader.read mode limit' text?) := by
  induction reader generalizing text? with
  | absent =>
    unfold read
    split
    · exact .answered _
    · split <;> exact .answered _
  | rows regex slots =>
    rcases filled_or_null text? with ⟨text, rfl, filled⟩ | missing
    · rw [read_rows mode limit regex slots filled, read_rows mode limit' regex slots filled]
      exact readRows_keptBy le regex slots text
    · rw [missing, missing]
      exact .answered _
  | blocks regex head body tail headKept bodyKept tailKept =>
    rcases filled_or_null text? with ⟨text, rfl, filled⟩ | missing
    · rw [read_blocks mode limit regex head body tail filled,
        read_blocks mode limit' regex head body tail filled]
      apply KeptBy.map
      apply readBlocks_keptBy le
      intro part extent?
      -- Each part has a reader of its own, which is given the same limit.
      cases part with
      | head => exact headKept extent?
      | body => exact bodyKept extent?
      | tail => exact tailKept extent?
    · rw [missing, missing]
      exact .answered _

end

namespace Extractor

/-- The limit is all in which the extractors of a template differ. -/
theorem ofTemplate_limit {template : Template} {limit : Nat} {extractor : Extractor}
    (built : ofTemplate template limit = .ok extractor) (limit' : Nat) :
    ofTemplate template limit' = .ok { extractor with limit := limit' } ∧
      extractor.limit = limit := by
  -- The limit is only noted, whatever else is built.
  obtain ⟨regex, runnable, made⟩ := except_bind_eq_ok.mp built
  obtain ⟨head, headBuilt, made⟩ := except_bind_eq_ok.mp made
  obtain ⟨body, bodyBuilt, made⟩ := except_bind_eq_ok.mp made
  obtain ⟨tail, tailBuilt, made⟩ := except_bind_eq_ok.mp made
  cases made
  constructor
  · simp only [ofTemplate, runnable, headBuilt, bodyBuilt, tailBuilt]
    rfl
  · rfl

theorem capture_keptBy (extractor : Extractor) {limit' : Nat} (le : extractor.limit ≤ limit')
    (mode : Mode) (report : String) :
    KeptBy (extractor.capture mode report)
      ({ extractor with limit := limit' }.capture mode report) := by
  apply readBlocks_keptBy le
  intro part extent?
  exact (extractor.part part).read_keptBy le mode extent?

/-- A capture fails only for a search that was given up, and a larger limit keeps what is captured
with a smaller one, so that any two limits with an answer have the same. The budget of every search
is the limit and 32 units for each byte, up to the greatest 64-bit number; texts of less than 64 KiB
count as that long. -/
theorem capture_limit_irrelevant :
    (∀ (template : Template) (limit : Nat) (extractor : Extractor),
      ofTemplate template limit = .ok extractor → ∀ (mode : Mode) (report : String),
        (∀ fault, extractor.capture mode report = .error fault →
          ∃ cause, fault = .failedSearch cause) ∧
        (∀ limit', limit ≤ limit' → ∃ extractor', ofTemplate template limit' = .ok extractor' ∧
          ∀ values, extractor.capture mode report = .ok values →
            extractor'.capture mode report = .ok values) ∧
        ∀ limit' extractor', ofTemplate template limit' = .ok extractor' →
          ∀ values values', extractor.capture mode report = .ok values →
            extractor'.capture mode report = .ok values' → values = values') ∧
    (∀ (limit : Nat) (text : Array Char),
      Budget.forText limit text =
        min (2 ^ 64 - 1) (limit + 32 * max (byteLength text.toList) 65536) ∧
      ∀ (regex : Regex) (found : List Match), regex.findAll limit text = .ok found ↔
        regex.matchesIn text (Budget.forText limit text) = .ok found) ∧
    ∀ (limit limit' : Nat) (text text' : Array Char), limit ≤ limit' →
      byteLength text.toList ≤ byteLength text'.toList →
        Budget.forText limit text ≤ Budget.forText limit' text' := by
  -- Both extractors are built from one template, so they differ in nothing but the limit.
  have kept {template : Template} {limit limit' : Nat} {extractor extractor' : Extractor}
      (built : ofTemplate template limit = .ok extractor)
      (built' : ofTemplate template limit' = .ok extractor') (le : limit ≤ limit')
      (mode : Mode) (report : String) :
      KeptBy (extractor.capture mode report) (extractor'.capture mode report) := by
    obtain ⟨same, limit_eq⟩ := ofTemplate_limit built limit'
    rw [built'] at same
    cases same
    exact extractor.capture_keptBy (limit_eq ▸ le) mode report
  refine ⟨fun template limit extractor built mode report => ⟨?_, ?_, ?_⟩, ?_, ?_⟩
  -- Compared with itself, a capture that fails is one that was given up.
  · intro fault failed
    exact (kept built built (Nat.le_refl _) mode report).failedSearch failed
  · intro limit' le
    have built' := (ofTemplate_limit built limit').1
    exact ⟨_, built', fun values => (kept built built' le mode report).ok⟩
  · intro limit' extractor' built' values values' captured captured'
    -- Whichever limit is smaller, its answer is kept by the other.
    rcases Nat.le_total limit limit' with le | le
    · have same := (kept built built' le mode report).ok captured
      exact Except.ok.inj (same.symm.trans captured')
    · have same := (kept built' built le mode report).ok captured'
      exact Except.ok.inj (captured.symm.trans same)
  · intro limit text
    exact ⟨Budget.forText_eq limit text, fun regex found => Regex.findAll_eq_ok⟩
  · intro limit limit' text text' le shorter
    exact Budget.forText_mono le shorter

set_option maxRecDepth 20000 in
/-- Two rows in a block inside a block, found with nothing but the allowance for the text, are found
with every limit. -/
theorem capture_limit_irrelevant_zero :
    ∃ template extractor,
      template.layout = ⟨.absent, .nested .absent (.line "&!. #!.+i") .absent, .absent⟩ ∧
      ofTemplate template 0 = .ok extractor ∧
      ∃ values, extractor.capture .body "a +1\nb 2" = .ok values ∧
        ∀ limit, ∃ extractor', ofTemplate template limit = .ok extractor' ∧
          extractor'.capture .body "a +1\nb 2" = .ok values := by
  let row : Line := ⟨false, [.misc ⟨.required, true, .single⟩,
    .number ⟨.required, true, .single⟩ .positive .integer]⟩
  have parsed : Line.parse "&!. #!.+i" = .ok row := by decide +kernel
  obtain ⟨template, extractor, layout, built, made⟩ := exists_ofTemplate .absent
    (.nested .absent (.line parsed) .absent (by decide)) .absent (by decide) 0
  have captured : extractor.capture .body "a +1\nb 2" =
      .ok [.list [.list [.list [.text "a", .text "+1"], .list [.text "b", .text "2"]]]] := by
    rw [made]
    cbv
  obtain ⟨-, more, -⟩ := capture_limit_irrelevant.1 template 0 extractor built .body "a +1\nb 2"
  refine ⟨template, extractor, layout, built, _, captured, fun limit => ?_⟩
  obtain ⟨extractor', built', kept⟩ := more limit (Nat.zero_le limit)
  exact ⟨extractor', built', kept _ captured⟩

end Extractor

end Gleaner
