import Gleaner.CommandLine.Parse
import Gleaner.Part
import Gleaner.Proofs.Fallible
import Mathlib.Data.List.TakeWhile

/-!
# The words of a command line

Options stand on a command line as words, each with its value in the next word. The value of a line
is any word at all, also one that would be an option elsewhere, so it has to be taken by the option
before it. A value is looked at late, when the next option or the end comes: what has been given is
therefore said of a scan once its pending value is settled. Some options are then read one by one,
as they would be added to what was given before.
-/

namespace Gleaner.CommandLine

/-! ### Options with their values -/

/-- A number of 64 bits as it may be written: zeros may stand before its decimal digits. -/
structure WrittenNumber where
  number : UInt64
  zeros : Nat
deriving DecidableEq, Repr

def WrittenNumber.word (written : WrittenNumber) : String :=
  String.ofList (List.replicate written.zeros '0' ++ Nat.toDigits 10 written.number.toNat)

/-- An option without a value. -/
inductive Flag where
  | bare
  | struct
  | compact
deriving DecidableEq, Repr

def Flag.setting : Flag → Setting
  | bare => .bare
  | struct => .struct
  | compact => .compact

/-- The setting that takes the lines of a part. -/
def lineSetting : Part → Setting
  | .head => .head
  | .body => .body
  | .tail => .tail

/-- An option as it is given on a command line. -/
inductive Argument where
  | line (part : Part) (text : String)
  | color (choice : ColorChoice)
  | limit (written : WrittenNumber)
  | flag (name : Flag)
deriving DecidableEq, Repr

namespace Argument

/-- The words of an option. -/
def words : Argument → List String
  | line .head text => ["--head", text]
  | line .body text => ["--body", text]
  | line .tail text => ["--tail", text]
  | color choice => ["--color", choice.word]
  | limit written => ["--backtrack-limit", written.word]
  | flag .bare => ["--bare"]
  | flag .struct => ["--struct"]
  | flag .compact => ["--compact"]

/-- The setting that an option is about. -/
def setting : Argument → Setting
  | line part _ => lineSetting part
  | color _ => .color
  | limit _ => .backtrackLimit
  | flag name => name.setting

/-- The word behind an option. -/
def value : Argument → Option String
  | line _ text => some text
  | color choice => some choice.word
  | limit written => some written.word
  | flag _ => none

/-- What has been given, with one more option. -/
def add (given : Given) (argument : Argument) : Except Refusal Given :=
  match argument.value with
  | some word => given.setValue argument.setting word
  | none => given.setFlag argument.setting

theorem words_eq (argument : Argument) :
    argument.words = ("--" ++ argument.setting.word) :: argument.value.toList := by
  rcases argument with ⟨part, text⟩ | choice | written | flag
  · cases part <;> rfl
  · rfl
  · rfl
  · cases flag <;> rfl

theorem takesValue_setting (argument : Argument) :
    argument.setting.takesValue = argument.value.isSome := by
  rcases argument with ⟨part, text⟩ | choice | written | flag
  · cases part <;> rfl
  · rfl
  · rfl
  · cases flag <;> rfl

end Argument

namespace WrittenNumber

theorem isDigit_of_mem_word {written : WrittenNumber} {c : Char}
    (member : c ∈ written.word.toList) : c.isDigit = true := by
  rw [word, String.toList_ofList, List.mem_append] at member
  rcases member with zero | digit
  · rw [List.eq_of_mem_replicate zero]
    rfl
  · exact Nat.isDigit_of_mem_toDigits (by decide) (by decide) digit

theorem ofDigitChars_word (written : WrittenNumber) :
    Nat.ofDigitChars 10 written.word.toList 0 = written.number.toNat := by
  rw [word, String.toList_ofList, Nat.ofDigitChars_append, Nat.ofDigitChars_replicate_zero,
    Nat.mul_zero, Nat.ofDigitChars_ten_toDigits]

theorem word_ne_nil (written : WrittenNumber) : written.word.toList ≠ [] := by
  simp [word, Nat.toDigits_ne_nil]

end WrittenNumber

/-- A word of digits is read as the number that it stands for. -/
theorem readNumber?_of_digits {digits : List Char} (nonempty : digits ≠ [])
    (each : ∀ c ∈ digits, c.isDigit = true) (fits : Nat.ofDigitChars 10 digits 0 ≤ greatestNumber) :
    readNumber? digits = some (Nat.ofDigitChars 10 digits 0) := by
  -- A plus sign is no digit, so no sign is taken off.
  have unsigned : ∀ rest, digits ≠ '+' :: rest := by
    rintro rest rfl
    exact absurd (each '+' List.mem_cons_self) (by decide)
  have value : digits.foldl (fun n c => n * 10 + (c.toNat - '0'.toNat)) 0 =
      Nat.ofDigitChars 10 digits 0 := by
    simp only [Nat.ofDigitChars_eq_foldl, Nat.mul_comm]
  unfold readNumber?
  split
  · exact absurd rfl (unsigned _)
  · have plain : (digits.isEmpty || !digits.all Char.isDigit) = false := by
      simp [List.all_eq_true.mpr each, nonempty]
    simp only [plain, value, fits, Bool.false_eq_true, if_false, if_true]

theorem readNumber?_word (written : WrittenNumber) :
    readNumber? written.word.toList = some written.number.toNat := by
  have value := written.ofDigitChars_word
  have fits : Nat.ofDigitChars 10 written.word.toList 0 ≤ greatestNumber := by
    rw [value]
    exact Nat.le_sub_one_of_lt written.number.toNat_lt
  rw [readNumber?_of_digits written.word_ne_nil (fun _ => WrittenNumber.isDigit_of_mem_word) fits,
    value]

/-- Only behind an option that takes any word does a hyphen begin a value. -/
theorem Argument.hyphen_value {argument : Argument} {word : String} {rest : List Char}
    (behind : argument.value = some word) (hyphen : word.toList = '-' :: rest) :
    argument.setting.takesAnyWord = true := by
  rcases argument with ⟨part, text⟩ | choice | written | flag
  · cases part <;> rfl
  · cases behind
    cases choice <;> cases hyphen
  · cases behind
    have digit := WrittenNumber.isDigit_of_mem_word (hyphen ▸ List.mem_cons_self)
    exact absurd digit (by decide)
  · cases behind

/-! ### Reading the words -/

theorem Setting.ofWord?_word {command : Command} {setting : Setting}
    (known : setting ∈ optionsOf command) : ofWord? command setting.word = some setting := by
  revert setting
  cases command <;> decide

theorem Setting.word_ne_nil {command : Command} {setting : Setting}
    (known : setting ∈ optionsOf command) : setting.word.toList ≠ [] := by
  revert setting
  cases command <;> decide

theorem Setting.equals_not_mem_word (setting : Setting) : '=' ∉ setting.word.toList := by
  cases setting <;> decide

namespace Scan

/-- With the value settled that may still be pending, the options read so far have given this. -/
def Gives (scan : Scan) (given : Given) : Prop :=
  scan.settle = .ok { given }

variable {command : Command} {scan : Scan} {given given' : Given}

theorem Gives.settle_eq (gives : scan.Gives given) : scan.settle = .ok { given } := gives

/-- Nothing is waited for then, and the options have not ended. -/
theorem Gives.fields (gives : scan.Gives given) :
    scan.onlyDocuments = false ∧ scan.documentSeen = false ∧ scan.awaiting? = none := by
  unfold Gives settle at gives
  unfold awaiting?
  split at gives
  next nothing =>
    cases gives
    exact ⟨rfl, rfl, rfl⟩
  -- An option that still waits for its value cannot be settled.
  next => cases gives
  next setting word pending =>
    obtain ⟨settled, -, gives⟩ := except_bind_eq_ok.mp gives
    cases scan
    cases gives
    cases pending
    exact ⟨rfl, rfl, rfl⟩

/-- The first word of an option leads to its setting, with no value attached. -/
theorem next_option {setting : Setting} (gives : scan.Gives given)
    (known : setting ∈ Setting.optionsOf command) :
    scan.next command ("--" ++ setting.word) = scan.takeOption command setting.word none := by
  have plain : ∀ c ∈ setting.word.toList, decide (c ≠ '=') = true := fun c member =>
    decide_eq_true fun equals => setting.equals_not_mem_word (equals ▸ member)
  have name := List.takeWhile_eq_self_iff.mpr plain
  have behind := List.dropWhile_eq_nil_iff.mpr plain
  have spelled : ("--" ++ setting.word).toList = '-' :: '-' :: setting.word.toList :=
    String.toList_append
  obtain ⟨options, -, free⟩ := gives.fields
  obtain ⟨first, rest, letters⟩ := List.exists_cons_of_ne_nil (Setting.word_ne_nil known)
  rw [next, options, free]
  simp only [Bool.false_eq_true, if_false]
  -- The name is not empty, so this is not the end of the options.
  rw [letters] at name behind
  rw [next.other, spelled, letters]
  simp only [name, behind]
  rw [← letters, String.ofList_toList]

theorem takeOption_valued {setting : Setting} (gives : scan.Gives given)
    (known : setting ∈ Setting.optionsOf command) (valued : setting.takesValue = true) :
    scan.takeOption command setting.word none =
      .ok ⟨given, some ⟨setting, none⟩, false, false⟩ := by
  simp only [takeOption, Setting.ofWord?_word known, valued, if_true, gives.settle_eq]
  rfl

theorem takeOption_flag {setting : Setting} (gives : scan.Gives given)
    (known : setting ∈ Setting.optionsOf command) (valueless : setting.takesValue = false)
    (set : given.setFlag setting = .ok given') :
    scan.takeOption command setting.word none = .ok { given := given' } := by
  simp only [takeOption, Setting.ofWord?_word known, valueless, Bool.false_eq_true, if_false,
    Option.isSome_none, gives.settle_eq, bind, Except.bind, set]
  rfl

/-- The word behind an option is taken for its value. -/
theorem next_value {argument : Argument} {word : String} (behind : argument.value = some word) :
    next command ⟨given, some ⟨argument.setting, none⟩, false, false⟩ word =
      .ok ⟨given, some ⟨argument.setting, some word⟩, false, false⟩ := by
  by_cases any : argument.setting.takesAnyWord = true
  · simp only [next, awaiting?, any, Bool.false_eq_true, if_false, if_true, fill]
  · -- The word is looked at first, but it has no hyphen in front.
    have plain : ∀ rest, word.toList ≠ '-' :: rest := fun rest hyphen =>
      any (argument.hyphen_value behind hyphen)
    simp only [next, awaiting?, any, Bool.false_eq_true, if_false]
    rw [next.other]
    split
    next hyphen => exact absurd hyphen (plain _)
    next hyphen => exact absurd hyphen (plain _)
    next hyphen => exact absurd hyphen (plain _)
    next => rfl

theorem all_cons_of_next {scan' : Scan} {word : String} (read : scan.next command word = .ok scan')
    (rest : List String) : scan.all command (word :: rest) = scan'.all command rest := by
  rw [all, read]
  rfl

/-- The words of an option are read as this option, whatever follows. -/
theorem all_argument {argument : Argument} (gives : scan.Gives given)
    (known : argument.setting ∈ Setting.optionsOf command)
    (added : argument.add given = .ok given') (rest : List String) :
    ∃ scan' : Scan, scan.all command (argument.words ++ rest) = scan'.all command rest ∧
      scan'.Gives given' := by
  have option := next_option gives known
  have valued := argument.takesValue_setting
  rw [argument.words_eq]
  unfold Argument.add at added
  cases behind : argument.value with
  | some word =>
    rw [behind] at added valued
    rw [takeOption_valued gives known valued] at option
    -- The value is left pending, and added where the scan is settled.
    refine ⟨⟨given, some ⟨argument.setting, some word⟩, false, false⟩, ?_, ?_⟩
    · exact (all_cons_of_next option _).trans (all_cons_of_next (next_value behind) rest)
    · simp only [Gives, settle, added]
      rfl
  | none =>
    rw [behind] at added valued
    rw [takeOption_flag gives known valued added] at option
    exact ⟨{ given := given' }, all_cons_of_next option rest, rfl⟩

/-- The words of some options are read as these options, in their order. -/
theorem all_arguments {arguments : List Argument} (gives : scan.Gives given)
    (known : ∀ argument ∈ arguments, argument.setting ∈ Setting.optionsOf command)
    (added : arguments.foldlM Argument.add given = .ok given') (rest : List String) :
    ∃ scan' : Scan, scan.all command (arguments.flatMap Argument.words ++ rest) =
      scan'.all command rest ∧ scan'.Gives given' := by
  -- On the options: what the first one gives is what the others begin with.
  induction arguments generalizing scan given with
  | nil =>
    cases added
    exact ⟨scan, rfl, gives⟩
  | cons argument others ih =>
    obtain ⟨knownFirst, knownOthers⟩ := List.forall_mem_cons.mp known
    rw [List.foldlM_cons] at added
    obtain ⟨middle, addedFirst, addedOthers⟩ := except_bind_eq_ok.mp added
    rw [List.flatMap_cons, List.append_assoc]
    obtain ⟨between, readFirst, givesFirst⟩ := all_argument gives knownFirst addedFirst
      (others.flatMap Argument.words ++ rest)
    obtain ⟨scan', readOthers, givesOthers⟩ := ih givesFirst knownOthers addedOthers
    exact ⟨scan', readFirst.trans readOthers, givesOthers⟩

theorem settle_onlyDocuments (scan : Scan) :
    settle { scan with onlyDocuments := true } =
      scan.settle.map fun settled => { settled with onlyDocuments := true } := by
  rcases scan with ⟨given, pending, onlyDocuments, documentSeen⟩
  rcases pending with _ | ⟨setting, _ | word⟩
  · rfl
  · rfl
  · simp only [settle]
    cases given.setValue setting word <;> rfl

/-- Behind two hyphens the last value is settled, and any word is the document. -/
theorem all_document {name : String} (gives : scan.Gives given) (unnamed : given.document = none)
    (nonempty : name ≠ "") :
    scan.all .capture ["--", name] =
      .ok ⟨{ given with document := some name }, none, true, true⟩ := by
  obtain ⟨options, unseen, free⟩ := gives.fields
  -- The two hyphens settle nothing: a value behind the last option is looked at with the document.
  have settled : settle { scan with onlyDocuments := true } = .ok ⟨given, none, true, false⟩ := by
    rw [settle_onlyDocuments, gives.settle_eq]
    rfl
  have ended : scan.next .capture "--" = .ok { scan with onlyDocuments := true } := by
    simp only [next, options, free, Bool.false_eq_true, if_false]
    rfl
  have taken : next .capture { scan with onlyDocuments := true } name =
      .ok ⟨given, some ⟨.document, some name⟩, true, true⟩ := by
    simp only [next, if_true, takeDocument, settled]
    rw [unseen]
    rfl
  have named : given.setValue .document name = .ok { given with document := some name } := by
    simp [Given.setValue, Given.once, unnamed, Given.path, nonempty, Except.map]
  rw [all_cons_of_next ended, all_cons_of_next taken]
  simp only [all, settle, named]
  rfl

end Scan

end Gleaner.CommandLine
