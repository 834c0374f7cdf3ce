import Gleaner.Layout.Session
import Gleaner.Proofs.Layout.Depth

/-!
# Layouts stay templates

A layout that is a template stays one, whatever bodies are tried on it. Each call either takes the
new body, when the layout with it is a template, or leaves the layout as it was. So after any number
of calls the head and the tail are the first ones, and the body is the last that was taken.

A check looks only at the pattern of the whole, without the captures of lines. That is enough: a
line that can be compiled without captures can be compiled with them, a block inside a block is
checked as a part of the whole, and then the only thing that can still go wrong with an extractor is
a pattern that is too deep.
-/

namespace Gleaner

/-! ### What can be made of a template -/

/-- A section and all sections of the blocks inside it. -/
def Section.all : Section → List Section
  | .nested head body tail => .nested head body tail :: (head.all ++ body.all ++ tail.all)
  | content => [content]

namespace Layout

/-- All sections of a layout, at any depth. -/
def sections (layout : Layout) : List Section :=
  layout.head.all ++ layout.body.all ++ layout.tail.all

/-- Everything that is made from the parts of a layout can be made, unless a pattern is too deep to
be run. -/
structure Usable (layout : Layout) : Prop where
  pattern : ∀ keep, ∃ regex, layout.pattern keep = .ok regex
  compile : ∀ content ∈ layout.sections, ∀ allowCapture,
    ∃ compiled, content.compile allowCapture = .ok compiled
  extractor : ∀ limit fault, layout.extractor limit = .error fault →
    ∃ pattern reason, fault = .refusedPattern pattern reason

end Layout

theorem Section.exists_compile {content : Section} {outline? : Option Outline}
    (outlined : content.outline = .ok outline?) :
    ∀ inner ∈ content.all, ∀ allowCapture,
      ∃ compiled, inner.compile allowCapture = .ok compiled := by
  induction content generalizing outline? with
  | absent =>
    intro inner member allowCapture
    cases List.mem_singleton.mp member
    exact ⟨_, rfl⟩
  | line text =>
    intro inner member allowCapture
    cases List.mem_singleton.mp member
    -- A line is read before its captures are numbered.
    obtain ⟨pattern, compiled, -⟩ := except_map_eq_ok.mp outlined
    obtain ⟨line, parsed, -⟩ := compileLine_eq_ok.mp compiled
    exact ⟨_, except_map_eq_ok.mpr ⟨_, compileLine_eq_ok.mpr ⟨line, parsed, rfl⟩, rfl⟩⟩
  | lines texts =>
    intro inner member allowCapture
    cases List.mem_singleton.mp member
    obtain ⟨pattern, compiled, -⟩ := except_map_eq_ok.mp outlined
    obtain ⟨lines, parsed, -⟩ := compileLines_eq_ok.mp compiled
    exact ⟨_, except_map_eq_ok.mpr ⟨_, compileLines_eq_ok.mpr ⟨lines, parsed, rfl⟩, rfl⟩⟩
  | nested head body tail ih ih' ih'' =>
    obtain ⟨outlines, made, -⟩ := except_map_eq_ok.mp outlined
    obtain ⟨headed, bodied, tailed⟩ := Outlines.ofParts_eq_ok.mp made
    intro inner member allowCapture
    simp only [all, List.mem_cons, List.mem_append] at member
    rcases member with rfl | (member | member) | member
    · exact ⟨_, rfl⟩
    · exact ih headed inner member allowCapture
    · exact ih' bodied inner member allowCapture
    · exact ih'' tailed inner member allowCapture

theorem Regex.refused_of_runnable {regex : Regex} {fault : Fault}
    (failed : regex.runnable = .error fault) :
    ∃ pattern reason, fault = .refusedPattern pattern reason := by
  unfold runnable at failed
  split at failed
  · cases failed
  · cases failed
    exact ⟨_, _, rfl⟩

/-- A section that has an outline has a reader, unless a pattern in it is refused. -/
theorem PartReader.refused_of_build {content : Section} {outline? : Option Outline}
    (outlined : content.outline = .ok outline?) {fault : Fault}
    (failed : build content = .error fault) :
    ∃ pattern reason, fault = .refusedPattern pattern reason := by
  induction content generalizing outline? with
  | absent => cases failed
  | line text =>
    obtain ⟨pattern, compiled, -⟩ := except_map_eq_ok.mp outlined
    obtain ⟨line, parsed, -⟩ := compileLine_eq_ok.mp compiled
    rw [build_line, parsed] at failed
    cases failed
  | lines texts =>
    obtain ⟨pattern, compiled, -⟩ := except_map_eq_ok.mp outlined
    obtain ⟨lines, parsed, -⟩ := compileLines_eq_ok.mp compiled
    rw [build_lines, parsed] at failed
    cases failed
  | nested head body tail ih ih' ih'' =>
    obtain ⟨outlines, made, -⟩ := except_map_eq_ok.mp outlined
    obtain ⟨headed, bodied, tailed⟩ := Outlines.ofParts_eq_ok.mp made
    -- The outlines are there, so the first fault is that of a pattern or of a part.
    rcases except_bind_eq_error.mp failed with failed | ⟨_, -, failed⟩
    · rw [made] at failed
      cases failed
    rcases except_bind_eq_error.mp failed with failed | ⟨regex, -, failed⟩
    · exact Regex.refused_of_runnable failed
    rcases except_bind_eq_error.mp failed with failed | ⟨headReader, -, failed⟩
    · exact ih headed failed
    rcases except_bind_eq_error.mp failed with failed | ⟨bodyReader, -, failed⟩
    · exact ih' bodied failed
    rcases except_bind_eq_error.mp failed with failed | ⟨tailReader, -, failed⟩
    · exact ih'' tailed failed
    cases failed

/-- The extractor of a template is built like the reader of a block inside a block. -/
theorem Extractor.build_toSection (template : Template) (limit : Nat) :
    PartReader.build template.toSection =
      (ofTemplate template limit).map fun extractor =>
        .blocks extractor.regex extractor.head extractor.body extractor.tail := by
  have outlined : Outlines.ofParts template.layout.head.outline template.layout.body.outline
      template.layout.tail.outline = .ok template.outlines := template.outlines_eq
  simp only [Template.toSection, PartReader.build, ofTemplate, outlined, Template.pattern, bind,
    Except.bind]
  -- The two go through the same steps, and stop at the same one.
  cases (template.outlines.regex true).runnable with
  | error fault => rfl
  | ok regex =>
    cases PartReader.build template.layout.head with
    | error fault => rfl
    | ok head =>
      cases PartReader.build template.layout.body with
      | error fault => rfl
      | ok body => cases PartReader.build template.layout.tail <;> rfl

theorem Template.usable (template : Template) : template.layout.Usable := by
  have outlined : template.toSection.outline = .ok (some ⟨template.outlines.regex false, false⟩) :=
    except_map_eq_ok.mpr ⟨_, template.outlines_eq, rfl⟩
  constructor
  · intro keep
    exact ⟨_, except_map_eq_ok.mpr ⟨_, template.outlines_eq, rfl⟩⟩
  · intro content member
    exact Section.exists_compile outlined content (List.mem_cons_of_mem _ member)
  · intro limit fault failed
    have made : make template.layout = .ok template := make_eq_ok.mpr rfl
    rw [Layout.extractor, made] at failed
    have not_built : Extractor.ofTemplate template limit = .error fault := failed
    -- What the extractor is refused for, the reader of the block is refused for.
    apply PartReader.refused_of_build outlined
    rw [Extractor.build_toSection template limit, not_built]
    rfl

/-! ### One call -/

namespace Layout

/-- What came of trying a body: the fault, if it was refused, and the layout afterwards. -/
structure Call where
  body : Section
  fault? : Option Fault
  after : Layout
deriving DecidableEq, Repr

/-- Tries a body on a layout. -/
def call (layout : Layout) (body : Section) : Call :=
  match (setBody body).run layout with
  | .ok _ after => ⟨body, none, after⟩
  | .error fault after => ⟨body, some fault, after⟩

theorem run_setBody (layout : Layout) (body : Section) :
    (setBody body).run layout =
      match { layout with body }.outlines with
      | .ok _ => .ok () { layout with body }
      | .error fault => .error fault layout := by
  simp only [setBody, EStateM.run_bind, EStateM.run_get, EStateM.run_modify, pattern]
  -- Putting the old body back gives the old layout, as nothing else was changed.
  cases { layout with body }.outlines <;> rfl

/-- A call takes its body, and then the layout with it is a template, or changes nothing. -/
theorem call_cases (layout : Layout) (body : Section) :
    (∃ template : Template, template.layout = { layout with body } ∧
      layout.call body = ⟨body, none, { layout with body }⟩) ∨
    ∃ fault, layout.call body = ⟨body, some fault, layout⟩ := by
  rw [call, run_setBody]
  cases outlined : { layout with body }.outlines with
  | ok outlines => exact Or.inl ⟨⟨_, outlines, outlined⟩, rfl, rfl⟩
  | error fault => exact Or.inr ⟨fault, rfl⟩

/-! ### Many calls -/

/-- Tries some bodies on a layout, one after the other. -/
def session (layout : Layout) : List Section → List Call
  | [] => []
  | body :: rest => layout.call body :: (layout.call body).after.session rest

/-- The layout after some calls. -/
def reached (layout : Layout) (calls : List Call) : Layout :=
  (calls.getLast?.map Call.after).getD layout

/-- The last of the bodies that were taken, or the one that was there before. -/
def lastTaken (body : Section) (calls : List Call) : Section :=
  ((calls.filter fun call => call.fault? = none).getLast?.map Call.body).getD body

private theorem getLast?_cons_map {α β : Type} (f : α → β) (first : α) (rest : List α) (other : β) :
    ((first :: rest).getLast?.map f).getD other = (rest.getLast?.map f).getD (f first) := by
  rw [List.getLast?_cons]
  cases rest.getLast? <;> rfl

theorem reached_cons (layout : Layout) (call : Call) (rest : List Call) :
    layout.reached (call :: rest) = call.after.reached rest :=
  getLast?_cons_map Call.after call rest layout

theorem lastTaken_cons (body : Section) (call : Call) (rest : List Call) :
    lastTaken body (call :: rest) =
      lastTaken (if call.fault? = none then call.body else body) rest := by
  unfold lastTaken
  by_cases taken : call.fault? = none
  · rw [List.filter_cons_of_pos (by simpa using taken), if_pos taken, getLast?_cons_map]
  · rw [List.filter_cons_of_neg (by simpa using taken), if_neg taken]

/-- After any of its calls a session has reached a template, which differs from the first at most in
its body. -/
theorem session_reached {layout : Layout} {bodies : List Section} {earlier later : List Call}
    (template : Template) (layout_eq : template.layout = layout)
    (split : layout.session bodies = earlier ++ later) :
    (∃ template : Template, template.layout = layout.reached earlier) ∧
      layout.reached earlier = { layout with body := lastTaken layout.body earlier } ∧
      ∀ call rest, later = call :: rest → call = (layout.reached earlier).call call.body := by
  induction earlier generalizing layout bodies template with
  | nil =>
    refine ⟨⟨template, layout_eq⟩, rfl, ?_⟩
    rintro call rest rfl
    cases bodies with
    | nil => cases split
    | cons body bodies =>
      obtain ⟨rfl, -⟩ := List.cons.inj split
      -- The call notes the body that was tried.
      rcases layout.call_cases body with ⟨-, -, called⟩ | ⟨fault, called⟩ <;>
        simp only [called, reached, List.getLast?_nil, Option.map_none, Option.getD_none]
  | cons first earlier ih =>
    cases bodies with
    | nil => cases split
    | cons body bodies =>
      obtain ⟨rfl, others⟩ := List.cons.inj split
      rw [reached_cons, lastTaken_cons]
      rcases layout.call_cases body with ⟨next, next_eq, called⟩ | ⟨fault, called⟩
      · rw [called] at others ⊢
        exact ih next next_eq others
      · rw [called] at others ⊢
        exact ih template layout_eq others

theorem map_body_session (layout : Layout) (bodies : List Section) :
    (layout.session bodies).map Call.body = bodies := by
  induction bodies generalizing layout with
  | nil => rfl
  | cons body rest ih =>
    rw [session, List.map_cons, ih]
    rcases layout.call_cases body with ⟨-, -, called⟩ | ⟨fault, called⟩ <;> rw [called]

/-- A layout that is a template can be used after any calls, with its first head and tail and the
last body that was taken; a body that is refused changes nothing. -/
theorem session_usable {layout : Layout} {template : Template}
    (made : Template.make layout = .ok template) (bodies : List Section) :
    layout.Usable ∧ (layout.session bodies).map Call.body = bodies ∧
      ∀ earlier call later, layout.session bodies = earlier ++ call :: later →
        call.after.head = layout.head ∧ call.after.tail = layout.tail ∧
        call.after.body = lastTaken layout.body (earlier ++ [call]) ∧
        (∀ fault, call.fault? = some fault → call.after = layout.reached earlier) ∧
        call.after.Usable := by
  have layout_eq := Template.make_eq_ok.mp made
  refine ⟨layout_eq ▸ template.usable, map_body_session layout bodies, ?_⟩
  intro earlier call later split
  have after_eq : layout.reached (earlier ++ [call]) = call.after := by
    rw [reached, List.getLast?_concat]
    rfl
  obtain ⟨⟨next, next_eq⟩, kept, -⟩ := session_reached template layout_eq
    (show _ = (earlier ++ [call]) ++ later by rw [split, List.append_assoc]; rfl)
  obtain ⟨-, -, called⟩ := session_reached template layout_eq split
  rw [after_eq] at kept next_eq
  refine ⟨by rw [kept], by rw [kept], by rw [kept], ?_, next_eq ▸ next.usable⟩
  intro fault refused
  -- The call was made on the layout that the earlier ones had reached.
  rw [called call later rfl] at refused ⊢
  rcases (layout.reached earlier).call_cases call.body with ⟨-, -, taken⟩ | ⟨fault', unchanged⟩
  · rw [taken] at refused
    cases refused
  · rw [unchanged]

/-- A body of no lines is refused, the next one taken, and a missing one refused again. -/
theorem session_usable_refused :
    ∃ layout template last,
      Template.make layout = .ok template ∧
      layout = ⟨.line "@.top", .line "#!.+i", .nested .absent (.line "~!") .absent⟩ ∧
      layout.session [.lines [], .lines ["? &!.", "~"], .absent] =
        [⟨.lines [], some (.badSection .noLines), layout⟩,
          ⟨.lines ["? &!.", "~"], none, { layout with body := .lines ["? &!.", "~"] }⟩] ++ [last] ∧
      last.after.body = .lines ["? &!.", "~"] ∧ last.after.Usable := by
  let layout : Layout := ⟨.line "@.top", .line "#!.+i", .nested .absent (.line "~!") .absent⟩
  have answered : (Template.make layout).isOk = true := by decide +kernel
  obtain ⟨template, made⟩ := exists_of_isOk answered
  have split : layout.session [.lines [], .lines ["? &!.", "~"], .absent] =
      [⟨.lines [], some (.badSection .noLines), layout⟩,
        ⟨.lines ["? &!.", "~"], none, { layout with body := .lines ["? &!.", "~"] }⟩] ++
      [⟨.absent, some (.badSection .bodyRequired), { layout with body := .lines ["? &!.", "~"] }⟩] := by
    decide +kernel
  -- The last step is the one that is refused: the body stays as the step before has left it.
  obtain ⟨-, -, each⟩ := session_usable made [.lines [], .lines ["? &!.", "~"], .absent]
  obtain ⟨-, -, body_eq, -, usable⟩ := each _ _ _ split
  exact ⟨layout, template, _, made, rfl, split, body_eq, usable⟩

end Layout

end Gleaner
