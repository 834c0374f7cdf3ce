import Mathlib.Data.List.Forall2
import Mathlib.Tactic.Common

/-!
# Computations that can fail

When a sequence of computations succeeds, each of them does, with a result that the next one goes
on from.
-/

namespace Gleaner

theorem except_bind_eq_ok {ε α β : Type} {value : Except ε α} {next : α → Except ε β} {result : β} :
    (value >>= next) = .ok result ↔ ∃ given, value = .ok given ∧ next given = .ok result := by
  cases value <;> simp [bind, Except.bind]

theorem except_map_eq_ok {ε α β : Type} {value : Except ε α} {f : α → β} {result : β} :
    value.map f = .ok result ↔ ∃ given, value = .ok given ∧ f given = result := by
  cases value <;> simp [Except.map]

theorem except_mapM_eq_ok {ε α β : Type} {f : α → Except ε β} {given : List α} {results : List β} :
    given.mapM f = .ok results ↔ List.Forall₂ (fun one result => f one = .ok result) given results := by
  induction given generalizing results with
  | nil => cases results <;> simp [pure, Except.pure]
  | cons first rest ih =>
    rw [List.mapM_cons]
    constructor
    · intro made
      -- Both steps have succeeded, first this one and then the others.
      obtain ⟨result, first_eq, made⟩ := except_bind_eq_ok.mp made
      obtain ⟨others, rest_eq, made⟩ := except_bind_eq_ok.mp made
      cases made
      exact .cons first_eq (ih.mp rest_eq)
    · rintro (_ | ⟨first_eq, others⟩)
      rw [first_eq, ih.mpr others]
      rfl

/-- A result comes from something given. -/
theorem exists_of_mem_right {α β : Type} {R : α → β → Prop} {first : List α} {second : List β}
    (each : List.Forall₂ R first second) {two : β} (member : two ∈ second) :
    ∃ one ∈ first, R one two := by
  induction each with
  | nil => cases member
  | cons here _ ih =>
    rcases List.mem_cons.mp member with rfl | member
    · exact ⟨_, List.mem_cons_self, here⟩
    · obtain ⟨one, inFirst, related⟩ := ih member
      exact ⟨one, List.mem_cons_of_mem _ inFirst, related⟩

theorem except_bind_eq_error {ε α β : Type} {value : Except ε α} {next : α → Except ε β} {fault : ε} :
    (value >>= next) = .error fault ↔
      value = .error fault ∨ ∃ given, value = .ok given ∧ next given = .error fault := by
  cases value <;> simp [bind, Except.bind]

theorem toOption_eq_some {ε α : Type} {value : Except ε α} {given : α} :
    value.toOption = some given ↔ value = .ok given := by
  cases value <;> simp [Except.toOption]

theorem toOption_bind {ε α β : Type} (value : Except ε α) (next : α → Except ε β) :
    (value >>= next).toOption = value.toOption.bind fun given => (next given).toOption := by
  cases value <;> rfl

theorem toOption_map {ε α β : Type} (value : Except ε α) (f : α → β) :
    (value.map f).toOption = value.toOption.map f := by
  cases value <;> rfl

theorem exists_of_isOk {ε α : Type} {value : Except ε α} (answered : value.isOk = true) :
    ∃ given, value = .ok given := by
  cases value with
  | error => cases answered
  | ok given => exact ⟨given, rfl⟩

theorem option_mapM_eq_some {α β : Type} {f : α → Option β} {given : List α} {results : List β} :
    given.mapM f = some results ↔ List.Forall₂ (fun one result => f one = some result) given results := by
  induction given generalizing results with
  | nil => cases results <;> simp
  | cons first rest ih =>
    rw [List.mapM_cons]
    constructor
    · intro made
      obtain ⟨result, first_eq, made⟩ := Option.bind_eq_some_iff.mp made
      obtain ⟨others, rest_eq, made⟩ := Option.bind_eq_some_iff.mp made
      cases made
      exact .cons first_eq (ih.mp rest_eq)
    · rintro (_ | ⟨first_eq, others⟩)
      simp [first_eq, ih.mpr others]

end Gleaner
