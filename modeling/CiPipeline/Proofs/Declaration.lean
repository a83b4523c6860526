import CiPipeline.Declaration
import CiPipeline.Proofs.Except

/-!
What parts are declared as. A job is refused by a fault of its own or by one of its condition; else it has
a step, and a value on each axis.
-/

namespace CiPipeline

theorem requireTexts_cases (values : List Value) :
    requireTexts values = .ok () ∨ requireTexts values = .error (.job .valueTooLong) := by
  unfold requireTexts
  split
  · exact Or.inr rfl
  · exact Or.inl rfl

/-- The template of some parts, with the condition that was read for them. -/
def JobParts.template (parts : JobParts) (condition : Option Condition) : JobTemplate where
  name := parts.name
  steps := parts.steps.map (Step.withDefaultCwd parts.cwd)
  needs := parts.needs
  axes := parts.axes.mapValues fun values => values.map Value.asText
  exclude := parts.exclude.map Exclusion.declare
  condition := condition
  env := environmentOf parts.env
  displayName := parts.displayName

namespace JobTemplate

/-- Parts are no job by a fault of the job or of its condition; else they are the parts of a job with a
step, and with a value on each axis. -/
theorem declare_cases (parts : JobParts) :
    (∃ fault, declare parts = .error (.job fault)) ∨
    (∃ error, readCondition parts.condition = .error error ∧
      declare parts = .error (.configuration error)) ∨
    ∃ condition, declare parts = .ok (parts.template condition) ∧ parts.steps ≠ [] ∧
      ∀ axis ∈ parts.axes.entries, axis.2 ≠ [] := by
  by_cases hsteps : parts.steps.isEmpty = true
  · exact Or.inl ⟨_, by simp only [declare, hsteps]; rfl⟩
  · rw [declare, if_neg hsteps]
    rcases requireTexts_cases parts.axes.values.flatten with haxes | haxes
    · simp only [haxes, ok_bind]
      split
      · exact Or.inl ⟨_, rfl⟩
      · next hvalues =>
          rcases requireTexts_cases (parts.exclude.flatten.map Prod.snd) with hrules | hrules
          · simp only [hrules, ok_bind]
            cases readCondition parts.condition with
            | error error => exact Or.inr (Or.inl ⟨error, rfl, rfl⟩)
            | ok condition =>
                refine Or.inr (Or.inr ⟨condition, rfl, mt List.isEmpty_iff.mpr hsteps, ?_⟩)
                intro axis haxis hnil
                have hnot := List.find?_eq_none.mp hvalues _ (List.mem_map_of_mem haxis)
                simp [hnil] at hnot
          · exact Or.inl ⟨_, by rw [hrules]; rfl⟩
    · exact Or.inl ⟨_, by rw [haxes]; rfl⟩

/-- A template that is declared is that of its parts. -/
theorem of_declare {parts : JobParts} {template : JobTemplate}
    (hok : declare parts = .ok template) :
    ∃ condition, template = parts.template condition ∧ parts.steps ≠ [] ∧
      ∀ axis ∈ parts.axes.entries, axis.2 ≠ [] := by
  rcases declare_cases parts with
    ⟨fault, hdeclare⟩ | ⟨error, _, hdeclare⟩ | ⟨condition, hdeclare, hparts⟩
  · cases hdeclare.symm.trans hok
  · cases hdeclare.symm.trans hok
  · cases hdeclare.symm.trans hok
    exact ⟨condition, rfl, hparts⟩

theorem name_of_declare {parts : JobParts} {template : JobTemplate}
    (hok : declare parts = .ok template) : template.name = parts.name := by
  obtain ⟨condition, rfl, _⟩ := of_declare hok
  rfl

end JobTemplate
end CiPipeline
