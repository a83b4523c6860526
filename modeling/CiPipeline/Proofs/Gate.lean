import CiPipeline.Gate
import CiPipeline.Proofs.Table

/-!
The gate in terms of single needs: whether a strict job is refused can be told from one need that
did not succeed, whatever the others did. The ways in which it decides are said once, each with what
speaks for it.
-/

namespace CiPipeline

/-- A job that the gate refuses has not failed. -/
theorem Refusal.outcome_ne_failure (refusal : Refusal) : refusal.outcome ≠ .failure := by
  cases refusal <;> simp [Refusal.outcome]

namespace Gate

variable {needs : NeedOutcomes} {id : InstanceId} {outcome : Outcome}

theorem mem_unsuccessful_iff :
    (id, outcome) ∈ unsuccessful needs ↔
      needs.get? id = some outcome ∧ outcome ≠ .success := by
  rw [Table.get?_eq_some_iff]
  simp only [unsuccessful, List.mem_mergeSort, List.mem_filter, bne_iff_ne]

/-- A strict job is refused as soon as one need has not succeeded. -/
theorem decide_eq_needsFailed (gate : Gate) {job : JobInstance}
    (hstrict : Condition.requiresSuccess job.condition = true)
    (hneed : needs.get? id = some outcome) (hfailed : outcome ≠ .success) :
    gate.decide job needs = .refuse (.needsFailed (unsuccessful needs)) := by
  have hmem : (id, outcome) ∈ unsuccessful needs := mem_unsuccessful_iff.mpr ⟨hneed, hfailed⟩
  have hsome : (unsuccessful needs).isEmpty = false := by
    rw [List.isEmpty_eq_false_iff]
    exact List.ne_nil_of_mem hmem
  simp [decide, hstrict, hsome]

/-- The needs that were cancelled, in their order. -/
def cancelledNeeds (needs : NeedOutcomes) : List InstanceId :=
  ((unsuccessful needs).filter fun (_, outcome) => outcome == .cancelled).map Prod.fst

theorem mem_cancelledNeeds_iff :
    id ∈ cancelledNeeds needs ↔ needs.get? id = some .cancelled := by
  simp [cancelledNeeds, mem_unsuccessful_iff]

/-- Needs that were cancelled stand against a job, unless they count as ended by the policy of the
gate or the condition asks about them. -/
def Obstructs (gate : Gate) (job : JobInstance) (needs : NeedOutcomes) : Prop :=
  gate.cancelledSatisfiesNeeds = false ∧
    .cancelled ∉ Condition.statusFunctionsOf job.condition ∧ cancelledNeeds needs ≠ []

theorem mem_steps_of_mem_selectSteps {gate : Gate} {job : JobInstance} {needs : NeedOutcomes}
    {selection : Selection} (hselection : selection ∈ gate.selectSteps job needs) :
    selection.step ∈ job.steps := by
  obtain ⟨hlisted, _⟩ := List.mem_filter.mp hselection
  obtain ⟨⟨step, place⟩, hstep, rfl⟩ := List.mem_map.mp hlisted
  exact List.fst_mem_of_mem_zipIdx hstep

/-- The ways in which the gate decides. -/
inductive Decides (gate : Gate) (job : JobInstance) (needs : NeedOutcomes) : Verdict → Prop
  | needsFailed (hstrict : Condition.requiresSuccess job.condition = true)
      (hsome : unsuccessful needs ≠ []) :
      gate.Decides job needs (.refuse (.needsFailed (unsuccessful needs)))
  | needsCancelled (hobstructs : gate.Obstructs job needs) :
      gate.Decides job needs (.refuse (.needsCancelled (cancelledNeeds needs)))
  | run (hclear : ¬ gate.Obstructs job needs)
      (hholds : (Condition.effective job.condition).holds gate.event needs.values = true) :
      gate.Decides job needs (.run (gate.selectSteps job needs))
  | conditionFalse
      (hfalse : (Condition.effective job.condition).holds gate.event needs.values = false) :
      gate.Decides job needs (.refuse (.conditionFalse (Condition.effective job.condition)))

theorem decides_decide (gate : Gate) (job : JobInstance) (needs : NeedOutcomes) :
    gate.Decides job needs (gate.decide job needs) := by
  dsimp only [decide]
  split
  · next hearly =>
      obtain ⟨hstrict, hsome⟩ := Bool.and_eq_true_iff.mp hearly
      exact .needsFailed hstrict (by simpa using hsome)
  · split
    · next hobstructs =>
        refine .needsCancelled ?_
        simpa [Obstructs, cancelledNeeds, and_assoc] using hobstructs
    · next hclear =>
        split
        · next hholds =>
            refine .run ?_ hholds
            simpa [Obstructs, cancelledNeeds, and_assoc] using hclear
        · next hfalse => exact .conditionFalse (eq_false_of_ne_true hfalse)

end Gate
end CiPipeline
