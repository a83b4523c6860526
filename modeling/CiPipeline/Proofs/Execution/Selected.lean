import CiPipeline.Gate
import CiPipeline.Proofs.Secret

/-!
The steps that the gate selects, and the ones that the execution of the job takes for them. Each
selection is taken for a step that it fits, which may be another step that is declared alike. But then
both are selected or none is, so every step finds the selection that was made of it, and what is left
are those of the steps behind it.
-/

namespace CiPipeline

theorem Step.condition_eq_of_alike {step other : Step} (halike : step.alike other = true) :
    step.condition = other.condition := by
  simp only [alike, Bool.and_eq_true, beq_iff_eq] at halike
  exact halike.1.2

namespace Gate

section Definitions

variable (gate : Gate) (needs : NeedOutcomes)

/-- Whether a step is selected: its own condition holds, if it has one. -/
def selects (step : Step) : Bool :=
  match step.condition with
  | none => true
  | some condition => condition.holds gate.event needs.values

/-- The names of the secrets that the selected steps of a job ask for. -/
def secretNames (job : JobInstance) : List String :=
  (job.steps.filter (gate.selects needs)).flatMap fun step => step.secrets.values

/-- The selections of some steps of a job that stand together, from a place on. -/
def selectionsFrom (place : Nat) (steps : List Step) : List Selection :=
  ((steps.zipIdx place).map fun (step, place) => (⟨step, some place⟩ : Selection)).filter
    fun selection => gate.selects needs selection.step

theorem selectSteps_eq (job : JobInstance) :
    gate.selectSteps job needs = gate.selectionsFrom needs 0 job.steps := rfl

end Definitions

variable {gate : Gate} {needs : NeedOutcomes} {step : Step} {place : Nat} {rest : List Step}

theorem selectionsFrom_cons_of_selects (hselects : gate.selects needs step = true) :
    gate.selectionsFrom needs place (step :: rest) =
      ⟨step, some place⟩ :: gate.selectionsFrom needs (place + 1) rest :=
  List.filter_cons_of_pos hselects

theorem selectionsFrom_cons_of_not_selects (hselects : gate.selects needs step = false) :
    gate.selectionsFrom needs place (step :: rest) =
      gate.selectionsFrom needs (place + 1) rest :=
  List.filter_cons_of_neg (by simp [hselects])

theorem of_mem_selectionsFrom {selection : Selection}
    (hselection : selection ∈ gate.selectionsFrom needs place rest) :
    gate.selects needs selection.step = true ∧ ∃ own, place ≤ own ∧ selection.place = some own := by
  obtain ⟨hmem, hselects⟩ := List.mem_filter.mp hselection
  obtain ⟨⟨own, number⟩, hown, rfl⟩ := List.mem_map.mp hmem
  exact ⟨hselects, number, List.le_snd_of_mem_zipIdx hown, rfl⟩

/-- A step that is not selected finds no selection among those of the steps behind it: none has its
place, and what is declared alike is not selected either. -/
theorem any_fits_of_not_selects (hselects : gate.selects needs step = false) :
    (gate.selectionsFrom needs place (step :: rest)).any (Selection.fits step place) = false := by
  rw [selectionsFrom_cons_of_not_selects hselects, List.any_eq_false]
  intro selection hselection hfits
  obtain ⟨hselected, own, hown, hplace⟩ := of_mem_selectionsFrom hselection
  rcases Bool.or_eq_true_iff.mp hfits with hsame | halike
  · rw [hplace, beq_iff_eq, Option.some.injEq] at hsame
    omega
  · have hcondition := Step.condition_eq_of_alike halike
    have hsame : gate.selects needs step = gate.selects needs selection.step := by
      rw [selects, selects, hcondition]
    rw [hselects, hselected] at hsame
    cases hsame

/-- The secrets that are looked up for some selected steps are those that the steps ask for. -/
theorem secretNames_selectionsFrom (steps : List Step) :
    Selection.secretNames (gate.selectionsFrom needs place steps) =
      (steps.filter (gate.selects needs)).flatMap fun step => step.secrets.values := by
  induction steps generalizing place with
  | nil => rfl
  | cons step rest ih =>
      cases hselects : gate.selects needs step with
      | false =>
          rw [selectionsFrom_cons_of_not_selects hselects, ih, List.filter_cons_of_neg (by simp [hselects])]
      | true =>
          rw [selectionsFrom_cons_of_selects hselects, List.filter_cons_of_pos hselects,
            List.flatMap_cons, ← @ih (place + 1)]
          rfl

/-- Of the secrets of a job that are looked up are those of each selected step. -/
theorem subset_secretNames {job : JobInstance} (hstep : step ∈ job.steps)
    (hselects : gate.selects needs step = true) :
    step.secrets.values ⊆ gate.secretNames needs job :=
  fun _ hname => List.mem_flatMap.mpr ⟨step, List.mem_filter.mpr ⟨hstep, hselects⟩, hname⟩

theorem fits_self : Selection.fits step place ⟨step, some place⟩ = true := by
  simp [Selection.fits]

end Gate

namespace Executor

variable {executor : Executor} {executors : Nat → Executor} {systems : Nat → System} {gate : Gate}
  {needs : Gate.NeedOutcomes} {job : JobInstance} {redactor : Redactor} {step : Step} {place : Nat}
  {rest : List Step} {failed : Bool}

/-- The run of the selected ones among some steps that stand together, from a place on. -/
def runSelected (executors : Nat → Executor) (gate : Gate) (needs : Gate.NeedOutcomes)
    (job : JobInstance) (redactor : Redactor) (failed : Bool) (place : Nat) (steps : List Step) :
    StepsRun :=
  runSteps executors job redactor (gate.selectionsFrom needs place steps) failed (steps.zipIdx place)

/-- A job does nothing if looking up the secrets of its selected steps comes to a crash. -/
theorem runAmid_selectSteps_eq_crash {crash : Crash}
    (hcrash : executor.secrets.crashAmong? (gate.secretNames needs job) = some crash) :
    executor.runAmid systems job (gate.selectSteps job needs) =
      ⟨[], [], .error (.crashed crash)⟩ := by
  rw [Gate.secretNames, ← Gate.secretNames_selectionsFrom] at hcrash
  rw [Gate.selectSteps_eq, runAmid, hcrash]

/-- Otherwise it runs the selected ones among all its steps. -/
theorem runAmid_selectSteps_eq
    (hanswers : executor.secrets.Answers (gate.secretNames needs job)) :
    executor.runAmid systems job (gate.selectSteps job needs) =
      let run := runSelected (fun place => executor.amid (systems place)) gate needs job
        (executor.redactorFor (gate.selectSteps job needs)) false 0 job.steps
      ⟨run.begun, run.calls, run.result.map (executor.jobRecord job)⟩ := by
  have hnone := SecretProvider.crashAmong?_eq_none_iff.mpr hanswers
  rw [Gate.secretNames, ← Gate.secretNames_selectionsFrom] at hnone
  rw [Gate.selectSteps_eq, runAmid, hnone]
  rfl

theorem runSelected_skip (hskip : gate.selects needs step = false ∨ failed = true) :
    runSelected executors gate needs job redactor failed place (step :: rest) =
      (runSelected executors gate needs job redactor failed (place + 1) rest).withRecord
        (skippedRecord step) := by
  unfold runSelected
  rw [List.zipIdx_cons, runSteps]
  cases hselects : gate.selects needs step with
  | false =>
      rw [Gate.any_fits_of_not_selects hselects, Gate.selectionsFrom_cons_of_not_selects hselects]
      rfl
  | true =>
      have hfailed : failed = true := hskip.resolve_left (by simp [hselects])
      rw [Gate.selectionsFrom_cons_of_selects hselects, List.any_cons, Gate.fits_self,
        List.eraseP_cons_of_pos Gate.fits_self, hfailed]
      rfl

theorem runSelected_break (hselects : gate.selects needs step = true) {abort : Abort}
    (habort : ((executors place).runStep job redactor step).2 = .error abort) :
    runSelected executors gate needs job redactor false place (step :: rest) =
      ⟨[step.name], ((executors place).runStep job redactor step).1.toList, .error abort⟩ := by
  unfold runSelected
  rw [List.zipIdx_cons, runSteps, Gate.selectionsFrom_cons_of_selects hselects, List.any_cons,
    Gate.fits_self]
  simp [habort]

theorem runSelected_execute (hselects : gate.selects needs step = true) {record : StepRecord}
    (hrecord : ((executors place).runStep job redactor step).2 = .ok record) :
    runSelected executors gate needs job redactor false place (step :: rest) =
      let run := runSelected executors gate needs job redactor (record.outcome == .failure)
        (place + 1) rest
      ⟨step.name :: run.begun, ((executors place).runStep job redactor step).1.toList ++ run.calls,
        run.result.map (record :: ·)⟩ := by
  unfold runSelected
  rw [List.zipIdx_cons, runSteps, Gate.selectionsFrom_cons_of_selects hselects, List.any_cons,
    Gate.fits_self, List.eraseP_cons_of_pos Gate.fits_self]
  simp [hrecord]

end Executor
end CiPipeline
