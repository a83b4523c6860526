import CiPipeline.Proofs.Secret

/-!
What the scheduler may rely on when it has a job executed: the record is a record of that job, it
tells of success or failure, and there is one unless something crashed or a command was interrupted.
Every executor keeps to this.
-/

namespace CiPipeline

/-- Every record that comes from executing a job is a record of that job. -/
def OwnRecords (execute : JobInstance → List Selection → JobRun) : Prop :=
  ∀ job steps record, (execute job steps).result = .ok record → record.id = job.id

/-- Every record that comes from executing a job tells of success or failure. -/
def Decided (execute : JobInstance → List Selection → JobRun) : Prop :=
  ∀ job steps record, (execute job steps).result = .ok record →
    record.outcome = .success ∨ record.outcome = .failure

/-- No job is interrupted; it may succeed, fail or crash. -/
def Uninterrupted (execute : JobInstance → List Selection → JobRun) : Prop :=
  ∀ job steps, (execute job steps).result ≠ .error .interrupted

namespace Executor

variable (executor : Executor)

/-- A job does nothing and crashes if a secret of a selected step cannot be looked up; otherwise it runs
its steps. -/
theorem runAmid_cases (systems : Nat → System) (job : JobInstance) (selected : List Selection) :
    (∃ crash, executor.secrets.crashAmong? (Selection.secretNames selected) = some crash ∧
      executor.runAmid systems job selected = ⟨[], [], .error (.crashed crash)⟩) ∨
    executor.secrets.Answers (Selection.secretNames selected) ∧
      executor.runAmid systems job selected =
        let run := runSteps (fun place => executor.amid (systems place)) job
          (executor.redactorFor selected) selected false job.steps.zipIdx
        ⟨run.begun, run.calls, run.result.map (executor.jobRecord job)⟩ := by
  rw [← SecretProvider.crashAmong?_eq_none_iff]
  unfold runAmid
  split
  · next crash hcrash => exact Or.inl ⟨crash, hcrash, rfl⟩
  · next hnone => exact Or.inr ⟨hnone, rfl⟩

theorem run_cases (job : JobInstance) (selected : List Selection) :
    (∃ crash, executor.secrets.crashAmong? (Selection.secretNames selected) = some crash ∧
      executor.run job selected = ⟨[], [], .error (.crashed crash)⟩) ∨
    executor.secrets.Answers (Selection.secretNames selected) ∧
      executor.run job selected =
        let run := runSteps (fun _ => executor) job (executor.redactorFor selected) selected false
          job.steps.zipIdx
        ⟨run.begun, run.calls, run.result.map (executor.jobRecord job)⟩ :=
  executor.runAmid_cases (fun _ => executor.toSystem) job selected

theorem exists_jobRecord_of_run {job : JobInstance} {selected : List Selection}
    {record : JobRecord} (hrecord : (executor.run job selected).result = .ok record) :
    ∃ steps, record = executor.jobRecord job steps := by
  rcases executor.run_cases job selected with ⟨_, _, hrun⟩ | ⟨_, hrun⟩
  · rw [hrun] at hrecord
    cases hrecord
  · rw [hrun] at hrecord
    obtain ⟨steps, _, rfl⟩ := map_eq_ok_iff.mp hrecord
    exact ⟨steps, rfl⟩

theorem run_ownRecords : OwnRecords executor.run := by
  intro job selected record hrecord
  obtain ⟨steps, rfl⟩ := executor.exists_jobRecord_of_run hrecord
  rfl

theorem run_decided : Decided executor.run := by
  intro job selected record hrecord
  obtain ⟨steps, rfl⟩ := executor.exists_jobRecord_of_run hrecord
  unfold jobRecord
  simp only
  split
  · exact Or.inr rfl
  · exact Or.inl rfl

section Congruence

variable {job other : JobInstance}

/-- A step reads nothing of its job but the identity. -/
theorem runStep_congr (hid : job.id = other.id) : executor.runStep job = executor.runStep other := by
  funext redactor step
  unfold runStep recordOf failedRecord JobInstance.name
  rw [hid]

theorem runSteps_congr (hid : job.id = other.id) (redactor : Redactor)
    (selected : List Selection) (failed : Bool) (steps : List (Step × Nat)) :
    runSteps (fun _ => executor) job redactor selected failed steps =
      runSteps (fun _ => executor) other redactor selected failed steps := by
  induction steps generalizing selected failed with
  | nil => rfl
  | cons entry rest ih => simp only [runSteps, ih, executor.runStep_congr hid]

/-- The execution of a job reads nothing of it but the identity, the title and the steps. -/
theorem run_congr (hid : job.id = other.id) (htitle : job.title = other.title)
    (hsteps : job.steps = other.steps) : executor.run job = executor.run other := by
  funext selected
  have hrecord : executor.jobRecord job = executor.jobRecord other := by
    funext steps
    unfold jobRecord
    rw [hid, htitle]
  have hsame : ∀ redactor, runSteps (fun _ => executor) job redactor =
      runSteps (fun _ => executor) other redactor := by
    intro redactor
    funext selected failed steps
    exact executor.runSteps_congr hid redactor selected failed steps
  simp only [run, runAmid, amid, hsame, hsteps, hrecord]

end Congruence

section Interruption

variable {executor}

theorem runStep_ne_interrupted (hcalm : ∀ call, executor.runner call ≠ .interrupted)
    (job : JobInstance) (redactor : Redactor) (step : Step) :
    (executor.runStep job redactor step).2 ≠ .error .interrupted := by
  unfold runStep
  split
  · simp
  · simp
  · next call _ =>
      cases hresult : executor.runner call with
      | exited code output =>
          simp only [recordOf]
          split <;> simp
      | interrupted => exact absurd hresult (hcalm call)
      | _ => simp [recordOf]

/-- Steps are interrupted only by a command that is, whatever stands in front of it. -/
theorem runSteps_ne_interrupted (hcalm : ∀ call, executor.runner call ≠ .interrupted)
    (job : JobInstance) (redactor : Redactor) (selected : List Selection) (failed : Bool)
    (steps : List (Step × Nat)) :
    (runSteps (fun _ => executor) job redactor selected failed steps).result ≠
      .error .interrupted := by
  have hmap : ∀ (record : StepRecord) {result : Except Abort (List StepRecord)},
      result ≠ .error .interrupted → result.map (record :: ·) ≠ .error .interrupted := by
    intro record result hresult heq
    cases result with
    | error abort => exact hresult heq
    | ok records => cases heq
  induction steps generalizing selected failed with
  | nil => simp [runSteps]
  | cons entry rest ih =>
      obtain ⟨step, place⟩ := entry
      simp only [runSteps]
      split
      · exact hmap _ (ih selected failed)
      · split
        · exact hmap _ (ih _ failed)
        · have hstep := runStep_ne_interrupted hcalm job redactor step
          split
          · next abort habort =>
              intro heq
              cases heq
              exact hstep habort
          · exact hmap _ (ih _ _)

theorem run_uninterrupted (hcalm : ∀ call, executor.runner call ≠ .interrupted) :
    Uninterrupted executor.run := by
  intro job selected hresult
  rcases executor.run_cases job selected with ⟨_, _, hrun⟩ | ⟨_, hrun⟩
  · rw [hrun] at hresult
    cases hresult
  · rw [hrun] at hresult
    exact runSteps_ne_interrupted hcalm job (executor.redactorFor selected) selected false
      job.steps.zipIdx (map_eq_error_iff.mp hresult)

end Interruption
end Executor
end CiPipeline
