import CiPipeline.Proofs.Execution
import CiPipeline.Proofs.Secret

/-!
What the execution of a job shows of its commands. Of an output only the redacted end is kept, and
an error has a redacted text behind a lead of names and an exit status; a crash alone is passed on as
it is.
-/

namespace CiPipeline

theorem trimToLimit_suffix (limit : Int) (text : String) :
    (trimToLimit limit text).toList <:+ text.toList := by
  simp only [trimToLimit]
  split
  · exact List.suffix_rfl
  · rw [String.toList_ofList]
    exact List.drop_suffix _ _

/-- The exit statuses that a step may have when it fails. -/
inductive Executor.MayExit (executor : Executor) (step : Step) : Option Int → Prop
  | withoutStatus : MayExit executor step none
  | timedOut : MayExit executor step (some timeoutExitCode)
  | exited {call : CommandCall} {code : Int} {output : String}
      (hcall : executor.callOf step = .ok call)
      (hresult : executor.runner call = .exited code output) : MayExit executor step (some code)

/-- A record of a step of a job shows texts that came out of commands only as they were redacted. -/
structure StepRecord.Redacted (record : StepRecord) (executor : Executor) (redactor : Redactor)
    (job : JobInstance) : Prop where
  name_eq : ∃ step ∈ job.steps, step.name = record.name
  output_eq : record.output = "" ∨
    ∃ text, record.output = trimToLimit executor.outputLimit (redactor.redact text)
  error_eq : ∀ error, record.error = some error → ∃ step ∈ job.steps, ∃ code text,
    executor.MayExit step code ∧
      error = StepFailure.message ⟨job.name, step.name, code, redactor.redact text⟩

/-- A crash comes from one of the calls, from looking for the directory of a step, or from looking up a
secret of a step. -/
inductive Executor.Crashes (executor : Executor) (job : JobInstance) (calls : List CommandCall)
    (crash : Crash) : Prop
  | call {call : CommandCall} (hcall : call ∈ calls) (hcrash : executor.runner call = .crashed crash) :
      Crashes executor job calls crash
  | directory {step : Step} (hstep : step ∈ job.steps)
      (hcrash : executor.directoryOf step = .error (.crash crash)) : Crashes executor job calls crash
  | secret {step : Step} {name : String} (hstep : step ∈ job.steps)
      (hname : name ∈ step.secrets.values) (hcrash : executor.secrets name = .error crash) :
      Crashes executor job calls crash

/-- What some steps have done shows nothing of their commands but what was redacted, and crashes. -/
structure Executor.StepsRun.Redacted (run : StepsRun) (executor : Executor) (redactor : Redactor)
    (job : JobInstance) : Prop where
  begun : ∀ name ∈ run.begun, ∃ step ∈ job.steps, step.name = name
  records : ∀ records, run.result = .ok records →
    ∀ record ∈ records, record.Redacted executor redactor job
  crash : ∀ crash, run.result = .error (.crashed crash) → executor.Crashes job run.calls crash

namespace Executor

variable {executor : Executor} {job : JobInstance} {redactor : Redactor} {step : Step}

theorem skippedRecord_redacted (hstep : step ∈ job.steps) :
    (skippedRecord step).Redacted executor redactor job where
  name_eq := ⟨step, hstep, rfl⟩
  output_eq := Or.inl rfl
  error_eq := by
    intro error herror
    cases herror

theorem failedRecord_redacted (hstep : step ∈ job.steps) {code : Option Int}
    (hcode : executor.MayExit step code) (error output : String) :
    (executor.failedRecord job redactor step code error output).Redacted executor redactor job where
  name_eq := ⟨step, hstep, rfl⟩
  output_eq := Or.inr ⟨output, rfl⟩
  error_eq := by
    rintro _ ⟨⟩
    exact ⟨step, hstep, code, error, hcode, rfl⟩

theorem recordOf_redacted (hstep : step ∈ job.steps) {call : CommandCall}
    (hcall : executor.callOf step = .ok call) {result : CommandResult}
    (hresult : executor.runner call = result) {record : StepRecord}
    (hrecord : executor.recordOf job redactor step result = .ok record) :
    record.Redacted executor redactor job := by
  cases result with
  | exited code output =>
      simp only [recordOf] at hrecord
      split at hrecord
      · cases hrecord
        exact ⟨⟨step, hstep, rfl⟩, Or.inr ⟨output, rfl⟩, fun _ herror => by cases herror⟩
      · cases hrecord
        exact failedRecord_redacted hstep (.exited hcall hresult) _ _
  | timedOut captured =>
      cases hrecord
      exact failedRecord_redacted hstep .timedOut _ _
  | refused kind text =>
      cases hrecord
      exact failedRecord_redacted hstep .withoutStatus _ _
  | _ => cases hrecord

theorem eq_crashed_of_recordOf {result : CommandResult} {crash : Crash}
    (hcrash : executor.recordOf job redactor step result = .error (.crashed crash)) :
    result = .crashed crash := by
  cases result with
  | exited code output =>
      simp only [recordOf] at hcrash
      split at hcrash
      · cases hcrash
      · cases hcrash
  | crashed own =>
      cases hcrash
      rfl
  | _ => cases hcrash

theorem runStep_redacted (hstep : step ∈ job.steps) {record : StepRecord}
    (hrecord : (executor.runStep job redactor step).2 = .ok record) :
    record.Redacted executor redactor job := by
  unfold runStep at hrecord
  split at hrecord
  · cases hrecord
    exact failedRecord_redacted hstep .withoutStatus _ _
  · cases hrecord
  · next hcall => exact recordOf_redacted hstep hcall rfl hrecord

/-- What keeps a step by a crash from making its call is one of its secrets or its directory. -/
theorem crash_of_callOf {crash : Crash} (hcall : executor.callOf step = .error (.crash crash)) :
    (∃ name ∈ step.secrets.values, executor.secrets name = .error crash) ∨
      executor.directoryOf step = .error (.crash crash) := by
  rcases bind_eq_error_iff.mp hcall with hsecrets | ⟨_, _, hrest⟩
  · obtain ⟨error, herror, heq⟩ := mapError_eq_error_iff.mp hsecrets
    cases error with
    | missing name => cases heq
    | crashed own =>
        cases heq
        obtain ⟨name, hname, hget⟩ := exists_error_of_resolveSecrets herror
        exact Or.inl ⟨name, hname, SecretProvider.get_eq_crashed_iff.mp hget⟩
  · rcases bind_eq_error_iff.mp hrest with hdirectory | ⟨_, _, hreturn⟩
    · exact Or.inr hdirectory
    · cases hreturn

theorem runStep_crashed (hstep : step ∈ job.steps) {crash : Crash}
    (hcrash : (executor.runStep job redactor step).2 = .error (.crashed crash)) :
    executor.Crashes job (executor.runStep job redactor step).1.toList crash := by
  unfold runStep at hcrash ⊢
  cases hcall : executor.callOf step with
  | error obstacle =>
      rw [hcall] at hcrash
      cases obstacle with
      | complaint text => cases hcrash
      | crash own =>
          cases hcrash
          rcases crash_of_callOf hcall with ⟨name, hname, hsecret⟩ | hdirectory
          · exact .secret hstep hname hsecret
          · exact .directory hstep hdirectory
  | ok call =>
      rw [hcall] at hcrash
      exact .call (List.mem_singleton_self call) (eq_crashed_of_recordOf hcrash)

theorem Crashes.append {calls : List CommandCall} {crash : Crash}
    (hcrashes : executor.Crashes job calls crash) (before : List CommandCall) :
    executor.Crashes job (before ++ calls) crash := by
  cases hcrashes with
  | call hcall hcrash => exact .call (List.mem_append_right _ hcall) hcrash
  | directory hstep hcrash => exact .directory hstep hcrash
  | secret hstep hname hcrash => exact .secret hstep hname hcrash

theorem StepsRun.Redacted.cons {run : StepsRun} {record : StepRecord} {begun : List String}
    (hrun : run.Redacted executor redactor job) (hrecord : record.Redacted executor redactor job)
    (hbegun : ∀ name ∈ begun, ∃ step ∈ job.steps, step.name = name)
    (calls : List CommandCall) :
    StepsRun.Redacted ⟨begun ++ run.begun, calls ++ run.calls, run.result.map (record :: ·)⟩
      executor redactor job where
  begun := by
    intro name hname
    rcases List.mem_append.mp hname with hnew | hold
    · exact hbegun name hnew
    · exact hrun.begun name hold
  records := by
    intro records hresult
    obtain ⟨rest, hrest, rfl⟩ := map_eq_ok_iff.mp hresult
    intro other hother
    rcases List.mem_cons.mp hother with rfl | hother
    · exact hrecord
    · exact hrun.records rest hrest other hother
  crash := by
    intro crash hresult
    exact (hrun.crash crash (map_eq_error_iff.mp hresult)).append calls

theorem StepsRun.Redacted.withRecord {run : StepsRun} {record : StepRecord}
    (hrun : run.Redacted executor redactor job) (hrecord : record.Redacted executor redactor job) :
    (run.withRecord record).Redacted executor redactor job := by
  have hnone : ∀ name ∈ ([] : List String), ∃ step ∈ job.steps, step.name = name := by simp
  exact hrun.cons hrecord hnone []

theorem runSteps_redacted (selected : List Selection) (failed : Bool) {steps : List (Step × Nat)}
    (hsteps : ∀ entry ∈ steps, entry.1 ∈ job.steps) :
    (runSteps (fun _ => executor) job redactor selected failed steps).Redacted executor redactor
      job := by
  induction steps generalizing selected failed with
  | nil => exact ⟨by simp [runSteps], by simp [runSteps], by simp [runSteps]⟩
  | cons entry rest ih =>
      obtain ⟨step, place⟩ := entry
      have hstep : step ∈ job.steps := hsteps (step, place) List.mem_cons_self
      have hrest := fun selected failed =>
        ih selected failed fun entry hentry => hsteps entry (List.mem_cons_of_mem _ hentry)
      have hskipped : (skippedRecord step).Redacted executor redactor job :=
        skippedRecord_redacted hstep
      have hbegun : ∀ name ∈ [step.name], ∃ step ∈ job.steps, step.name = name := by
        intro name hname
        exact ⟨step, hstep, (List.mem_singleton.mp hname).symm⟩
      simp only [runSteps]
      split
      · exact (hrest selected failed).withRecord hskipped
      · split
        · exact (hrest _ failed).withRecord hskipped
        · cases hresult : (executor.runStep job redactor step).2 with
          | error abort =>
              refine ⟨hbegun, ?_, ?_⟩
              · rintro records ⟨⟩
              · rintro crash ⟨⟩
                exact runStep_crashed hstep hresult
          | ok record =>
              exact (hrest _ _).cons (runStep_redacted hstep hresult) hbegun _

/-! ## The execution of a job -/

variable {selected : List Selection}

theorem run_steps_redacted (executor : Executor) (job : JobInstance) (selected : List Selection) :
    (runSteps (fun _ => executor) job (executor.redactorFor selected) selected false
      job.steps.zipIdx).Redacted executor (executor.redactorFor selected) job :=
  runSteps_redacted selected false fun _ hentry => List.fst_mem_of_mem_zipIdx hentry

theorem exists_step_of_mem_begun {name : String}
    (hname : name ∈ (executor.run job selected).begun) :
    ∃ step ∈ job.steps, step.name = name := by
  rcases executor.run_cases job selected with ⟨_, _, hrun⟩ | ⟨_, hrun⟩
  · rw [hrun] at hname
    cases hname
  · rw [hrun] at hname
    exact (executor.run_steps_redacted job selected).begun name hname

theorem run_redacted {record : JobRecord}
    (hrecord : (executor.run job selected).result = .ok record) :
    ∃ steps, record = executor.jobRecord job steps ∧
      ∀ step ∈ steps, step.Redacted executor (executor.redactorFor selected) job := by
  rcases executor.run_cases job selected with ⟨_, _, hrun⟩ | ⟨_, hrun⟩
  · rw [hrun] at hrecord
    cases hrecord
  · rw [hrun] at hrecord
    obtain ⟨steps, hsteps, rfl⟩ := map_eq_ok_iff.mp hrecord
    exact ⟨steps, rfl, (executor.run_steps_redacted job selected).records steps hsteps⟩

/-- If the secrets of the selected steps can be looked up, it is the steps that a crash comes from. -/
theorem run_crashed (hanswers : executor.secrets.Answers (Selection.secretNames selected))
    {crash : Crash} (hcrash : (executor.run job selected).result = .error (.crashed crash)) :
    executor.Crashes job (executor.run job selected).calls crash := by
  rcases executor.run_cases job selected with ⟨_, hcrashed, _⟩ | ⟨_, hrun⟩
  · rw [SecretProvider.crashAmong?_eq_none_iff.mpr hanswers] at hcrashed
    cases hcrashed
  · rw [hrun] at hcrash ⊢
    exact (executor.run_steps_redacted job selected).crash crash (map_eq_error_iff.mp hcrash)

/-- The reason of an executed job is the error of one of its steps. -/
theorem reason_jobRecord (executor : Executor) (job : JobInstance) (steps : List StepRecord) :
    (executor.jobRecord job steps).reason = "" ∨
      ∃ step ∈ steps, step.error = some (executor.jobRecord job steps).reason := by
  simp only [jobRecord]
  cases hbroken : steps.find? fun record => record.outcome == .failure with
  | none => exact Or.inl rfl
  | some record =>
      cases herror : record.error with
      | none => simp [herror]
      | some error =>
          refine Or.inr ⟨record, List.mem_of_find?_eq_some hbroken, ?_⟩
          simp [herror]

end Executor
end CiPipeline
