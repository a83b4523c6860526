import CiPipeline.Proofs.Execution.Obstacle
import CiPipeline.Proofs.Execution.Selected

/-!
A job runs its selected steps in order, up to the first that fails. What becomes of each step is told by
a relation that follows the execution, one step at a time; all that is said of the records and of the
calls is proved along it.

Each step meets a system of its own, so equal steps may end differently. If every command comes back,
a job is kept from its record by an error of looking up a secret or a directory, and by nothing else.
-/

namespace CiPipeline

namespace CommandResult

/-- A command came back: it has ended, has run out of time or was refused by the system. -/
def returns : CommandResult → Bool
  | exited _ _ | timedOut _ | refused _ _ => true
  | crashed _ | interrupted => false

/-- A command came back without success. -/
def fails : CommandResult → Bool
  | exited code _ => code != 0
  | timedOut _ | refused _ _ => true
  | crashed _ | interrupted => false

end CommandResult

namespace Executor

/-- A step makes its call, and the command ends with success. -/
def Succeeds (executor : Executor) (step : Step) : Prop :=
  ∃ call output, executor.callOf step = .ok call ∧ executor.runner call = .exited 0 output

/-- How a step was executed, as its record tells. -/
inductive Tells (executor : Executor) (step : Step) (record : StepRecord) : Prop
  | succeeded (hsucceeds : executor.Succeeds step) (houtcome : record.outcome = .success)
  | failed {call : CommandCall} (hcall : executor.callOf step = .ok call)
      (hfails : (executor.runner call).fails = true) (houtcome : record.outcome = .failure)
  /-- The step failed before it made its call. -/
  | prevented {text : String} (hcall : executor.callOf step = .error (.complaint text))
      (houtcome : record.outcome = .failure)

/-- A record is that of a step that was executed. A failure comes with an error. -/
structure Executed (executor : Executor) (step : Step) (record : StepRecord) : Prop where
  name_eq : record.name = step.name
  tells : executor.Tells step record
  error_isSome : record.outcome = .failure → record.error.isSome = true

/-! ## One step -/

section Step

variable {executor : Executor} {job : JobInstance} {redactor : Redactor} {step : Step}
  {record : StepRecord}

theorem Derails.unique {crash other : Crash} (hderails : executor.Derails step crash)
    (hother : executor.Derails step other) : crash = other := by
  cases (callOf_of_derails hderails).symm.trans (callOf_of_derails hother)
  rfl

theorem Succeeds.not_derails (hsucceeds : executor.Succeeds step) (crash : Crash) :
    ¬ executor.Derails step crash := by
  intro hderails
  obtain ⟨_, _, hcall, _⟩ := hsucceeds
  cases (callOf_of_derails hderails).symm.trans hcall

theorem Tells.succeeds_iff (htells : executor.Tells step record) :
    executor.Succeeds step ↔ record.outcome = .success := by
  cases htells with
  | succeeded hsucceeds houtcome => exact iff_of_true hsucceeds houtcome
  | failed hcall hfails houtcome =>
      refine iff_of_false ?_ (by simp [houtcome])
      rintro ⟨own, output, hown, hresult⟩
      cases hcall.symm.trans hown
      simp [hresult, CommandResult.fails] at hfails
  | prevented hcall houtcome =>
      refine iff_of_false ?_ (by simp [houtcome])
      rintro ⟨own, output, hown, hresult⟩
      cases hcall.symm.trans hown

theorem Tells.outcome_ne_skipped (htells : executor.Tells step record) :
    record.outcome ≠ .skipped := by
  cases htells <;> simp [*]

theorem Tells.beq_failure_iff (htells : executor.Tells step record) :
    (record.outcome == .failure) = false ↔ record.outcome = .success := by
  cases htells <;> simp [*]

theorem Tells.not_derails (htells : executor.Tells step record) (crash : Crash) :
    ¬ executor.Derails step crash := by
  intro hderails
  have hcrash := callOf_of_derails hderails
  cases htells with
  | succeeded hsucceeds _ => exact hsucceeds.not_derails crash hderails
  | failed hcall _ _ => cases hcrash.symm.trans hcall
  | prevented hcall _ => cases hcrash.symm.trans hcall

/-- An executed step has made its call exactly if it lacks nothing, and this was that of its
command. -/
theorem Tells.called_iff (htells : executor.Tells step record) :
    (∃ call, executor.callOf step = .ok call ∧ call.command = step.command) ↔
      ∀ text, ¬ executor.Lacks step text := by
  constructor
  · rintro ⟨call, hcall, _⟩
    exact (not_lacks_of_callOf hcall).2
  · intro hnothing
    cases htells with
    | succeeded hsucceeds _ =>
        obtain ⟨call, _, hcall, _⟩ := hsucceeds
        exact ⟨call, hcall, (not_lacks_of_callOf hcall).1⟩
    | @failed call hcall _ _ => exact ⟨call, hcall, (not_lacks_of_callOf hcall).1⟩
    | prevented hcall _ => exact absurd (lacks_of_callOf hcall) (hnothing _)

theorem exists_recordOf_eq_ok {call : CommandCall} (hcall : executor.callOf step = .ok call)
    (hreturns : (executor.runner call).returns = true) :
    ∃ record, executor.recordOf job redactor step (executor.runner call) = .ok record ∧
      executor.Executed step record := by
  cases hresult : executor.runner call with
  | exited code output =>
      by_cases hcode : code = 0
      · subst hcode
        refine ⟨_, rfl, rfl, .succeeded ⟨call, output, hcall, hresult⟩ rfl, ?_⟩
        intro hfailure
        cases hfailure
      · refine ⟨_, if_neg hcode, rfl, .failed hcall ?_ rfl, fun _ => rfl⟩
        rw [hresult]
        exact bne_iff_ne.mpr hcode
  | timedOut captured => exact ⟨_, rfl, rfl, .failed hcall (by rw [hresult]; rfl) rfl, fun _ => rfl⟩
  | refused kind text => exact ⟨_, rfl, rfl, .failed hcall (by rw [hresult]; rfl) rfl, fun _ => rfl⟩
  | crashed crash => simp [hresult, CommandResult.returns] at hreturns
  | interrupted => simp [hresult, CommandResult.returns] at hreturns

/-- A step that is run has a record, or it breaks off its job. -/
theorem runStep_cases (hreturns : ∀ call, (executor.runner call).returns = true)
    (hanswers : executor.secrets.Answers step.secrets.values) (job : JobInstance)
    (redactor : Redactor) :
    (∃ crash, executor.Derails step crash ∧
      (executor.runStep job redactor step).2 = .error (.crashed crash)) ∨
    ∃ record, (executor.runStep job redactor step).2 = .ok record ∧
      executor.Executed step record := by
  unfold runStep
  cases hcall : executor.callOf step with
  | error obstacle =>
      cases obstacle with
      | crash crash => exact Or.inl ⟨crash, derails_of_callOf hanswers hcall, rfl⟩
      | complaint text => exact Or.inr ⟨_, rfl, rfl, .prevented hcall rfl, fun _ => rfl⟩
  | ok call => exact Or.inr (exists_recordOf_eq_ok hcall (hreturns call))

end Step

/-! ## The steps one after the other -/

/-- How some steps come to their records, after a failure or not: a step that is not selected is
skipped, as is everything after a failure, and each other step is executed. Each of them stands with its
place, to which its executor belongs. -/
inductive Proceeds (executors : Nat → Executor) (selects : Step → Bool) :
    Bool → List (Step × Nat) → List StepRecord → Prop
  | nil (failed : Bool) : Proceeds executors selects failed [] []
  | skip {failed : Bool} {entry : Step × Nat} {entries : List (Step × Nat)}
      {records : List StepRecord} (hskip : selects entry.1 = false ∨ failed = true)
      (hrest : Proceeds executors selects failed entries records) :
      Proceeds executors selects failed (entry :: entries) (skippedRecord entry.1 :: records)
  | execute {entry : Step × Nat} {record : StepRecord} {entries : List (Step × Nat)}
      {records : List StepRecord} (hselects : selects entry.1 = true)
      (hexecuted : (executors entry.2).Executed entry.1 record)
      (hrest : Proceeds executors selects (record.outcome == .failure) entries records) :
      Proceeds executors selects false (entry :: entries) (record :: records)

/-- The steps that were executed, as their records tell. -/
def executedSteps (entries : List (Step × Nat)) (records : List StepRecord) : List (Step × Nat) :=
  ((entries.zip records).filter fun (_, record) => record.outcome != .skipped).map Prod.fst

theorem executedSteps_skip (entry : Step × Nat) (entries : List (Step × Nat))
    (records : List StepRecord) :
    executedSteps (entry :: entries) (skippedRecord entry.1 :: records) =
      executedSteps entries records :=
  rfl

theorem executedSteps_execute {record : StepRecord} (hrecord : record.outcome ≠ .skipped)
    (entry : Step × Nat) (entries : List (Step × Nat)) (records : List StepRecord) :
    executedSteps (entry :: entries) (record :: records) =
      entry :: executedSteps entries records := by
  rw [executedSteps, List.zip_cons_cons,
    List.filter_cons_of_pos (by simpa using hrecord), List.map_cons, executedSteps]

section Steps

variable {executors : Nat → Executor} {gate : Gate} {needs : Gate.NeedOutcomes} {job : JobInstance}
  {redactor : Redactor} {failed : Bool} {place : Nat} {steps : List Step}
  {records : List StepRecord}

/-- What the first of some steps can do: it is skipped, it breaks off the job, or it comes to its record and
the others follow. -/
theorem runSelected_cons_cases {step : Step}
    (hreturns : ∀ call, ((executors place).runner call).returns = true)
    (hanswers : gate.selects needs step = true →
      (executors place).secrets.Answers step.secrets.values) (job : JobInstance)
    (redactor : Redactor) (failed : Bool) (rest : List Step) :
    (gate.selects needs step = false ∨ failed = true) ∧
      runSelected executors gate needs job redactor failed place (step :: rest) =
        (runSelected executors gate needs job redactor failed (place + 1) rest).withRecord
          (skippedRecord step) ∨
    (gate.selects needs step = true ∧ failed = false) ∧
      ((∃ crash, (executors place).Derails step crash ∧
        (runSelected executors gate needs job redactor failed place (step :: rest)).result =
          .error (.crashed crash)) ∨
      ∃ record, (executors place).Executed step record ∧
        runSelected executors gate needs job redactor failed place (step :: rest) =
          let run := runSelected executors gate needs job redactor (record.outcome == .failure)
            (place + 1) rest
          ⟨step.name :: run.begun, ((executors place).callOf step).toOption.toList ++ run.calls,
            run.result.map (record :: ·)⟩) := by
  by_cases hskip : gate.selects needs step = false ∨ failed = true
  · exact Or.inl ⟨hskip, runSelected_skip hskip⟩
  · rw [not_or, Bool.not_eq_false, Bool.not_eq_true] at hskip
    obtain ⟨hselects, rfl⟩ := hskip
    refine Or.inr ⟨⟨hselects, rfl⟩, ?_⟩
    rcases runStep_cases hreturns (hanswers hselects) job redactor with
      ⟨crash, hderails, hcrash⟩ | ⟨record, hrecord, hexecuted⟩
    · exact Or.inl ⟨crash, hderails, by rw [runSelected_break hselects hcrash]⟩
    · refine Or.inr ⟨record, hexecuted, ?_⟩
      rw [runSelected_execute hselects hrecord, fst_runStep]

/-- Steps that come to records proceed as is said, and the executed ones make their calls one after
the other. -/
theorem proceeds_of_runSelected
    (hreturns : ∀ place call, ((executors place).runner call).returns = true)
    (hanswers : ∀ place, ∀ step ∈ steps, gate.selects needs step = true →
      (executors place).secrets.Answers step.secrets.values)
    (hrecords : (runSelected executors gate needs job redactor failed place steps).result =
      .ok records) :
    Proceeds executors (gate.selects needs) failed (steps.zipIdx place) records ∧
      (runSelected executors gate needs job redactor failed place steps).begun =
        (executedSteps (steps.zipIdx place) records).map (fun entry => entry.1.name) ∧
      (runSelected executors gate needs job redactor failed place steps).calls =
        (executedSteps (steps.zipIdx place) records).filterMap fun (step, place) =>
          ((executors place).callOf step).toOption := by
  induction steps generalizing failed place records with
  | nil =>
      cases hrecords
      exact ⟨.nil failed, rfl, rfl⟩
  | cons step rest ih =>
      have ih := fun failed place records => @ih failed place records
        fun place own hown => hanswers place own (List.mem_cons_of_mem step hown)
      rw [List.zipIdx_cons]
      rcases runSelected_cons_cases (hreturns place) (hanswers place step List.mem_cons_self) job
        redactor failed rest with
        ⟨hskip, hrun⟩ | ⟨⟨hselects, rfl⟩, ⟨_, _, hcrash⟩ | ⟨record, hexecuted, hrun⟩⟩
      · rw [hrun] at hrecords ⊢
        obtain ⟨more, hmore, rfl⟩ := map_eq_ok_iff.mp hrecords
        obtain ⟨hproceeds, hbegun, hcalls⟩ := ih _ _ _ hmore
        rw [executedSteps_skip (step, place)]
        exact ⟨.skip hskip hproceeds, hbegun, hcalls⟩
      · cases hcrash.symm.trans hrecords
      · rw [hrun] at hrecords ⊢
        obtain ⟨more, hmore, rfl⟩ := map_eq_ok_iff.mp hrecords
        obtain ⟨hproceeds, hbegun, hcalls⟩ := ih _ _ _ hmore
        rw [executedSteps_execute hexecuted.tells.outcome_ne_skipped]
        refine ⟨.execute hselects hexecuted hproceeds, ?_, ?_⟩
        · exact congrArg (step.name :: ·) hbegun
        · simp only [hcalls, List.filterMap_cons]
          cases ((executors place).callOf step).toOption <;> rfl

/-- Steps are broken off exactly where all selected ones before succeed and the next one derails. -/
theorem runSelected_eq_error_iff
    (hreturns : ∀ place call, ((executors place).runner call).returns = true)
    (hanswers : ∀ place, ∀ step ∈ steps, gate.selects needs step = true →
      (executors place).secrets.Answers step.secrets.values) {abort : Abort} :
    (runSelected executors gate needs job redactor failed place steps).result = .error abort ↔
      failed = false ∧ ∃ crash, abort = .crashed crash ∧
        StopsAt (fun (step, place) => (executors place).Succeeds step)
          (fun (step, place) => (executors place).Derails step crash)
          ((steps.zipIdx place).filter fun entry => gate.selects needs entry.1) := by
  induction steps generalizing failed place with
  | nil =>
      refine iff_of_false ?_ ?_
      · rintro ⟨⟩
      · rintro ⟨_, _, _, hstops⟩
        exact stopsAt_nil hstops
  | cons step rest ih =>
      have ih := fun failed place => @ih failed place
        fun place own hown => hanswers place own (List.mem_cons_of_mem step hown)
      rw [List.zipIdx_cons]
      rcases runSelected_cons_cases (hreturns place) (hanswers place step List.mem_cons_self) job
        redactor failed rest with
        ⟨hskip, hrun⟩ | ⟨⟨hselects, rfl⟩, hcomes⟩
      · rw [hrun]
        refine map_eq_error_iff.trans ((ih _ _).trans ?_)
        rcases hskip with hskip | rfl
        · rw [List.filter_cons_of_neg (by simp [hskip])]
        · simp
      · simp only [List.filter_cons, hselects, if_true, stopsAt_cons_iff, true_and]
        rcases hcomes with ⟨crash, hderails, hcrash⟩ | ⟨record, hexecuted, hrun⟩
        · rw [hcrash]
          constructor
          · rintro ⟨⟩
            exact ⟨crash, rfl, Or.inl hderails⟩
          · rintro ⟨other, rfl, hother | ⟨hsucceeds, _⟩⟩
            · rw [hderails.unique hother]
            · exact absurd hderails (hsucceeds.not_derails crash)
        · rw [hrun]
          refine map_eq_error_iff.trans ((ih _ _).trans ?_)
          simp only [hexecuted.tells.not_derails, hexecuted.tells.succeeds_iff,
            hexecuted.tells.beq_failure_iff, false_or]
          constructor
          · rintro ⟨hsuccess, crash, habort, hstops⟩
            exact ⟨crash, habort, hsuccess, hstops⟩
          · rintro ⟨crash, habort, hsuccess, hstops⟩
            exact ⟨hsuccess, crash, habort, hstops⟩

end Steps

namespace Proceeds

variable {executors : Nat → Executor} {selects : Step → Bool} {failed : Bool}
  {entries : List (Step × Nat)} {records : List StepRecord}

theorem map_name (hproceeds : Proceeds executors selects failed entries records) :
    records.map StepRecord.name = entries.map fun entry => entry.1.name := by
  induction hproceeds with
  | nil _ => rfl
  | skip _ _ ih => rw [List.map_cons, List.map_cons, ih, skippedRecord]
  | execute _ hexecuted _ ih => rw [List.map_cons, List.map_cons, ih, hexecuted.name_eq]

theorem executed (hproceeds : Proceeds executors selects failed entries records) {index : Nat}
    {entry : Step × Nat} {own : StepRecord} (hentry : entries[index]? = some entry)
    (hown : records[index]? = some own) (hdone : own.outcome ≠ .skipped) :
    (executors entry.2).Executed entry.1 own := by
  induction hproceeds generalizing index with
  | nil _ => cases hentry
  | skip _ _ ih =>
      cases index with
      | zero =>
          cases hown
          exact absurd rfl hdone
      | succ index => exact ih hentry hown
  | execute _ hexecuted _ ih =>
      cases index with
      | zero =>
          cases hentry
          cases hown
          exact hexecuted
      | succ index => exact ih hentry hown

/-- A step is skipped if it is not selected, or if something has failed before it. -/
theorem skipped_iff (hproceeds : Proceeds executors selects failed entries records) {index : Nat}
    {entry : Step × Nat} {own : StepRecord} (hentry : entries[index]? = some entry)
    (hown : records[index]? = some own) :
    own.outcome = .skipped ↔ selects entry.1 = false ∨ failed = true ∨
      ∃ earlier ∈ records.take index, earlier.outcome = .failure := by
  induction hproceeds generalizing index with
  | nil _ => cases hentry
  | skip hskip _ ih =>
      cases index with
      | zero =>
          cases hentry
          cases hown
          exact iff_of_true rfl (by tauto)
      | succ index =>
          rw [ih hentry hown, List.take_succ_cons]
          simp [skippedRecord]
  | execute hselects hexecuted _ ih =>
      cases index with
      | zero =>
          cases hentry
          cases hown
          exact iff_of_false hexecuted.tells.outcome_ne_skipped (by simp [hselects])
      | succ index =>
          rw [ih hentry hown, List.take_succ_cons]
          simp

theorem error_isSome (hproceeds : Proceeds executors selects failed entries records) :
    ∀ own ∈ records, own.outcome = .failure → own.error.isSome = true := by
  induction hproceeds with
  | nil _ => simp
  | skip _ _ ih => simpa [skippedRecord] using ih
  | execute _ hexecuted _ ih => exact List.forall_mem_cons.mpr ⟨hexecuted.error_isSome, ih⟩

/-- After a failure there is none, and otherwise there is one at most. -/
theorem countP_failure_le (hproceeds : Proceeds executors selects failed entries records) :
    records.countP (·.outcome == .failure) ≤ if failed then 0 else 1 := by
  induction hproceeds with
  | nil _ => simp
  | skip _ _ ih => simpa [skippedRecord] using ih
  | @execute _ record _ _ _ _ _ ih =>
      rw [List.countP_cons]
      cases hfailed : record.outcome == .failure with
      | true =>
          simp only [hfailed, if_true] at ih ⊢
          simpa using ih
      | false =>
          simp only [hfailed] at ih ⊢
          simpa using ih

end Proceeds
end Executor

/-! ## The whole job -/

/-- What was done for a job that came to its record: the selected ones of its steps have run, in their
order, up to the first that failed, each with the executor of its place. -/
structure JobRun.UntilFailure (run : JobRun) (executors : Nat → Executor) (job : JobInstance)
    (selects : Step → Bool) (record : JobRecord) : Prop where
  names_eq : record.steps.map StepRecord.name = job.steps.map Step.name
  skipped_iff : ∀ (place : Nat) step own, job.steps[place]? = some step →
    record.steps[place]? = some own → (own.outcome = .skipped ↔ selects step = false ∨
      ∃ earlier ∈ record.steps.take place, earlier.outcome = .failure)
  executed : ∀ (place : Nat) step own, job.steps[place]? = some step →
    record.steps[place]? = some own → own.outcome ≠ .skipped → (executors place).Executed step own
  at_most_one : record.steps.countP (·.outcome == .failure) ≤ 1
  begun_eq : run.begun =
    (Executor.executedSteps job.steps.zipIdx record.steps).map fun entry => entry.1.name
  calls_eq : run.calls =
    (Executor.executedSteps job.steps.zipIdx record.steps).filterMap fun (step, place) =>
      ((executors place).callOf step).toOption
  /-- An executed step has made its call, unless a secret or its directory was missing. -/
  called_iff : ∀ (place : Nat) step own, job.steps[place]? = some step →
    record.steps[place]? = some own → own.outcome ≠ .skipped →
      ((∃ call, (executors place).callOf step = .ok call ∧ call.command = step.command) ↔
        ∀ text, ¬ (executors place).Lacks step text)
  outcome_eq : record.outcome =
    if record.steps.any (·.outcome == .failure) then .failure else .success
  reason_of_failure : ∀ own ∈ record.steps, own.outcome = .failure → own.error = some record.reason
  reason_of_success : (∀ own ∈ record.steps, own.outcome ≠ .failure) → record.reason = ""

namespace Executor

theorem outcome_jobRecord (executor : Executor) (job : JobInstance) (records : List StepRecord) :
    (executor.jobRecord job records).outcome =
      if records.any (·.outcome == .failure) then .failure else .success := by
  rw [← List.isSome_find?]
  rfl

theorem reason_jobRecord_of_success (executor : Executor) (job : JobInstance)
    {records : List StepRecord} (hsuccess : ∀ own ∈ records, own.outcome ≠ .failure) :
    (executor.jobRecord job records).reason = "" := by
  have hnone : records.find? (·.outcome == .failure) = none :=
    List.find?_eq_none.mpr fun own hown => by simpa using hsuccess own hown
  rw [jobRecord, hnone]
  rfl

/-- The reason of a job is the error of the record that failed, if there is only one. -/
theorem error_eq_reason_jobRecord (executor : Executor) (job : JobInstance)
    {records : List StepRecord} (hone : records.countP (·.outcome == .failure) ≤ 1)
    {own : StepRecord} (hown : own ∈ records) (hfailure : own.outcome = .failure)
    (herror : own.error.isSome = true) :
    own.error = some (executor.jobRecord job records).reason := by
  obtain ⟨before, after, rfl⟩ := List.append_of_mem hown
  have hbefore : before.find? (·.outcome == .failure) = none := by
    rw [List.countP_append, List.countP_cons_of_pos (by simp [hfailure])] at hone
    have hnone : before.countP (·.outcome == .failure) = 0 := by omega
    exact List.find?_eq_none.mpr (List.countP_eq_zero.mp hnone)
  obtain ⟨text, htext⟩ := Option.isSome_iff_exists.mp herror
  simp [jobRecord, List.find?_append, hbefore, hfailure, htext]

/-- Selected steps that come to their records make a job that has run up to its first failure. -/
theorem untilFailure_of_runSelected (executor : Executor) {executors : Nat → Executor} {gate : Gate}
    {needs : Gate.NeedOutcomes} {job : JobInstance} {redactor : Redactor}
    (hreturns : ∀ place call, ((executors place).runner call).returns = true)
    (hanswers : ∀ place, ∀ step ∈ job.steps, gate.selects needs step = true →
      (executors place).secrets.Answers step.secrets.values) {records : List StepRecord}
    (hrecords : (runSelected executors gate needs job redactor false 0 job.steps).result =
      .ok records) :
    let run := runSelected executors gate needs job redactor false 0 job.steps
    JobRun.UntilFailure ⟨run.begun, run.calls, run.result.map (executor.jobRecord job)⟩ executors job
      (gate.selects needs) (executor.jobRecord job records) := by
  obtain ⟨hproceeds, hbegun, hcalls⟩ := proceeds_of_runSelected hreturns hanswers hrecords
  have hone : records.countP (·.outcome == .failure) ≤ 1 := hproceeds.countP_failure_le
  have herror : ∀ own ∈ records, own.outcome = .failure → own.error.isSome = true :=
    hproceeds.error_isSome
  have hentry : ∀ {place : Nat} {step : Step}, job.steps[place]? = some step →
      job.steps.zipIdx[place]? = some (step, place) := by
    intro place step hstep
    simp [List.getElem?_zipIdx, hstep]
  refine
    { names_eq := ?_
      skipped_iff := ?_
      executed := fun _ _ _ hstep hown hdone => hproceeds.executed (hentry hstep) hown hdone
      at_most_one := hone
      begun_eq := hbegun
      calls_eq := hcalls
      called_iff := ?_
      outcome_eq := executor.outcome_jobRecord job _
      reason_of_failure := ?_
      reason_of_success := executor.reason_jobRecord_of_success job }
  · rw [← List.zipIdx_map_fst 0 job.steps, List.map_map]
    exact hproceeds.map_name
  · intro place step own hstep hown
    exact (hproceeds.skipped_iff (hentry hstep) hown).trans (by simp [jobRecord])
  · intro place step own hstep hown hdone
    exact (hproceeds.executed (hentry hstep) hown hdone).tells.called_iff
  · intro own hown hfailure
    exact executor.error_eq_reason_jobRecord job hone hown hfailure (herror own hown hfailure)

end Executor

/-- If every command comes back, a job is broken off exactly where looking up one of the secrets of its
selected steps comes to a crash, or else where looking for the directory of its first selected step that
does not succeed does, if that step lacks no secret. Any other job comes to its record. Each step may
meet another system, so steps that are equal may end differently. -/
theorem job_runs_until_failure (executor : Executor) (systems : Nat → System)
    (hreturns : ∀ place call, ((systems place).runner call).returns = true) (gate : Gate)
    (job : JobInstance) (needs : Gate.NeedOutcomes) :
    (∀ abort, (executor.runAmid systems job (gate.selectSteps job needs)).result = .error abort ↔
      ∃ crash, abort = .crashed crash ∧
        (executor.secrets.crashAmong? (gate.secretNames needs job) = some crash ∨
          executor.secrets.Answers (gate.secretNames needs job) ∧
          StopsAt (fun (step, place) => (executor.amid (systems place)).Succeeds step)
            (fun (step, place) => (executor.amid (systems place)).Derails step crash)
            (job.steps.zipIdx.filter fun entry => gate.selects needs entry.1))) ∧
    ∀ record, (executor.runAmid systems job (gate.selectSteps job needs)).result = .ok record →
      (executor.runAmid systems job (gate.selectSteps job needs)).UntilFailure
        (fun place => executor.amid (systems place)) job (gate.selects needs) record := by
  cases hlooked : executor.secrets.crashAmong? (gate.secretNames needs job) with
  | some crash =>
      rw [Executor.runAmid_selectSteps_eq_crash hlooked]
      constructor
      · intro abort
        have hunanswered : ¬ executor.secrets.Answers (gate.secretNames needs job) := by
          rw [← SecretProvider.crashAmong?_eq_none_iff, hlooked]
          simp
        simp [hunanswered, eq_comm]
      · rintro record ⟨⟩
  | none =>
      have hanswers := SecretProvider.crashAmong?_eq_none_iff.mp hlooked
      have hselected : ∀ place : Nat, ∀ step ∈ job.steps, gate.selects needs step = true →
          (executor.amid (systems place)).secrets.Answers step.secrets.values :=
        fun place step hstep hselects => hanswers.mono (Gate.subset_secretNames hstep hselects)
      rw [Executor.runAmid_selectSteps_eq hanswers]
      constructor
      · intro abort
        rw [map_eq_error_iff, Executor.runSelected_eq_error_iff hreturns hselected]
        simp [hanswers]
      · intro record hrecord
        obtain ⟨records, hrecords, rfl⟩ := map_eq_ok_iff.mp hrecord
        exact executor.untilFailure_of_runSelected hreturns hselected hrecords

/-! ## Two small jobs -/

/-- An executor whose commands all end well. -/
def makerExecutor : Executor where
  secrets := .none
  runner := fun _ => .exited 0 "done"
  directories := Workspace.directories { root := [], isDirectory := fun path => path == [] }
  baseEnv := .empty
  now := ⟨0⟩

/-- Systems that wear out: only for the first step the command ends well. -/
def wearingSystem (place : Nat) : System :=
  { makerExecutor.toSystem with
    runner := fun _ => if place = 0 then .exited 0 "done" else .exited 2 "worn out" }

theorem returns_wearingSystem (place : Nat) (call : CommandCall) :
    ((wearingSystem place).runner call).returns = true := by
  change (if place = 0 then CommandResult.exited 0 "done" else .exited 2 "worn out").returns = true
  split <;> rfl

/-- The job of some steps that waits for nothing. -/
def loneJob (steps : List Step) : JobInstance where
  id := ⟨"build", []⟩
  template := { name := "build", steps := steps }
  steps := steps
  env := .empty

/-- Some steps that make the same thing twice, and between would mend what others have broken. -/
def makeTwice : List Step := [
  { name := "make", command := "make" },
  { name := "mend", command := "make mend", condition := some (.status .failure) },
  { name := "make", command := "make" },
  { name := "pack", command := "make pack" }]

/-- The run of a job that waits for nothing, caused by hand. -/
def loneRun (systems : Nat → System) (steps : List Step) : JobRun :=
  makerExecutor.runAmid systems (loneJob steps)
    (Gate.selectSteps ⟨{ kind := .manual, ref := "main" }, false⟩ (loneJob steps) .empty)

/-- Of two equal steps the first succeeds and the second fails. -/
theorem job_runs_until_failure_twice :
    ∃ record, (loneRun wearingSystem makeTwice).result = .ok record ∧
      record.steps.map StepRecord.outcome = [.success, .skipped, .failure, .skipped] ∧
      record.reason = "[build] step 'make' failed (exit=2): command exited with 2" ∧
      (loneRun wearingSystem makeTwice).UntilFailure
        (fun place => makerExecutor.amid (wearingSystem place)) (loneJob makeTwice)
        (Gate.selects ⟨{ kind := .manual, ref := "main" }, false⟩ .empty) record := by
  have hparts : (loneRun wearingSystem makeTwice).result.map
      (fun record => (record.steps.map StepRecord.outcome, record.reason)) =
        .ok ([.success, .skipped, .failure, .skipped],
          "[build] step 'make' failed (exit=2): command exited with 2") := by
    decide +kernel
  obtain ⟨record, hrecord, hboth⟩ := map_eq_ok_iff.mp hparts
  obtain ⟨houtcomes, hreason⟩ := Prod.mk.inj hboth
  exact ⟨record, hrecord, houtcomes, hreason,
    (job_runs_until_failure makerExecutor wearingSystem returns_wearingSystem _ _ _).2 record
      hrecord⟩

/-- A name of so many letters. -/
def lengthyName (length : Nat) : String :=
  String.ofList (List.replicate length 'a')

theorem utf8ByteSize_lengthyName (length : Nat) :
    (lengthyName length).utf8ByteSize = length := by
  induction length with
  | zero => rfl
  | succ length ih =>
      rw [lengthyName] at ih ⊢
      rw [List.replicate_succ', String.ofList_append, String.utf8ByteSize_append, ih]
      rfl

theorem longName_lengthyName {length : Nat} (hlong : Workspace.maxNameLength < length) :
    LongName (lengthyName length) where
  encodable := by
    apply Encoding.rejects_eq_false_of_ascii
    simp only [lengthyName, String.toList_ofList, List.all_replicate]
    split <;> rfl
  not_mem_slash := by simp [lengthyName]
  not_mem_null := by simp [lengthyName]
  lt_size := by rwa [utf8ByteSize_lengthyName]

/-- A step in a directory with a name that no directory can have. -/
def farStep : Step where
  name := "make"
  command := "make"
  cwd := some (lengthyName 256)

theorem derails_farStep :
    makerExecutor.Derails farStep (PathFault.nameTooLong.crash ("/" ++ lengthyName 256)) where
  known := by simp [farStep, Table.values, Table.empty]
  faulty := Executor.faultyDirectory_of_longName (longName_lengthyName (by decide)) rfl rfl rfl rfl

/-- Every command comes back, and yet the job comes to no record. -/
theorem long_directory_breaks_job_off :
    (∀ call, (makerExecutor.runner call).returns = true) ∧
      (loneRun (fun _ => makerExecutor.toSystem)
        [farStep, { name := "pack", command := "make pack" }]).result =
        .error (.crashed (PathFault.nameTooLong.crash ("/" ++ lengthyName 256))) := by
  have hreturns : ∀ call, (makerExecutor.runner call).returns = true := fun _ => rfl
  have hanswers : ∀ names, makerExecutor.secrets.Answers names := SecretProvider.answers_none
  refine ⟨hreturns, ?_⟩
  rw [loneRun, Executor.runAmid_selectSteps_eq (hanswers _), map_eq_error_iff]
  apply (Executor.runSelected_eq_error_iff (fun _ => hreturns) fun _ _ _ _ => hanswers _).mpr
  exact ⟨rfl, _, rfl, [], (farStep, 0), _, rfl, by simp, derails_farStep⟩

end CiPipeline
