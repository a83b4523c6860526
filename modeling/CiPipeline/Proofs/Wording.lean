import CiPipeline.Proofs.Redaction
import CiPipeline.Proofs.Run
import CiPipeline.Proofs.Schedule.Origin

/-!
What a run says of its own: texts made of what the plan declares, of fixed words and of numbers.
Besides these a record holds what was redacted, and in the reason of a crashed job the text of the
crash.
-/

namespace CiPipeline

/-- What the wording of a failed step says before the detail. -/
def StepFailure.line (failure : StepFailure) : String :=
  "[" ++ failure.job ++ "] step " ++ Text.enclosed failure.step ++ " failed (exit=" ++
    (failure.exitCode.map Value.intText).getD "n/a" ++ ")"

theorem StepFailure.message_cases (failure : StepFailure) :
    failure.message = failure.line ∨
      failure.message = failure.line ++ ": " ++ failure.detail := by
  unfold message
  split
  · exact Or.inl rfl
  · exact Or.inr rfl

namespace Plan

/-- A step of the plan may fail in this way, whatever the detail. -/
def MayFail (plan : Plan) (executor : Executor) (failure : StepFailure) : Prop :=
  ∃ job step, plan.graph.job? job.id = some job ∧ step ∈ job.steps ∧ failure.job = job.name ∧
    failure.step = step.name ∧ executor.MayExit step failure.exitCode

/-- The texts that a run shows whatever its commands print: they consist of what the plan declares,
of fixed words and of numbers. -/
inductive Wording (plan : Plan) (settings : Settings) (executor : Executor) : String → Prop
  | jobStart {id : InstanceId} (hid : id ∈ plan.graph.ids) :
      Wording plan settings executor ("\nJOB STARTED: " ++ id.text)
  | stepStart {job : JobInstance} {step : Step} (hjob : plan.graph.job? job.id = some job)
      (hstep : step ∈ job.steps) :
      Wording plan settings executor ("[" ++ job.id.text ++ "] STEP: " ++ step.name)
  | jobEnd {id : InstanceId} (outcome : Outcome) (hid : id ∈ plan.graph.ids) :
      Wording plan settings executor ("JOB " ++ outcome.title ++ ": " ++ id.text)
  | title {job : JobInstance} (hjob : plan.graph.job? job.id = some job) :
      Wording plan settings executor ("Name: " ++ job.title)
  | duration :
      Wording plan settings executor
        ("Duration: " ++ (executor.now.secondsBetween executor.now).tenths ++ "s")
  | stepName {job : JobInstance} {step : Step} (hjob : plan.graph.job? job.id = some job)
      (hstep : step ∈ job.steps) :
      Wording plan settings executor ("--- " ++ step.name ++ " ---")
  | refused {job : JobInstance} {needs : Gate.NeedOutcomes} {refusal : Refusal}
      (hjob : plan.graph.job? job.id = some job)
      (hneeds : ∀ need ∈ needs.keys, need ∈ plan.graph.dependencies job.id)
      (hverdict : Gate.decide ⟨plan.event, settings.cancelledSatisfiesNeeds⟩ job needs =
        .refuse refusal) :
      Wording plan settings executor ("Reason: " ++ refusal.reason)
  | behind {ended : JobRecord} (hended : ended.id ∈ plan.graph.ids) :
      Wording plan settings executor ("Reason: " ++ Scheduler.needEndedReason ended)
  | stopped : Wording plan settings executor "Reason: fail-fast"
  | failure {failure : StepFailure} (hfailure : plan.MayFail executor failure) :
      Wording plan settings executor ("Reason: " ++ failure.line ++ ": ")
  | badDirectory {job : JobInstance} {step : Step} {crash : Crash}
      (hjob : plan.graph.job? job.id = some job) (hstep : step ∈ job.steps)
      (hdirectory : executor.directoryOf step = .error (.crash crash)) :
      Wording plan settings executor ("Reason: " ++ crash.message)

/-! ## What the records of a run hold -/

variable {plan : Plan} {settings : Settings} {executor : Executor} {duration : InstanceId → Nat}
  {scheduler : Scheduler} {log : List Notice} {record : JobRecord} {line : String}

/-- The record is one of a step of the plan and shows redacted texts only. -/
def Redacts (plan : Plan) (executor : Executor) (record : StepRecord) : Prop :=
  ∃ job selected, plan.graph.job? job.id = some job ∧
    record.Redacted executor (executor.redactorFor selected) job

theorem redacts_of_origin (hscheduler : plan.scheduler? settings executor duration = some scheduler)
    (horigin : scheduler.Origin log record) :
    ∀ step ∈ record.steps, plan.Redacts executor step := by
  obtain ⟨hgraph, _, hexecute, _⟩ := of_scheduler?_eq_some hscheduler
  intro step hstep
  cases horigin with
  | @executed job selected _ hjob hresult =>
      rw [hexecute] at hresult
      rw [hgraph] at hjob
      obtain ⟨steps, rfl, hsteps⟩ := Executor.run_redacted hresult
      exact ⟨job, selected, hjob, hsteps step hstep⟩
  | _ => cases hstep

/-- A provider answers for all secrets that steps of the plan ask for. -/
def Answered (plan : Plan) (provider : SecretProvider) : Prop :=
  ∀ job step, plan.graph.job? job.id = some job → step ∈ job.steps →
    provider.Answers step.secrets.values

/-- The steps of a job are not kept from being run by a secret that cannot be looked up. -/
theorem Answered.crash_cases (hanswered : plan.Answered executor.secrets) {job : JobInstance}
    (hjob : plan.graph.job? job.id = some job) {steps : List Selection}
    (hsteps : Scheduler.SelectedOf job steps) {crash : Crash}
    (hcrash : (executor.run job steps).result = .error (.crashed crash)) :
    (∃ call ∈ (executor.run job steps).calls, executor.runner call = .crashed crash) ∨
      ∃ step ∈ job.steps, executor.directoryOf step = .error (.crash crash) := by
  have hselected : executor.secrets.Answers (Selection.secretNames steps) := by
    intro name hname
    obtain ⟨selection, hselection, hname⟩ := List.mem_flatMap.mp hname
    exact hanswered job selection.step hjob (hsteps selection hselection) name hname
  cases Executor.run_crashed hselected hcrash with
  | call hcall hcrash => exact Or.inl ⟨_, hcall, hcrash⟩
  | directory hstep hcrash => exact Or.inr ⟨_, hstep, hcrash⟩
  | secret hstep hname hcrash =>
      obtain ⟨known, hknown⟩ := hanswered job _ hjob hstep _ hname
      cases hknown.symm.trans hcrash

/-- The reason of a record is wording of the plan, the error of a step or the text of a crash. -/
theorem reason_of_origin (hscheduler : plan.scheduler? settings executor duration = some scheduler)
    (hanswered : plan.Answered executor.secrets) (horigin : scheduler.Origin log record)
    (hreason : record.reason ≠ "") :
    plan.Wording settings executor ("Reason: " ++ record.reason) ∨
      (∃ step, plan.Redacts executor step ∧ step.error = some record.reason) ∨
      ∃ call crash, Notice.called call ∈ log ∧ executor.runner call = .crashed crash ∧
        record.reason = crash.message := by
  obtain ⟨hgraph, hgate, hexecute, _⟩ := of_scheduler?_eq_some hscheduler
  have hredacts := redacts_of_origin hscheduler horigin
  cases horigin with
  | executed hjob hresult =>
      rw [hexecute] at hresult
      obtain ⟨steps, rfl, _⟩ := Executor.run_redacted hresult
      rcases Executor.reason_jobRecord executor _ steps with hempty | ⟨step, hstep, herror⟩
      · exact absurd hempty hreason
      · exact Or.inr (Or.inl ⟨step, hredacts step hstep, herror⟩)
  | crashed hjob hsteps hresult hcalls =>
      rw [hexecute] at hresult hcalls
      rw [hgraph] at hjob
      rcases hanswered.crash_cases hjob hsteps hresult with
        ⟨call, hcall, hcrash⟩ | ⟨step, hstep, hdirectory⟩
      · exact Or.inr (Or.inr ⟨call, _, hcalls call hcall, hcrash, rfl⟩)
      · exact Or.inl (.badDirectory hjob hstep hdirectory)
  | refused hjob hneeds hverdict =>
      rw [hgraph] at hjob hneeds
      rw [hgate] at hverdict
      exact Or.inl (.refused hjob hneeds hverdict)
  | behind hended hid => exact Or.inl (.behind (hgraph ▸ hended))
  | stopped hid => exact Or.inl .stopped

theorem title_of_origin (hscheduler : plan.scheduler? settings executor duration = some scheduler)
    (horigin : scheduler.Origin log record) :
    ∃ job, plan.graph.job? job.id = some job ∧ record.title = job.title := by
  obtain ⟨hgraph, _, hexecute, _⟩ := of_scheduler?_eq_some hscheduler
  have htitle : ∀ {id job}, scheduler.graph.job? id = some job →
      ∃ own, plan.graph.job? own.id = some own ∧ scheduler.titleOf id = own.title := by
    intro id job hjob
    refine ⟨job, ?_, by simp [Scheduler.titleOf, hjob]⟩
    rw [← hgraph, Graph.id_of_job? hjob]
    exact hjob
  cases horigin with
  | @executed job _ _ hjob hresult =>
      rw [hexecute] at hresult
      obtain ⟨steps, rfl, _⟩ := Executor.run_redacted hresult
      exact ⟨job, hgraph ▸ hjob, rfl⟩
  | crashed hjob _ _ _ => exact htitle hjob
  | refused hjob _ _ => exact htitle hjob
  | behind _ hid =>
      obtain ⟨job, hjob⟩ := Graph.mem_ids_iff.mp hid
      exact htitle hjob
  | stopped hid =>
      obtain ⟨job, hjob⟩ := Graph.mem_ids_iff.mp hid
      exact htitle hjob

theorem duration_of_origin
    (hscheduler : plan.scheduler? settings executor duration = some scheduler)
    (horigin : scheduler.Origin log record) {seconds : Number.Binary64}
    (hseconds : record.duration = some seconds) :
    seconds = executor.now.secondsBetween executor.now := by
  obtain ⟨_, _, hexecute, _⟩ := of_scheduler?_eq_some hscheduler
  have hnow := now_of_scheduler?_eq_some hscheduler
  cases horigin with
  | executed hjob hresult =>
      rw [hexecute] at hresult
      obtain ⟨steps, rfl, _⟩ := Executor.run_redacted hresult
      cases hseconds
      rfl
  | refused _ _ _ =>
      cases hseconds
      rw [hnow]
  | _ => cases hseconds

/-- What is shown of the work of a worker is wording of the plan. -/
theorem wording_of_launch
    (hscheduler : plan.scheduler? settings executor duration = some scheduler) {launch : Launch}
    (hjob : scheduler.graph.job? launch.job.id = some launch.job) {notice : Notice}
    (hnotice : notice ∈ scheduler.launchNotices launch) {console : Console} {showSteps : Bool}
    (hline : line ∈ (console.notice showSteps notice).out) :
    plan.Wording settings executor line := by
  obtain ⟨hgraph, _, hexecute, _⟩ := of_scheduler?_eq_some hscheduler
  rw [hgraph] at hjob
  simp only [Scheduler.launchNotices, Scheduler.workNotices, hexecute, List.mem_cons,
    List.mem_append, List.mem_map] at hnotice
  rcases hnotice with rfl | ⟨name, hname, rfl⟩ | ⟨call, _, rfl⟩
  · rw [List.mem_singleton.mp hline]
    exact .jobStart (Graph.mem_ids_iff.mpr ⟨_, hjob⟩)
  · cases showSteps with
    | false => cases hline
    | true =>
        obtain ⟨step, hstep, rfl⟩ := Executor.exists_step_of_mem_begun hname
        rw [List.mem_singleton.mp hline]
        exact .stepStart hjob hstep
  · cases hline

end Plan
end CiPipeline
