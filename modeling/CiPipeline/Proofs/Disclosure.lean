import CiPipeline.Proofs.Completion
import CiPipeline.Proofs.Console
import CiPipeline.Proofs.Wording
import Mathlib

/-!
Where a run shows the value of a secret. What a run shows is its own wording, what was redacted, or
the text of a crash, which nothing redacts. So a value that the wording does not hold is shown in the
reason of a crashed job only, or where it stands across the place at which redacted text follows the
wording.
-/

namespace CiPipeline

/-- A text is the message of a failed step, and the value stands across the start of its detail,
which does not hold it. -/
def Plan.Straddles (plan : Plan) (executor : Executor) (value text : String) : Prop :=
  ∃ failure, plan.MayFail executor failure ∧ text = failure.message ∧
    ¬ Text.Occurs value failure.detail ∧
    Text.Across value ("Reason: " ++ failure.line ++ ": ") failure.detail

/-- A text is that of a crash of one of the calls. -/
def Executor.CrashText (executor : Executor) (calls : List CommandCall) (text : String) : Prop :=
  ∃ call ∈ calls, ∃ crash, executor.runner call = .crashed crash ∧ text = crash.message

/-- A run shows a value in errors of steps only across the start of a detail, in reasons only so or
as the text of a crash, and on the console only in the line about the event and in those reasons. -/
structure RunResult.Discloses (result : RunResult) (plan : Plan) (executor : Executor)
    (value : String) : Prop where
  errors : ∀ report, result.report = .ok report → ∀ record ∈ report.jobs.values,
    ∀ step ∈ record.steps, ∀ error, step.error = some error → Text.Occurs value error →
      plan.Straddles executor value error
  reasons : ∀ report, result.report = .ok report → ∀ record ∈ report.jobs.values,
    Text.Occurs value record.reason →
      plan.Straddles executor value record.reason ∨
        executor.CrashText result.calls record.reason
  lines : ∀ (console : Console) (showSteps : Bool), (result.printed console showSteps).Shows value →
    (∃ decision line, result.decision = some decision ∧
      line ∈ (Console.trigger decision.runs decision.reason).out ∧ Text.Occurs value line) ∨
    ∃ record, Notice.recorded record ∈ result.log ∧
      Text.Occurs value ("Reason: " ++ record.reason) ∧
      (plan.Straddles executor value record.reason ∨
        executor.CrashText result.calls record.reason)

/-! ## What of a masked value is left -/

namespace Plan

/-- A value that every job masks, and that no wording of the plan holds. -/
structure Hides (plan : Plan) (settings : Settings) (executor : Executor) (value : String) :
    Prop where
  ne_empty : value ≠ ""
  no_star : '*' ∉ value.toList
  masked : ∀ selected, value ∈ (executor.redactorFor selected).values
  foreign : ∀ text, plan.Wording settings executor text → ¬ Text.Occurs value text

namespace Hides

variable {plan : Plan} {settings : Settings} {executor : Executor} {duration : InstanceId → Nat}
  {scheduler : Scheduler} {log : List Notice} {record : JobRecord} {value line : String}

theorem not_occurs_empty (hhides : plan.Hides settings executor value) :
    ¬ Text.Occurs value "" := by
  intro hoccurs
  exact hhides.ne_empty (String.toList_eq_nil_iff.mp (List.infix_nil.mp hoccurs))

theorem not_occurs_redact (hhides : plan.Hides settings executor value)
    (selected : List Selection) (text : String) :
    ¬ Text.Occurs value ((executor.redactorFor selected).redact text) :=
  Redactor.not_occurs_redact (hhides.masked selected) hhides.no_star hhides.ne_empty text

theorem not_occurs_output (hhides : plan.Hides settings executor value) {step : StepRecord}
    (hstep : plan.Redacts executor step) : ¬ Text.Occurs value step.output := by
  obtain ⟨job, selected, _, hredacted⟩ := hstep
  intro hoccurs
  rcases hredacted.output_eq with hempty | ⟨text, houtput⟩
  · exact hhides.not_occurs_empty (hempty ▸ hoccurs)
  · rw [houtput] at hoccurs
    exact hhides.not_occurs_redact selected text
      (hoccurs.trans (trimToLimit_suffix _ _).isInfix)

/-- In the message of a failure the value stands across the start of the detail, if at all. -/
theorem straddles_of_message (hhides : plan.Hides settings executor value) {failure : StepFailure}
    (hfails : plan.MayFail executor failure) (hdetail : ¬ Text.Occurs value failure.detail)
    (hoccurs : Text.Occurs value ("Reason: " ++ failure.message)) :
    plan.Straddles executor value failure.message := by
  have hforeign := hhides.foreign _ (.failure hfails)
  refine ⟨failure, hfails, rfl, hdetail, ?_⟩
  rcases failure.message_cases with hmessage | hmessage
  · rw [hmessage] at hoccurs
    exact absurd (Text.occurs_append_iff.mpr (Or.inl hoccurs)) hforeign
  · -- the detail is redacted by itself, so the value can arise only where it is put behind the line
    rw [hmessage, ← String.append_assoc, ← String.append_assoc] at hoccurs
    rcases Text.occurs_append_iff.mp hoccurs with hlead | hrest | hacross
    · exact absurd hlead hforeign
    · exact absurd hrest hdetail
    · exact hacross

theorem straddles_of_error (hhides : plan.Hides settings executor value) {step : StepRecord}
    (hstep : plan.Redacts executor step) {error : String} (herror : step.error = some error)
    (hoccurs : Text.Occurs value ("Reason: " ++ error)) : plan.Straddles executor value error := by
  obtain ⟨job, selected, hjob, hredacted⟩ := hstep
  obtain ⟨declared, hdeclared, code, text, hcode, rfl⟩ := hredacted.error_eq error herror
  exact hhides.straddles_of_message ⟨job, declared, hjob, hdeclared, rfl, rfl, hcode⟩
    (hhides.not_occurs_redact selected text) hoccurs

/-- In the reason of a record the value stands across the start of a detail or in the text of a
crash, if at all. -/
theorem exposed_of_reason (hhides : plan.Hides settings executor value)
    (hscheduler : plan.scheduler? settings executor duration = some scheduler)
    (hanswered : plan.Answered executor.secrets) (horigin : scheduler.Origin log record)
    (hreason : record.reason ≠ "")
    (hoccurs : Text.Occurs value ("Reason: " ++ record.reason)) :
    plan.Straddles executor value record.reason ∨
      ∃ call crash, Notice.called call ∈ log ∧ executor.runner call = .crashed crash ∧
        record.reason = crash.message := by
  rcases reason_of_origin hscheduler hanswered horigin hreason with
    hwording | ⟨step, hstep, herror⟩ | hcrash
  · exact absurd hoccurs (hhides.foreign _ hwording)
  · exact Or.inl (hhides.straddles_of_error hstep herror hoccurs)
  · exact Or.inr hcrash

/-- Of the lines about the end of a job the value stands in the reason only. -/
theorem reason_of_resultLine (hhides : plan.Hides settings executor value)
    (hscheduler : plan.scheduler? settings executor duration = some scheduler)
    (horigin : scheduler.Origin log record) (hid : record.id ∈ plan.graph.ids) {console : Console}
    (hline : console.ResultLine record line) (hend : '\n' ∉ value.toList)
    (hoccurs : Text.Occurs value line) :
    record.reason ≠ "" ∧ Text.Occurs value ("Reason: " ++ record.reason) := by
  cases hline with
  | outcome => exact absurd hoccurs (hhides.foreign _ (.jobEnd record.outcome hid))
  | title =>
      obtain ⟨job, hjob, htitle⟩ := title_of_origin hscheduler horigin
      rw [htitle] at hoccurs
      exact absurd hoccurs (hhides.foreign _ (.title hjob))
  | reason hreason => exact ⟨hreason, hoccurs⟩
  | duration hseconds =>
      rw [duration_of_origin hscheduler horigin hseconds] at hoccurs
      exact absurd hoccurs (hhides.foreign _ .duration)
  | stepName hstep =>
      obtain ⟨job, selected, hjob, hredacted⟩ := redacts_of_origin hscheduler horigin _ hstep
      obtain ⟨declared, hdeclared, hname⟩ := hredacted.name_eq
      rw [← hname] at hoccurs
      exact absurd hoccurs (hhides.foreign _ (.stepName hjob hdeclared))
  | stepOutput hstep =>
      have houtput := Console.occurs_of_trimEnd hoccurs
      have hredacts := redacts_of_origin hscheduler horigin _ hstep
      split at houtput
      · exact absurd houtput (hhides.not_occurs_output hredacts)
      · exact absurd (Console.occurs_of_tailOf hend hhides.ne_empty houtput)
          (hhides.not_occurs_output hredacts)

end Hides
end Plan

/-! ## What a run shows -/

section Run

variable {plan : Plan} {settings : Settings} {executor : Executor} {duration : InstanceId → Nat}
  {scheduler : Scheduler} {last : RunState} {value line : String} {result : RunResult}

/-- What is printed besides the line about the event comes from the log. -/
theorem RunResult.line_cases {console : Console} {showSteps : Bool}
    (hline : line ∈ (result.printed console showSteps).out ∨
      line ∈ (result.printed console showSteps).err) :
    (∃ decision, result.decision = some decision ∧
      line ∈ (Console.trigger decision.runs decision.reason).out) ∨
    ∃ notice ∈ result.log, line ∈ (console.notice showSteps notice).out := by
  simp only [printed, Printed.out_append, Printed.err_append, Console.err_notices, List.mem_append,
    Console.mem_out_notices_iff, List.not_mem_nil, or_false] at hline
  cases hdecision : result.decision with
  | none => simpa [hdecision] using hline
  | some decision =>
      simp only [hdecision] at hline
      rcases hline with (hout | hnotice) | herr
      · exact Or.inl ⟨decision, rfl, hout⟩
      · exact Or.inr hnotice
      · cases herr

theorem RunResult.mem_calls_iff {call : CommandCall} :
    call ∈ result.calls ↔ Notice.called call ∈ result.log := by
  rw [calls, List.mem_filterMap]
  constructor
  · rintro ⟨notice, hnotice, hcall⟩
    cases notice with
    | called own =>
        cases hcall
        exact hnotice
    | _ => cases hcall
  · intro hnotice
    exact ⟨_, hnotice, rfl⟩

/-- A notice shows the value in the reason of a record only. -/
theorem Plan.Hides.reason_of_notice (hhides : plan.Hides settings executor value)
    (hwellFormed : scheduler.graph.WellFormed) (hown : OwnRecords scheduler.execute)
    (hscheduler : plan.scheduler? settings executor duration = some scheduler)
    (hsteps : scheduler.Steps scheduler.initial last) {notice : Notice}
    (hnotice : notice ∈ last.log) {console : Console} {showSteps : Bool}
    (hline : line ∈ (console.notice showSteps notice).out) (hend : '\n' ∉ value.toList)
    (hoccurs : Text.Occurs value line) :
    ∃ record, notice = .recorded record ∧ record.reason ≠ "" ∧
      Text.Occurs value ("Reason: " ++ record.reason) := by
  by_cases hwork : notice.isWork = true
  · obtain ⟨launch, hjob, hlaunch⟩ :=
      Scheduler.Steps.work_of_mem hwellFormed hown hsteps hnotice hwork
    have hwording := Plan.wording_of_launch hscheduler hjob hlaunch hline
    exact absurd hoccurs (hhides.foreign line hwording)
  · cases notice with
    | recorded record =>
        have horigin := (Scheduler.Steps.traced hwellFormed hown hsteps).recorded record hnotice
        have hid := (Plan.of_scheduler?_eq_some hscheduler).1 ▸ horigin.id_mem hown
        exact ⟨record, rfl, hhides.reason_of_resultLine hscheduler horigin hid
          (Console.resultLine_of_mem hline) hend hoccurs⟩
    | finished id time => cases hline
    | _ => exact absurd rfl hwork

theorem RunResult.discloses_of_steps (hhides : plan.Hides settings executor value)
    (hwellFormed : plan.graph.WellFormed) (hanswered : plan.Answered executor.secrets)
    (hscheduler : plan.scheduler? settings executor duration = some scheduler)
    (hsteps : scheduler.Steps scheduler.initial last) (hlog : result.log = last.log)
    (hjobs : ∀ report, result.report = .ok report → ∀ record ∈ report.jobs.values,
      Notice.recorded record ∈ last.log) :
    result.Discloses plan executor value := by
  obtain ⟨hgraph, _, hexecute, _⟩ := Plan.of_scheduler?_eq_some hscheduler
  rw [← hgraph] at hwellFormed
  have hown : OwnRecords scheduler.execute := hexecute ▸ Executor.run_ownRecords _
  have htraced := (Scheduler.Steps.traced hwellFormed hown hsteps).recorded
  have hexposed : ∀ record, Notice.recorded record ∈ last.log → record.reason ≠ "" →
      Text.Occurs value ("Reason: " ++ record.reason) →
        plan.Straddles executor value record.reason ∨
          executor.CrashText result.calls record.reason := by
    intro record hrecord hreason hoccurs
    have hcases :=
      hhides.exposed_of_reason hscheduler hanswered (htraced record hrecord) hreason hoccurs
    refine hcases.imp_right ?_
    rintro ⟨call, crash, hcall, hcrash, htext⟩
    exact ⟨call, RunResult.mem_calls_iff.mpr (hlog ▸ hcall), crash, hcrash, htext⟩
  constructor
  · intro report hreport record hrecord step hstep error herror hoccurs
    have hredacts := Plan.redacts_of_origin hscheduler
      (htraced record (hjobs report hreport record hrecord)) step hstep
    exact hhides.straddles_of_error hredacts herror (hoccurs.append_left _)
  · intro report hreport record hrecord hoccurs
    refine hexposed record (hjobs report hreport record hrecord) ?_ (hoccurs.append_left _)
    intro hempty
    exact hhides.not_occurs_empty (hempty ▸ hoccurs)
  · intro console showSteps hshows
    obtain ⟨line, hline, hoccurs⟩ := hshows.exists_line hhides.ne_empty
    rcases RunResult.line_cases hline with ⟨decision, hdecision, hline⟩ | ⟨notice, hnotice, hline⟩
    · exact Or.inl ⟨decision, line, hdecision, hline, hoccurs⟩
    · rw [hlog] at hnotice
      obtain ⟨record, rfl, hreason, hoccurs⟩ := hhides.reason_of_notice hwellFormed hown hscheduler
        hsteps hnotice hline hshows.1 hoccurs
      exact Or.inr ⟨record, hlog ▸ hnotice, hoccurs, hexposed record hnotice hreason hoccurs⟩

/-- Where nothing was started only the decision is shown. -/
theorem RunResult.discloses_of_quiet (hvalue : value ≠ "") (hlog : result.log = [])
    (hjobs : ∀ report, result.report = .ok report → report.jobs.values = []) :
    result.Discloses plan executor value := by
  constructor
  · intro report hreport record hrecord
    rw [hjobs report hreport] at hrecord
    cases hrecord
  · intro report hreport record hrecord
    rw [hjobs report hreport] at hrecord
    cases hrecord
  · intro console showSteps hshows
    obtain ⟨line, hline, hoccurs⟩ := hshows.exists_line hvalue
    rcases RunResult.line_cases hline with ⟨decision, hdecision, hline⟩ | ⟨notice, hnotice, _⟩
    · exact Or.inl ⟨decision, line, hdecision, hline, hoccurs⟩
    · rw [hlog] at hnotice
      cases hnotice

end Run

/-! ## Every run -/

section Pipeline

variable {pipeline : Pipeline} {event : Event} {plan : Plan}

variable {settings : Settings} {executor : Executor} {duration : InstanceId → Nat} {value : String}
  {result : RunResult}

theorem Pipeline.Leaves.discloses (hplan : Plan.ofPipeline pipeline event = .ok plan)
    (hhides : plan.Hides settings (executor.guarding pipeline.secretNames) value)
    (hleaves : pipeline.Leaves event settings executor duration result) :
    result.Discloses plan (executor.guarding pipeline.secretNames) value := by
  cases hleaves with
  | nothing hlog hjobs =>
      apply RunResult.discloses_of_quiet hhides.ne_empty hlog
      intro report hreport
      rw [hjobs report hreport]
      rfl
  | @work own scheduler last hsame hanswers hscheduler hsteps hlog hjobs =>
      cases hplan.symm.trans hsame
      obtain ⟨hgraph, hown⟩ := Plan.lawful_of_scheduler?_eq_some hplan hscheduler
      have hanswered : plan.Answered executor.secrets := fun job step hjob hstep =>
        Pipeline.answers_of_mem_instances hanswers (Plan.mem_instances_of_job? hplan hjob) hstep
      apply RunResult.discloses_of_steps hhides (Plan.wellFormed_of_ofPipeline hplan) hanswered
        hscheduler hsteps hlog
      intro report hreport record hrecord
      obtain ⟨hends, hrecords⟩ := hjobs report hreport
      rw [hrecords] at hrecord
      exact hends.recorded_of_ordered hgraph hown hrecord

theorem Pipeline.Yields.discloses (hplan : Plan.ofPipeline pipeline event = .ok plan)
    (hhides : plan.Hides settings (executor.guarding pipeline.secretNames) value)
    {log : List Notice} {report : RunReport}
    (hyields : pipeline.Yields event settings executor duration log report) :
    RunResult.Discloses { decision := some plan.decision, log := log, report := .ok report } plan
      (executor.guarding pipeline.secretNames) value :=
  (hyields.leaves rfl rfl).discloses hplan hhides

theorem Pipeline.run_discloses (hplan : Plan.ofPipeline pipeline event = .ok plan)
    (hhides : plan.Hides settings (executor.guarding pipeline.secretNames) value) :
    (pipeline.run event settings executor duration).Discloses plan
      (executor.guarding pipeline.secretNames) value :=
  (Pipeline.run_leaves pipeline event settings executor duration).discloses hplan hhides

theorem Pipeline.decision_run (hplan : Plan.ofPipeline pipeline event = .ok plan) :
    (pipeline.run event settings executor duration).decision = some plan.decision := by
  simp only [Pipeline.run, hplan]
  split
  · unfold Plan.carryOut
    split
    · rfl
    · unfold Plan.carryOutGuarded
      split
      · rfl
      · split <;> rfl
  · rfl

/-- A secret is shown only where redaction does not reach. Of the value of any declared secret that
is not empty, has no star and does not occur in the wording of the run, every run shows nothing in
errors of steps but across the start of a detail, nothing in reasons but so or in the text of a crash,
and on the console nothing but that and the line about the event. -/
theorem secrets_shown_only_beyond_redaction
    (hplan : Plan.ofPipeline pipeline event = .ok plan) (settings : Settings) (executor : Executor)
    (duration : InstanceId → Nat) {name : String}
    (hdeclared : ∃ job ∈ pipeline.jobs, ∃ step ∈ job.steps, name ∈ step.secrets.values)
    (hknown : executor.secrets.value? name = some value) (hvalue : value ≠ "")
    (hstar : '*' ∉ value.toList)
    (hforeign : ∀ text, plan.Wording settings (executor.guarding pipeline.secretNames) text →
      ¬ Text.Occurs value text) :
    (pipeline.run event settings executor duration).Discloses plan
        (executor.guarding pipeline.secretNames) value ∧
      ∀ log report, pipeline.Yields event settings executor duration log report →
        RunResult.Discloses { decision := some plan.decision, log := log, report := .ok report } plan
          (executor.guarding pipeline.secretNames) value := by
  have hname : name ∈ pipeline.secretNames := Pipeline.mem_secretNames_iff.mpr hdeclared
  have hhides : plan.Hides settings (executor.guarding pipeline.secretNames) value :=
    { ne_empty := hvalue
      no_star := hstar
      masked := Executor.mem_redactorFor_guarding hname hknown hvalue
      foreign := hforeign }
  exact ⟨Pipeline.run_discloses hplan hhides,
    fun log report hyields => hyields.discloses hplan hhides⟩

end Pipeline

/-! ## A run with a token -/

/-- A step that is given a token. -/
def tokenStep : Step where
  name := "push"
  command := "push"
  secrets := .ofList [("TOKEN", "DEPLOY_TOKEN")]

/-- A job of this step alone. -/
def tokenJob : JobInstance where
  id := ⟨"deploy", []⟩
  template := { name := "deploy", steps := [tokenStep] }
  steps := [tokenStep]
  env := .empty

/-- A pipeline of this job alone. -/
def tokenPipeline : Pipeline where
  name := "release"
  triggers := { manual := true }
  jobs := [tokenJob.template]

/-- The plan of this pipeline for an event that someone caused by hand. -/
def tokenPlan : Plan where
  pipeline := tokenPipeline
  event := { kind := .manual, ref := "main" }
  decision := .manualEnabled
  graph := { nodes := [⟨tokenJob, []⟩] }

/-- An executor that knows the token, and whose commands all come to one result. -/
def tokenExecutor (result : CommandResult) : Executor where
  secrets := fun name => .ok (if name = "DEPLOY_TOKEN" then some "%S3CRET" else none)
  runner := fun _ => result
  directories := Workspace.directories { root := [], isDirectory := fun _ => true }
  baseEnv := .empty
  now := ⟨0⟩

/-- The run of this pipeline whose command comes to a result. -/
def tokenRun (result : CommandResult) : RunResult :=
  tokenPipeline.run tokenPlan.event {} (tokenExecutor result) fun _ => 1

section Token

variable {result : CommandResult}

theorem ofPipeline_tokenPipeline :
    Plan.ofPipeline tokenPipeline tokenPlan.event = .ok tokenPlan := by
  cbv

theorem ids_tokenPlan : tokenPlan.graph.ids = [⟨"deploy", []⟩] := rfl

theorem eq_tokenJob {id : InstanceId} {job : JobInstance}
    (hjob : tokenPlan.graph.job? id = some job) : job = tokenJob := by
  have hid := Graph.mem_ids_iff.mpr ⟨_, hjob⟩
  rw [ids_tokenPlan, List.mem_singleton] at hid
  have hown : tokenPlan.graph.job? ⟨"deploy", []⟩ = some tokenJob := by cbv
  rw [hid, hown] at hjob
  exact (Option.some.inj hjob).symm

theorem directoryOf_tokenStep :
    ((tokenExecutor result).guarding tokenPipeline.secretNames).directoryOf tokenStep =
      .ok "/" := by
  cbv

/-- The gate lets a job pass that waits for nothing. -/
theorem decide_tokenJob {needs : Gate.NeedOutcomes} (hneeds : needs.keys = []) :
    (Gate.decide ⟨tokenPlan.event, false⟩ tokenJob needs).isPermitted = true := by
  obtain ⟨entries, hnodup⟩ := needs
  cases List.map_eq_nil_iff.mp hneeds
  cbv

/-- No wording of the plan has the first character of the token. -/
theorem not_mem_wording (hresult : ∀ code output, result ≠ .exited code output) {text : String}
    (hwording : tokenPlan.Wording {}
      ((tokenExecutor result).guarding tokenPipeline.secretNames) text) : '%' ∉ text.toList := by
  cases hwording with
  | jobStart hid =>
      cases List.mem_singleton.mp (ids_tokenPlan ▸ hid)
      decide
  | stepStart hjob hstep =>
      cases eq_tokenJob hjob
      cases List.mem_singleton.mp hstep
      decide
  | jobEnd outcome hid =>
      cases List.mem_singleton.mp (ids_tokenPlan ▸ hid)
      cases outcome <;> decide
  | title hjob =>
      cases eq_tokenJob hjob
      decide
  | duration =>
      have htenths : ((⟨0⟩ : Timestamp).secondsBetween ⟨0⟩).tenths = "0.0" := by decide +kernel
      change '%' ∉ ("Duration: " ++ ((⟨0⟩ : Timestamp).secondsBetween ⟨0⟩).tenths ++ "s").toList
      rw [htenths]
      decide
  | stepName hjob hstep =>
      cases eq_tokenJob hjob
      cases List.mem_singleton.mp hstep
      decide
  | refused hjob hneeds hverdict =>
      cases eq_tokenJob hjob
      have hpermitted := decide_tokenJob (List.eq_nil_iff_forall_not_mem.mpr fun need hneed =>
        List.not_mem_nil (hneeds need hneed))
      rw [hverdict] at hpermitted
      cases hpermitted
  | @behind ended hended =>
      rw [ids_tokenPlan, List.mem_singleton] at hended
      rw [Scheduler.needEndedReason, hended]
      cases ended.outcome <;> decide
  | stopped => decide
  | failure hfailure =>
      obtain ⟨job, step, hjob, hstep, hname, hstepName, hcode⟩ := hfailure
      cases eq_tokenJob hjob
      cases List.mem_singleton.mp hstep
      rw [StepFailure.line, hname, hstepName]
      generalize StepFailure.exitCode _ = code at *
      cases hcode with
      | withoutStatus => decide
      | timedOut => decide
      | exited _ hexited => exact absurd hexited (hresult _ _)
  | badDirectory hjob hstep hdirectory =>
      cases eq_tokenJob hjob
      cases List.mem_singleton.mp hstep
      rw [directoryOf_tokenStep] at hdirectory
      cases hdirectory

theorem token_foreign (result : CommandResult)
    (hresult : ∀ code output, result ≠ .exited code output) (text : String)
    (hwording : tokenPlan.Wording {}
      ((tokenExecutor result).guarding tokenPipeline.secretNames) text) :
    ¬ Text.Occurs "%S3CRET" text := by
  intro hoccurs
  exact not_mem_wording hresult hwording (hoccurs.subset (by decide))

theorem token_declared :
    ∃ job ∈ tokenPipeline.jobs, ∃ step ∈ job.steps, "DEPLOY_TOKEN" ∈ step.secrets.values :=
  ⟨tokenJob.template, by decide, tokenStep, by decide, by decide⟩

/-- The token has a first character that no lead of a detail has, so it never stands across one. -/
theorem not_straddles_token (hresult : ∀ code output, result ≠ .exited code output) (text : String) :
    ¬ tokenPlan.Straddles ((tokenExecutor result).guarding tokenPipeline.secretNames) "%S3CRET"
      text := by
  rintro ⟨failure, hfails, _, _, front, back, hfront, _, hvalue, hsuffix, _⟩
  cases front with
  | nil => exact hfront rfl
  | cons c rest =>
      have hfirst : '%' = c := (List.cons.inj hvalue).1
      have hmem := hsuffix.subset (List.mem_cons_self (a := c) (l := rest))
      exact not_mem_wording hresult (.failure hfails) (hfirst ▸ hmem)

/-- A command that runs out of time after it has printed the token. -/
def tokenTimeout : CommandResult :=
  .timedOut (.text "no answer to %S3CRET")

/-- A token that was printed before the time ran out is not shown, however much the console shows. -/
theorem secrets_shown_only_beyond_redaction_token :
    ¬ ((tokenRun tokenTimeout).printed { debug := true, showOutput := true } true).Shows
      "%S3CRET" := by
  have hresult : ∀ code output, tokenTimeout ≠ .exited code output := by simp [tokenTimeout]
  have hdiscloses := (secrets_shown_only_beyond_redaction ofPipeline_tokenPipeline {}
    (tokenExecutor tokenTimeout) (fun _ => 1) token_declared rfl (by decide) (by decide)
    (token_foreign tokenTimeout hresult)).1
  intro hshows
  rcases hdiscloses.lines _ _ hshows with
    ⟨decision, line, hdecision, hline, hoccurs⟩ | ⟨record, _, _, hstraddles | hcrash⟩
  · cases (Pipeline.decision_run ofPipeline_tokenPipeline).symm.trans hdecision
    rw [List.mem_singleton.mp hline] at hoccurs
    revert hoccurs
    decide
  · exact not_straddles_token hresult _ hstraddles
  · obtain ⟨_, _, _, ⟨⟩, _⟩ := hcrash

/-- A command that crashes with the token in its text. -/
def tokenCrash : CommandResult :=
  .crashed ⟨"RuntimeError", "no login with %S3CRET"⟩

theorem reasons_tokenCrash :
    (tokenRun tokenCrash).report.map (fun report => report.jobs.values.map JobRecord.reason) =
      .ok ["RuntimeError: no login with %S3CRET"] := by
  cbv

theorem out_tokenCrash :
    ((tokenRun tokenCrash).printed {} true).out =
      ["TRIGGER: run (manual runs enabled)", "\nJOB STARTED: deploy", "[deploy] STEP: push",
        "JOB FAILURE: deploy", "Reason: RuntimeError: no login with %S3CRET"] := by
  cbv

/-- The text of a crash comes into the reason of the job and onto the console as it is, so a token
of which it tells is shown, though it is declared and no wording holds it. -/
theorem crash_shows_token :
    (∃ job ∈ tokenPipeline.jobs, ∃ step ∈ job.steps, "DEPLOY_TOKEN" ∈ step.secrets.values) ∧
      (tokenExecutor tokenCrash).secrets.value? "DEPLOY_TOKEN" = some "%S3CRET" ∧
      (∀ text, tokenPlan.Wording {} ((tokenExecutor tokenCrash).guarding tokenPipeline.secretNames)
        text → ¬ Text.Occurs "%S3CRET" text) ∧
      (∃ report, (tokenRun tokenCrash).report = .ok report ∧
        ∃ record ∈ report.jobs.values, Text.Occurs "%S3CRET" record.reason) ∧
      ((tokenRun tokenCrash).printed {} true).Shows "%S3CRET" := by
  have hforeign := token_foreign tokenCrash (by simp [tokenCrash])
  refine ⟨token_declared, rfl, hforeign, ?_, by decide, Or.inl ?_⟩
  · obtain ⟨report, hreport, hreasons⟩ := map_eq_ok_iff.mp reasons_tokenCrash
    have hmem : "RuntimeError: no login with %S3CRET" ∈
        report.jobs.values.map JobRecord.reason := by
      rw [hreasons]
      exact List.mem_singleton_self _
    obtain ⟨record, hrecord, hreason⟩ := List.mem_map.mp hmem
    refine ⟨report, hreport, record, hrecord, ?_⟩
    rw [hreason]
    decide
  · have hline : "Reason: RuntimeError: no login with %S3CRET" ∈
        ((tokenRun tokenCrash).printed {} true).out := by
      rw [out_tokenCrash]
      decide
    exact Printed.occurs_textOf_of_mem hline (by decide)

end Token
end CiPipeline
