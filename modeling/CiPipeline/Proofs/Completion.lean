import CiPipeline.Proofs.Matrix
import CiPipeline.Proofs.Run
import CiPipeline.Proofs.Schedule.Termination

/-!
What becomes of a run as a whole. A declaration that cannot be planned ends it before anything is
done; else it comes to a report, which is empty if the event starts nothing, and which lists all
instances in the order of their declaration if it does, in whatever order they were done.
-/

namespace CiPipeline

variable {pipeline : Pipeline} {event : Event} {plan : Plan}

/-! ## The instances of a plan -/

namespace Plan

theorem exists_jobs_of_ofPipeline (hplan : Plan.ofPipeline pipeline event = .ok plan) :
    ∃ jobs, Matrix.expandAll pipeline.jobs = .ok jobs ∧ Graph.build jobs = .ok plan.graph := by
  simp only [ofPipeline] at hplan
  obtain ⟨_, _, hplan⟩ := bind_eq_ok_iff.mp hplan
  obtain ⟨jobs, hjobs, hplan⟩ := bind_eq_ok_iff.mp hplan
  obtain ⟨graph, hbuild, hplan⟩ := bind_eq_ok_iff.mp hplan
  cases hplan
  exact ⟨jobs, hjobs, hbuild⟩

/-- The graph of a plan has the instances of the jobs, in the order of their expansion. -/
theorem jobs_of_ofPipeline (hplan : Plan.ofPipeline pipeline event = .ok plan) :
    plan.graph.nodes.map GraphNode.job = Matrix.instances pipeline.jobs := by
  obtain ⟨jobs, hjobs, hbuild⟩ := exists_jobs_of_ofPipeline hplan
  rw [Graph.jobs_of_build hbuild, Matrix.eq_instances_of_expandAll hjobs]

theorem ids_of_ofPipeline (hplan : Plan.ofPipeline pipeline event = .ok plan) :
    plan.graph.ids = (Matrix.instances pipeline.jobs).map JobInstance.id := by
  rw [← jobs_of_ofPipeline hplan, List.map_map]
  rfl

theorem mem_instances_of_job? (hplan : Plan.ofPipeline pipeline event = .ok plan) {job : JobInstance}
    (hjob : plan.graph.job? job.id = some job) : job ∈ Matrix.instances pipeline.jobs := by
  rw [← jobs_of_ofPipeline hplan]
  exact Graph.mem_jobs_of_job? hjob

end Plan

/-- Where the secrets of a pipeline can be looked up, so can those of each step of its instances. -/
theorem Pipeline.answers_of_mem_instances {provider : SecretProvider}
    (hanswers : provider.Answers pipeline.secretNames) {job : JobInstance}
    (hjob : job ∈ Matrix.instances pipeline.jobs) {step : Step} (hstep : step ∈ job.steps) :
    provider.Answers step.secrets.values := by
  obtain ⟨template, htemplate, coordinate, _, rfl⟩ := Matrix.mem_instances_iff.mp hjob
  obtain ⟨declared, hdeclared, rfl⟩ := List.mem_map.mp hstep
  apply hanswers.mono
  intro name hname
  exact Pipeline.mem_secretNames_iff.mpr ⟨template, htemplate, declared, hdeclared, hname⟩

/-! ## The report of a run -/

/-- Everything has ended, so the books of the run are complete. -/
theorem Scheduler.Ends.complete {scheduler : Scheduler} {last : RunState}
    (hends : scheduler.Ends last) (hgraph : scheduler.graph.WellFormed)
    (hown : OwnRecords scheduler.execute) : scheduler.Complete last :=
  (Steps.coherent_of_initial hgraph hown hends.1).complete hgraph hends.2

theorem RunResult.calls_eq_nil {result : RunResult} (hlog : result.log = []) :
    result.calls = [] := by
  rw [calls, hlog, List.filterMap_nil]

/-- A run of a plan comes to this report. -/
structure RunResult.Completes (result : RunResult) (plan : Plan) (report : RunReport) : Prop where
  report_eq : result.report = .ok report
  triggered_eq : report.triggered = plan.decision.runs
  /-- An event that starts nothing leaves an empty report. -/
  idle : plan.decision.runs = false → result.calls = [] ∧ report.jobs = .empty ∧
    report.outcome = .skipped ∧ report.exitCode = 0
  /-- Otherwise every instance is reported once, in the order of declaration. -/
  in_order : plan.decision.runs = true → ∃ jobs, Matrix.expandAll plan.pipeline.jobs = .ok jobs ∧
    (jobs.map JobInstance.id).Nodup ∧ report.jobs.keys = jobs.map JobInstance.id

variable {settings : Settings} {executor : Executor} {duration : InstanceId → Nat}

/-- The report of a run that was started has the records of all instances, in the order of the plan. -/
theorem Pipeline.Yields.jobs (hplan : Plan.ofPipeline pipeline event = .ok plan)
    (hruns : plan.decision.runs = true) {log : List Notice} {report : RunReport}
    (hyields : pipeline.Yields event settings executor duration log report) :
    report.jobs.keys = plan.graph.ids ∧
      ∀ id record, report.jobs.get? id = some record → record.id = id := by
  cases hyields with
  | notTriggered hsame hidle =>
      cases hplan.symm.trans hsame
      cases hruns.symm.trans hidle
  | @finished own scheduler last hsame _ _ hscheduler hends =>
      cases hplan.symm.trans hsame
      obtain ⟨hwellFormed, hown⟩ := Plan.lawful_of_scheduler?_eq_some hplan hscheduler
      have hgraph := (Plan.of_scheduler?_eq_some hscheduler).1
      have hlast := Scheduler.Steps.coherent_of_initial hwellFormed hown hends.1
      constructor
      · exact Records.keys_ordered (hgraph ▸ (hends.complete hwellFormed hown).keys_perm)
      · intro id record hrecord
        exact hlast.accounted.record_id id record ((Records.get?_ordered _ _ id).symm.trans hrecord)

theorem Pipeline.Yields.completes (hplan : Plan.ofPipeline pipeline event = .ok plan)
    {log : List Notice} {report : RunReport}
    (hyields : pipeline.Yields event settings executor duration log report) {result : RunResult}
    (hlog : result.log = log) (hreport : result.report = .ok report) :
    result.Completes plan report := by
  have hkeys : plan.decision.runs = true → report.jobs.keys = plan.graph.ids :=
    fun hruns => (hyields.jobs hplan hruns).1
  cases hyields with
  | notTriggered hsame hruns =>
      cases hplan.symm.trans hsame
      exact
        { report_eq := hreport
          triggered_eq := hruns.symm
          idle := fun _ => ⟨RunResult.calls_eq_nil hlog, rfl, rfl, rfl⟩
          in_order := fun hstarts => absurd (hruns.symm.trans hstarts) Bool.false_ne_true }
  | finished hsame hruns _ _ _ =>
      cases hplan.symm.trans hsame
      obtain ⟨jobs, hjobs, _⟩ := Plan.exists_jobs_of_ofPipeline hplan
      have hids : plan.graph.ids = jobs.map JobInstance.id := by
        rw [Plan.ids_of_ofPipeline hplan, Matrix.eq_instances_of_expandAll hjobs]
      have hnodup := (Plan.wellFormed_of_ofPipeline hplan).nodup_ids
      exact
        { report_eq := hreport
          triggered_eq := hruns.symm
          idle := fun hidle => absurd (hidle.symm.trans hruns) Bool.false_ne_true
          in_order := fun hstarts =>
            ⟨jobs, Plan.pipeline_of_ofPipeline hplan ▸ hjobs, hids ▸ hnodup,
              (hkeys hstarts).trans hids⟩ }

theorem Pipeline.run_eq_of_error {error : ConfigurationError}
    (hplan : Plan.ofPipeline pipeline event = .error error) :
    pipeline.run event settings executor duration = { report := .error (.configuration error) } := by
  simp only [Pipeline.run, hplan]

/-- A run has done nothing, or its log is that of steps of the scheduler of its plan, and a report that
it came to is one of records with which everything has ended. -/
inductive Pipeline.Leaves (pipeline : Pipeline) (event : Event) (settings : Settings)
    (executor : Executor) (duration : InstanceId → Nat) (result : RunResult) : Prop
  | nothing (hlog : result.log = [])
      (hjobs : ∀ report, result.report = .ok report → report.jobs = .empty) :
      Leaves pipeline event settings executor duration result
  | work {plan : Plan} {scheduler : Scheduler} {last : RunState}
      (hplan : Plan.ofPipeline pipeline event = .ok plan)
      (hanswers : executor.secrets.Answers pipeline.secretNames)
      (hscheduler : plan.scheduler? settings (executor.guarding pipeline.secretNames) duration =
        some scheduler) (hsteps : scheduler.Steps scheduler.initial last)
      (hlog : result.log = last.log)
      (hjobs : ∀ report, result.report = .ok report →
        scheduler.Ends last ∧ report.jobs = last.records.ordered plan.graph.ids) :
      Leaves pipeline event settings executor duration result

theorem Pipeline.Yields.leaves {log : List Notice} {report : RunReport}
    (hyields : pipeline.Yields event settings executor duration log report) {result : RunResult}
    (hlog : result.log = log) (hreport : result.report = .ok report) :
    pipeline.Leaves event settings executor duration result := by
  cases hyields with
  | notTriggered _ _ =>
      refine .nothing hlog ?_
      intro own hown
      cases hreport.symm.trans hown
      rfl
  | finished hplan _ hanswers hscheduler hends =>
      rw [Plan.pipeline_of_ofPipeline hplan] at hanswers hscheduler
      refine .work hplan hanswers hscheduler hends.1 hlog ?_
      intro own hown
      cases hreport.symm.trans hown
      exact ⟨hends, rfl⟩

theorem Plan.carryOutGuarded_leaves (hplan : Plan.ofPipeline pipeline event = .ok plan)
    (hanswers : executor.secrets.Answers pipeline.secretNames) :
    pipeline.Leaves event settings executor duration
      (plan.carryOutGuarded settings (executor.guarding pipeline.secretNames) duration id) := by
  unfold carryOutGuarded
  cases hscheduler : plan.scheduler? settings (executor.guarding pipeline.secretNames) duration with
  | none => exact .nothing rfl (by simp)
  | some scheduler =>
      obtain ⟨hgraph, hown⟩ := Plan.lawful_of_scheduler?_eq_some hplan hscheduler
      simp only [id_eq]
      cases hrun : scheduler.run with
      | error halt =>
          obtain ⟨last, hsteps, hlog⟩ := Scheduler.exists_steps_of_run_eq_error hgraph hown hrun
          exact .work hplan hanswers hscheduler hsteps hlog (by simp)
      | ok last =>
          have hends := Scheduler.ends_of_run_eq_ok hgraph hown hrun
          refine .work hplan hanswers hscheduler hends.1 rfl ?_
          rintro _ ⟨⟩
          exact ⟨hends, rfl⟩

theorem Pipeline.run_leaves (pipeline : Pipeline) (event : Event) (settings : Settings)
    (executor : Executor) (duration : InstanceId → Nat) :
    pipeline.Leaves event settings executor duration
      (pipeline.run event settings executor duration) := by
  cases hplan : Plan.ofPipeline pipeline event with
  | error error =>
      rw [Pipeline.run_eq_of_error hplan]
      exact .nothing rfl (by simp)
  | ok plan =>
      have hpipeline := Plan.pipeline_of_ofPipeline hplan
      cases hruns : plan.decision.runs with
      | false =>
          simp only [Pipeline.run, hplan, hruns, Bool.false_eq_true, if_false]
          refine .nothing rfl ?_
          rintro _ ⟨⟩
          rfl
      | true =>
          simp only [Pipeline.run, hplan, hruns, if_true]
          cases hlooked : executor.secrets.crashAmong? plan.pipeline.secretNames with
          | some crash =>
              rw [Plan.carryOut_of_crash hlooked]
              exact .nothing rfl (by simp)
          | none =>
              have hanswers := SecretProvider.crashAmong?_eq_none_iff.mp hlooked
              rw [Plan.carryOut_of_answers hanswers, hpipeline]
              exact Plan.carryOutGuarded_leaves hplan (hpipeline ▸ hanswers)

/-- What can be planned is never refused for its configuration. -/
theorem Pipeline.report_ne_configuration (hplan : Plan.ofPipeline pipeline event = .ok plan)
    (error : ConfigurationError) :
    (pipeline.run event settings executor duration).report ≠ .error (.configuration error) := by
  simp only [Pipeline.run, hplan]
  split
  · unfold Plan.carryOut
    split
    · simp
    · unfold Plan.carryOutGuarded
      split
      · simp
      · split <;> simp
  · simp

/-- A configuration error is all that a run comes to if the pipeline cannot be planned, and nothing
is called then. Otherwise no run whose provider answers for its secrets ends without a report: it is
empty where the event starts nothing, and else it has every instance once in the order of declaration,
for every order in which the jobs may be done. -/
theorem run_refuses_or_reports (pipeline : Pipeline) (event : Event) (settings : Settings)
    (hworkers : 1 ≤ settings.maxWorkers) (executor : Executor)
    (hcalm : ∀ call, executor.runner call ≠ .interrupted) (duration : InstanceId → Nat) :
    (∀ error, (pipeline.run event settings executor duration).report =
        .error (.configuration error) ↔ Plan.ofPipeline pipeline event = .error error) ∧
    (∀ error, Plan.ofPipeline pipeline event = .error error →
      (pipeline.run event settings executor duration).calls = []) ∧
    ∀ plan, Plan.ofPipeline pipeline event = .ok plan →
      (executor.secrets.Answers pipeline.secretNames →
        ∃ report, (pipeline.run event settings executor duration).Completes plan report) ∧
      ∀ log report, pipeline.Yields event settings executor duration log report →
        RunResult.Completes { decision := some plan.decision, log := log, report := .ok report }
          plan report := by
  refine ⟨?_, ?_, ?_⟩
  · intro error
    cases hplan : Plan.ofPipeline pipeline event with
    | error own =>
        rw [Pipeline.run_eq_of_error hplan]
        simp
    | ok plan => exact iff_of_false (Pipeline.report_ne_configuration hplan error) (by simp)
  · intro error hplan
    rw [Pipeline.run_eq_of_error hplan]
    rfl
  · intro plan hplan
    refine ⟨?_, fun _ _ hyields => hyields.completes hplan rfl rfl⟩
    intro hanswers
    obtain ⟨report, hreport, hyields⟩ :=
      Pipeline.exists_report hplan hworkers hanswers hcalm duration
    exact ⟨report, hyields.completes hplan rfl hreport⟩

theorem run_refuses_or_reports_small :
    ∃ report, (smallPipeline.run { kind := .manual, ref := "main" } { maxWorkers := 2 }
        failingExecutor fun id => id.template.length).report = .ok report ∧
      report.triggered = true ∧
      report.jobs.keys = [⟨"build", []⟩, ⟨"lint", []⟩, ⟨"test", []⟩] := by
  have hstarts : (Plan.ofPipeline smallPipeline { kind := .manual, ref := "main" }).map
      (fun plan => plan.decision.runs) = .ok true := by cbv
  have hids : (Matrix.expandAll smallPipeline.jobs).map (List.map JobInstance.id) =
      .ok [⟨"build", []⟩, ⟨"lint", []⟩, ⟨"test", []⟩] := by cbv
  obtain ⟨plan, hplan, hruns⟩ := map_eq_ok_iff.mp hstarts
  obtain ⟨_, _, hreports⟩ := run_refuses_or_reports smallPipeline
    { kind := .manual, ref := "main" } { maxWorkers := 2 } (by decide) failingExecutor
    (by simp [failingExecutor]) fun id => id.template.length
  obtain ⟨report, hcompletes⟩ := (hreports plan hplan).1 answers_failingExecutor
  obtain ⟨jobs, hjobs, _, hkeys⟩ := hcompletes.in_order hruns
  rw [Plan.pipeline_of_ofPipeline hplan] at hjobs
  obtain ⟨own, hown, hownIds⟩ := map_eq_ok_iff.mp hids
  cases hjobs.symm.trans hown
  exact ⟨report, hcompletes.report_eq, hcompletes.triggered_eq.trans hruns, hkeys.trans hownIds⟩

end CiPipeline
