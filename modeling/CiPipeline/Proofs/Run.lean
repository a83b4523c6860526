import CiPipeline.Proofs.Report
import CiPipeline.Proofs.Schedule.FailFast
import CiPipeline.Run

/-!
Runs of a pipeline with fail-fast and without. With fail-fast less is executed, and what is not is
cancelled; the verdict on the pipeline is the same.
-/

namespace CiPipeline

/-- A run of a pipeline may leave this log and come to this report: the jobs may be done in any
order in which they can be. -/
inductive Pipeline.Yields (pipeline : Pipeline) (event : Event) (settings : Settings)
    (executor : Executor) (duration : InstanceId → Nat) : List Notice → RunReport → Prop
  | notTriggered {plan : Plan} (hplan : Plan.ofPipeline pipeline event = .ok plan)
      (hruns : plan.decision.runs = false) :
      Yields pipeline event settings executor duration []
        (.notTriggered pipeline.name event plan.decision.reason executor.now)
  | finished {plan : Plan} {scheduler : Scheduler} {last : RunState}
      (hplan : Plan.ofPipeline pipeline event = .ok plan) (hruns : plan.decision.runs = true)
      (hanswers : executor.secrets.Answers plan.pipeline.secretNames)
      (hscheduler : plan.scheduler? settings (executor.guarding plan.pipeline.secretNames) duration =
        some scheduler) (hends : scheduler.Ends last) :
      Yields pipeline event settings executor duration last.log
        (.ofRecords plan.pipeline.name plan.event last.records plan.graph.ids
          plan.decision.reason executor.now)

/-- What fail-fast makes of a run with a log and a report, beside a run with the other report. -/
structure OnlyCancels (log : List Notice) (report report' : RunReport) : Prop where
  /-- Nothing is started behind a failure. -/
  not_started : ∀ before record after, log = before ++ Notice.recorded record :: after →
    record.outcome = .failure → ∀ id time, Notice.started id time ∉ after
  same_jobs : ∀ id, (∃ record, report.jobs.get? id = some record) ↔
    ∃ record, report'.jobs.get? id = some record
  outcome_or_cancelled : ∀ id record record', report.jobs.get? id = some record →
    report'.jobs.get? id = some record' →
    record.outcome = record'.outcome ∨ record.outcome = .cancelled
  outcome_eq : report.outcome = report'.outcome
  exitCode_eq : report.exitCode = report'.exitCode

/-- A report tells of failure, by its outcome and its exit status, exactly if a job has failed. -/
def RunReport.FailsWithJob (report : RunReport) : Prop :=
  (report.outcome = .failure ↔
    ∃ id record, report.jobs.get? id = some record ∧ record.outcome = .failure) ∧
  (report.exitCode = 1 ↔
    ∃ id record, report.jobs.get? id = some record ∧ record.outcome = .failure)

namespace Plan

variable {plan : Plan} {settings : Settings} {executor : Executor} {duration : InstanceId → Nat}
  {scheduler : Scheduler}

theorem wellFormed_of_ofPipeline {pipeline : Pipeline} {event : Event}
    (hplan : Plan.ofPipeline pipeline event = .ok plan) : plan.graph.WellFormed := by
  simp only [ofPipeline] at hplan
  obtain ⟨_, _, hplan⟩ := bind_eq_ok_iff.mp hplan
  obtain ⟨jobs, _, hplan⟩ := bind_eq_ok_iff.mp hplan
  obtain ⟨graph, hbuild, hplan⟩ := bind_eq_ok_iff.mp hplan
  cases hplan
  exact Graph.build_wellFormed hbuild

theorem pipeline_of_ofPipeline {pipeline : Pipeline} {event : Event}
    (hplan : Plan.ofPipeline pipeline event = .ok plan) :
    plan.pipeline = pipeline := by
  simp only [ofPipeline] at hplan
  obtain ⟨_, _, hplan⟩ := bind_eq_ok_iff.mp hplan
  obtain ⟨_, _, hplan⟩ := bind_eq_ok_iff.mp hplan
  obtain ⟨_, _, hplan⟩ := bind_eq_ok_iff.mp hplan
  cases hplan
  rfl

/-- What a scheduler takes from the plan, the settings and the executor. -/
theorem of_scheduler?_eq_some (hscheduler : plan.scheduler? settings executor duration =
      some scheduler) :
    scheduler.graph = plan.graph ∧
      scheduler.gate = ⟨plan.event, settings.cancelledSatisfiesNeeds⟩ ∧
      scheduler.execute = executor.run ∧ scheduler.failFast = settings.failFast := by
  unfold scheduler? at hscheduler
  split at hscheduler
  · cases hscheduler
    exact ⟨rfl, rfl, rfl, rfl⟩
  · cases hscheduler

theorem now_of_scheduler?_eq_some (hscheduler : plan.scheduler? settings executor duration =
      some scheduler) : scheduler.now = executor.now := by
  unfold scheduler? at hscheduler
  split at hscheduler
  · cases hscheduler
    rfl
  · cases hscheduler

/-- The scheduler of a plan has a graph in order, and each of its jobs makes its own record. -/
theorem lawful_of_scheduler?_eq_some {pipeline : Pipeline} {event : Event}
    (hplan : Plan.ofPipeline pipeline event = .ok plan)
    (hscheduler : plan.scheduler? settings executor duration = some scheduler) :
    scheduler.graph.WellFormed ∧ OwnRecords scheduler.execute := by
  obtain ⟨hgraph, _, hexecute, _⟩ := of_scheduler?_eq_some hscheduler
  exact ⟨hgraph ▸ wellFormed_of_ofPipeline hplan, hexecute ▸ executor.run_ownRecords⟩

theorem exists_scheduler?_eq_some (plan : Plan) (executor : Executor)
    (duration : InstanceId → Nat) (hworkers : 1 ≤ settings.maxWorkers) :
    ∃ scheduler, plan.scheduler? settings executor duration = some scheduler := by
  have hpos : 0 < settings.maxWorkers.toNat := by omega
  unfold scheduler?
  rw [dif_pos hpos]
  exact ⟨_, rfl⟩

/-- A plan whose secrets can be looked up is carried out by the executor that guards them. -/
theorem carryOut_of_answers (hanswers : executor.secrets.Answers plan.pipeline.secretNames)
    (settings : Settings) (duration : InstanceId → Nat) (watched : Scheduler → Scheduler) :
    plan.carryOut settings executor duration watched =
      plan.carryOutGuarded settings (executor.guarding plan.pipeline.secretNames) duration
        watched := by
  rw [carryOut, Executor.protect_eq_ok_iff.mpr ⟨hanswers, rfl⟩]

/-- Otherwise nothing is done. -/
theorem carryOut_of_crash {crash : Crash}
    (hcrash : executor.secrets.crashAmong? plan.pipeline.secretNames = some crash)
    (settings : Settings) (duration : InstanceId → Nat) (watched : Scheduler → Scheduler) :
    plan.carryOut settings executor duration watched =
      { decision := some plan.decision, report := .error (.crashed crash) } := by
  rw [carryOut, Executor.protect_eq_error_iff.mpr hcrash]

end Plan

/-- A run whose event starts it and of whose secrets one cannot be looked up does nothing. -/
theorem Pipeline.run_of_crash {pipeline : Pipeline} {event : Event} {plan : Plan}
    (hplan : Plan.ofPipeline pipeline event = .ok plan) (hruns : plan.decision.runs = true)
    {executor : Executor} {crash : Crash}
    (hcrash : executor.secrets.crashAmong? plan.pipeline.secretNames = some crash)
    (settings : Settings) (duration : InstanceId → Nat) (watched : Scheduler → Scheduler) :
    pipeline.run event settings executor duration watched =
      { decision := some plan.decision, report := .error (.crashed crash) } := by
  simp only [run, hplan, hruns, if_true, Plan.carryOut_of_crash hcrash]

/-- The records of a report are those of the log. -/
theorem Scheduler.Ends.recorded_of_ordered {scheduler : Scheduler} {last : RunState}
    (hgraph : scheduler.graph.WellFormed) (hown : OwnRecords scheduler.execute)
    (hends : scheduler.Ends last) {order : List InstanceId} {record : JobRecord}
    (hrecord : record ∈ (last.records.ordered order).values) :
    Notice.recorded record ∈ last.log := by
  obtain ⟨id, hget⟩ := Table.mem_values_iff.mp hrecord
  rw [Records.get?_ordered] at hget
  have hresults : record ∈ last.results := by
    rw [(Steps.coherent_of_initial hgraph hown hends.1).accounted.results_eq]
    exact Table.mem_values_iff.mpr ⟨id, hget⟩
  obtain ⟨notice, hnotice, htold⟩ := List.mem_filterMap.mp hresults
  cases notice with
  | recorded own =>
      cases htold
      exact hnotice
  | _ => cases htold

section Runs

variable {pipeline : Pipeline} {event : Event} {plan : Plan} {executor : Executor}

/-- A run that is not interrupted comes to a report, if its secrets can be looked up. -/
theorem Pipeline.exists_report (hplan : Plan.ofPipeline pipeline event = .ok plan)
    {settings : Settings} (hworkers : 1 ≤ settings.maxWorkers)
    (hanswers : executor.secrets.Answers pipeline.secretNames)
    (hcalm : ∀ call, executor.runner call ≠ .interrupted) (duration : InstanceId → Nat) :
    ∃ report, (pipeline.run event settings executor duration).report = .ok report ∧
      pipeline.Yields event settings executor duration
        (pipeline.run event settings executor duration).log report := by
  cases hruns : plan.decision.runs with
  | false =>
      have hrun : pipeline.run event settings executor duration =
          { decision := some plan.decision
            report := .ok (.notTriggered pipeline.name event plan.decision.reason
              executor.now) } := by
        simp only [Pipeline.run, hplan, hruns, Bool.false_eq_true, if_false]
      rw [hrun]
      exact ⟨_, rfl, .notTriggered hplan hruns⟩
  | true =>
      have hanswers := Plan.pipeline_of_ofPipeline hplan ▸ hanswers
      obtain ⟨scheduler, hscheduler⟩ := plan.exists_scheduler?_eq_some
        (executor.guarding plan.pipeline.secretNames) duration hworkers
      obtain ⟨hgraph, hown⟩ := Plan.lawful_of_scheduler?_eq_some hplan hscheduler
      obtain ⟨_, _, hexecute, _⟩ := Plan.of_scheduler?_eq_some hscheduler
      obtain ⟨_, last, _, _, hlast⟩ := Scheduler.exists_run_eq_ok hgraph hown
        (hexecute ▸ Executor.run_uninterrupted hcalm)
      have hrun : pipeline.run event settings executor duration =
          { decision := some plan.decision
            log := last.log
            report := .ok (.ofRecords plan.pipeline.name plan.event last.records plan.graph.ids
              plan.decision.reason executor.now) } := by
        simp only [Pipeline.run, hplan, hruns, if_true, Plan.carryOut_of_answers hanswers,
          Plan.carryOutGuarded, hscheduler, id_eq, hlast]
        rfl
      rw [hrun]
      exact ⟨_, rfl, .finished hplan hruns hanswers hscheduler
        (Scheduler.ends_of_run_eq_ok hgraph hown hlast)⟩

theorem Pipeline.Yields.failsWithJob {settings : Settings} {duration : InstanceId → Nat}
    {log : List Notice} {report : RunReport}
    (hyields : pipeline.Yields event settings executor duration log report) :
    report.FailsWithJob := by
  have houtcome : report.outcome = .failure ↔
      ∃ id record, report.jobs.get? id = some record ∧ record.outcome = .failure := by
    cases hyields with
    | notTriggered _ _ =>
        constructor
        · intro hfailure
          cases hfailure
        · rintro ⟨id, record, hrecord, _⟩
          cases hrecord
    | finished _ _ _ _ _ => exact RunReport.outcome_eq_failure_iff rfl
  exact ⟨houtcome, RunReport.exitCode_eq_one_iff.trans houtcome⟩

/-- Two runs of the same jobs have ended, the first under fail-fast. -/
theorem onlyCancels_of_ends {scheduler scheduler' : Scheduler} {last final : RunState}
    (hgraph : scheduler.graph.WellFormed) (hown : OwnRecords scheduler.execute)
    (hsame : scheduler'.graph = scheduler.graph) (hgate : scheduler'.gate = scheduler.gate)
    (hexecute : scheduler'.execute = scheduler.execute) (hstrict : scheduler.failFast = true)
    (hlenient : scheduler'.failFast = false) (hends : scheduler.Ends last)
    (hends' : scheduler'.Ends final) {report report' : RunReport}
    (htriggered : report.triggered = true) (htriggered' : report'.triggered = true)
    (hjobs : ∀ id, report.jobs.get? id = last.records.get? id)
    (hjobs' : ∀ id, report'.jobs.get? id = final.records.get? id) :
    OnlyCancels last.log report report' := by
  have hgraph' : scheduler'.graph.WellFormed := hsame ▸ hgraph
  have hown' : OwnRecords scheduler'.execute := hexecute ▸ hown
  have hreference := Scheduler.reference_congr hsame hgate hexecute
  have hfailed : last.Failed ↔ final.Failed := by
    rw [hends.failed_iff hgraph hown, hends'.failed_iff hgraph' hown', hreference, hsame]
  have houtcome : report.outcome = report'.outcome := by
    apply RunReport.outcome_eq_of_failure_iff htriggered htriggered'
    rw [RunReport.outcome_eq_failure_iff htriggered, RunReport.outcome_eq_failure_iff htriggered']
    simp only [hjobs, hjobs']
    exact hfailed
  refine
    { not_started := ?_
      same_jobs := ?_
      outcome_or_cancelled := ?_
      outcome_eq := houtcome
      exitCode_eq := by rw [RunReport.exitCode, RunReport.exitCode, houtcome] }
  · intro before record after hlog hfailure
    exact Scheduler.not_started_after_failure hgraph hown hstrict hends.1 hlog hfailure
  · intro id
    rw [hjobs, hjobs']
    constructor
    · rintro ⟨record, hrecord⟩
      have hid := hends.mem_ids hgraph hown hrecord
      obtain ⟨other, hother, _⟩ := hends'.ending_or_cancelled hgraph' hown' id (hsame ▸ hid)
      exact ⟨other, hother⟩
    · rintro ⟨record, hrecord⟩
      have hid := hends'.mem_ids hgraph' hown' hrecord
      obtain ⟨other, hother, _⟩ := hends.ending_or_cancelled hgraph hown id (hsame ▸ hid)
      exact ⟨other, hother⟩
  · intro id record record' hrecord hrecord'
    rw [hjobs] at hrecord
    rw [hjobs'] at hrecord'
    have hid := hends.mem_ids hgraph hown hrecord
    obtain ⟨found, hfound, hending⟩ := hends.ending_or_cancelled hgraph hown id hid
    obtain ⟨found', hfound', _, hfollows⟩ := hends'.follows hgraph' hown' hlenient id (hsame ▸ hid)
    cases hfound.symm.trans hrecord
    cases hfound'.symm.trans hrecord'
    -- without fail-fast the end is that of the reference, which is the same for both
    rcases hending with hending | ⟨hcancelled, _⟩
    · have hsameEnd := hfollows.ending_eq hgraph'
      rw [hreference, ← hending] at hsameEnd
      exact Or.inl (congrArg Ending.outcome hsameEnd).symm
    · exact Or.inr hcancelled

/-- Fail-fast only cancels, and never changes the verdict: beside any run without fail-fast, with
whatever workers and durations, a run with fail-fast starts nothing behind its first failure, gives
every job the same outcome or cancels it, and comes to the same outcome and exit status, those of
failure exactly if a job has failed. Either run comes to its report if the secrets can be looked up. -/
theorem failFast_only_cancels (hplan : Plan.ofPipeline pipeline event = .ok plan)
    (settings settings' : Settings) (hstrict : settings.failFast = true)
    (hlenient : settings'.failFast = false)
    (hpolicy : settings'.cancelledSatisfiesNeeds = settings.cancelledSatisfiesNeeds)
    (hworkers : 1 ≤ settings.maxWorkers) (hworkers' : 1 ≤ settings'.maxWorkers)
    (executor : Executor) (hcalm : ∀ call, executor.runner call ≠ .interrupted)
    (duration duration' : InstanceId → Nat) :
    (executor.secrets.Answers pipeline.secretNames →
      (∃ report, (pipeline.run event settings executor duration).report = .ok report ∧
        pipeline.Yields event settings executor duration
          (pipeline.run event settings executor duration).log report) ∧
      ∃ report', (pipeline.run event settings' executor duration').report = .ok report' ∧
        pipeline.Yields event settings' executor duration'
          (pipeline.run event settings' executor duration').log report') ∧
    ∀ log report log' report', pipeline.Yields event settings executor duration log report →
      pipeline.Yields event settings' executor duration' log' report' →
      OnlyCancels log report report' ∧ report.FailsWithJob ∧ report'.FailsWithJob := by
  refine ⟨fun hanswers => ⟨Pipeline.exists_report hplan hworkers hanswers hcalm duration,
    Pipeline.exists_report hplan hworkers' hanswers hcalm duration'⟩, ?_⟩
  intro log report log' report' hyields hyields'
  refine ⟨?_, hyields.failsWithJob, hyields'.failsWithJob⟩
  cases hyields with
  | notTriggered hsame hruns =>
      cases hyields' with
      | notTriggered hsame' _ =>
          cases hsame.symm.trans hsame'
          exact
            { not_started := by
                intro before record after hlog
                exact absurd (congrArg List.length hlog) (by simp)
              same_jobs := fun id => Iff.rfl
              outcome_or_cancelled := by
                intro id record record' hrecord
                cases hrecord
              outcome_eq := rfl
              exitCode_eq := rfl }
      | finished hsame' hruns' _ _ _ =>
          cases hsame.symm.trans hsame'
          rw [hruns] at hruns'
          cases hruns'
  | finished hsame hruns _ hscheduler hends =>
      cases hyields' with
      | notTriggered hsame' hruns' =>
          cases hsame.symm.trans hsame'
          rw [hruns] at hruns'
          cases hruns'
      | finished hsame' _ _ hscheduler' hends' =>
          cases hsame.symm.trans hsame'
          obtain ⟨hgraph, hgate, hexecute, hfast⟩ := Plan.of_scheduler?_eq_some hscheduler
          obtain ⟨hgraph', hgate', hexecute', hfast'⟩ := Plan.of_scheduler?_eq_some hscheduler'
          have hwellFormed := Plan.wellFormed_of_ofPipeline hsame
          apply onlyCancels_of_ends (hgraph ▸ hwellFormed)
            (hexecute ▸ Executor.run_ownRecords _) (hgraph'.trans hgraph.symm)
            (hgate'.trans (by rw [hgate, hpolicy])) (hexecute'.trans hexecute.symm)
            (hfast.trans hstrict) (hfast'.trans hlenient) hends hends' rfl rfl
          · exact fun id => Records.get?_ordered _ _ id
          · exact fun id => Records.get?_ordered _ _ id

/-- A pipeline whose tests wait for the build. -/
def smallPipeline : Pipeline where
  name := "small"
  triggers := { manual := true }
  jobs := [
    { name := "build", steps := [{ name := "make", command := "make" }] },
    { name := "lint", steps := [{ name := "lint", command := "make lint" }] },
    { name := "test", steps := [{ name := "test", command := "make test" }], needs := ["build"] }]

/-- An executor whose commands all fail. -/
def failingExecutor : Executor where
  secrets := .none
  runner := fun _ => .exited 2 "no rule"
  directories := Workspace.directories { root := [], isDirectory := fun _ => true }
  baseEnv := .empty
  now := ⟨0⟩

theorem answers_failingExecutor : failingExecutor.secrets.Answers smallPipeline.secretNames :=
  SecretProvider.answers_none _

theorem failFast_only_cancels_small :
    ∃ report report',
      (smallPipeline.run { kind := .manual, ref := "main" } { failFast := true } failingExecutor
        fun _ => 1).report = .ok report ∧
      (smallPipeline.run { kind := .manual, ref := "main" } { maxWorkers := 2 } failingExecutor
        fun id => id.template.length).report = .ok report' ∧
      report.outcome = report'.outcome ∧ report.exitCode = report'.exitCode := by
  obtain ⟨plan, hplan⟩ : ∃ plan,
      Plan.ofPipeline smallPipeline { kind := .manual, ref := "main" } = .ok plan := by
    have hok : (Plan.ofPipeline smallPipeline { kind := .manual, ref := "main" }).isOk = true := by
      cbv
    cases hplan : Plan.ofPipeline smallPipeline { kind := .manual, ref := "main" } with
    | error error =>
        rw [hplan] at hok
        cases hok
    | ok plan => exact ⟨plan, rfl⟩
  obtain ⟨hreports, hall⟩ :=
    failFast_only_cancels hplan { failFast := true } { maxWorkers := 2 } rfl rfl rfl (by decide)
      (by decide) failingExecutor (by simp [failingExecutor]) (fun _ => 1)
      (fun id => id.template.length)
  obtain ⟨⟨report, hreport, hyields⟩, report', hreport', hyields'⟩ :=
    hreports answers_failingExecutor
  obtain ⟨honly, _⟩ := hall _ report _ report' hyields hyields'
  exact ⟨report, report', hreport, hreport', honly.outcome_eq, honly.exitCode_eq⟩

end Runs
end CiPipeline
