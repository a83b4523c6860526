import CiPipeline.CommandLine.Terminal
import CiPipeline.Proofs.Completion
import CiPipeline.Proofs.Console
import CiPipeline.Proofs.Text.Encoding

/-!
What a terminal shows of a run. Lines can be shown together if each can, and the steps that a worker
announces change nothing about what a run comes to: it reports on all jobs of its plan, if the secrets of
the plan can be looked up.
-/

namespace CiPipeline.CommandLine

/-! ## Lines that can be shown -/

section Shown

variable {terminal : Encoding}

theorem unshowable?_eq_none_iff {printed : Printed} :
    unshowable? terminal printed = none ↔ ∀ line ∈ printed.out, terminal.rejects line = false := by
  simp [unshowable?]

theorem unshowable?_append_eq_none_iff {a b : Printed} :
    unshowable? terminal (a ++ b) = none ↔
      unshowable? terminal a = none ∧ unshowable? terminal b = none := by
  simp only [unshowable?_eq_none_iff, Printed.out_append, List.forall_mem_append]

/-- What can be shown is shown, also in front of what cannot be. -/
theorem prefix_of_unshowable? {first rest shown : Printed} {line : String}
    (hfirst : unshowable? terminal first = none)
    (hcut : unshowable? terminal (first ++ rest) = some (shown, line)) :
    first.out <+: shown.out := by
  obtain ⟨_, _, hshown⟩ := Option.map_eq_some_iff.mp hcut
  cases hshown
  have hwhole : ∀ own ∈ first.out, (!terminal.rejects own) = true := by
    simpa using unshowable?_eq_none_iff.mp hfirst
  rw [Printed.out_append, List.takeWhile_append_of_pos hwhole]
  exact List.prefix_append _ _

end Shown

/-! ## A run whose steps are announced -/

/-- Announcing steps changes nothing about the result of a job, or crashes it. -/
theorem announce_cases (terminal : Encoding) (id : InstanceId) (run : JobRun) :
    announce terminal id run = run ∨
      ∃ crash, (announce terminal id run).result = .error (.crashed crash) := by
  unfold announce
  dsimp only
  split
  · exact .inr ⟨_, rfl⟩
  · exact .inl rfl

variable {terminal : Encoding} {scheduler : Scheduler}

theorem announced_ownRecords (hown : OwnRecords scheduler.execute) :
    OwnRecords (announced terminal scheduler).execute := by
  intro job selected record hrecord
  rcases announce_cases terminal job.id (scheduler.execute job selected) with hsame | ⟨crash, hcrash⟩
  · exact hown job selected record (hsame ▸ hrecord)
  · cases hcrash.symm.trans hrecord

theorem announced_uninterrupted (hcalm : Uninterrupted scheduler.execute) :
    Uninterrupted (announced terminal scheduler).execute := by
  intro job selected hresult
  rcases announce_cases terminal job.id (scheduler.execute job selected) with hsame | ⟨crash, hcrash⟩
  · exact hcalm job selected (hsame ▸ hresult)
  · cases hcrash.symm.trans hresult

section Announced

variable {pipeline : Pipeline} {event : Event} {plan : Plan} {settings : Settings}
  {executor : Executor}

/-- What a run whose steps are announced tells and reports: nothing where its event starts nothing, and
else the end of each job of its plan. -/
structure Reports (plan : Plan) (log : List Notice) (report : RunReport) : Prop where
  triggered_eq : report.triggered = plan.decision.runs
  idle : plan.decision.runs = false → log = []
  keys_eq : plan.decision.runs = true → report.jobs.keys = plan.graph.ids
  told : plan.decision.runs = true → ∀ id ∈ plan.graph.ids,
    ∃ record, record.id = id ∧ Notice.recorded record ∈ log

/-- The result of a run of a plan that tells something and comes to a report. -/
def resultOf (plan : Plan) (log : List Notice) (report : RunReport) : RunResult where
  decision := some plan.decision
  log := log
  report := .ok report

/-- The result of a run of a plan that could not look up one of its secrets. -/
def crashOf (plan : Plan) (crash : Crash) : RunResult where
  decision := some plan.decision
  report := .error (.crashed crash)

theorem reports_of_idle (hidle : plan.decision.runs = false) (name : String) (event : Event)
    (now : Timestamp) :
    Reports plan [] (.notTriggered name event plan.decision.reason now) where
  triggered_eq := hidle.symm
  idle _ := rfl
  keys_eq hruns := absurd (hidle.symm.trans hruns) Bool.false_ne_true
  told hruns := absurd (hidle.symm.trans hruns) Bool.false_ne_true

/-- A scheduler with the graph of a plan has told the end of each job when everything has ended. -/
theorem reports_of_ends {last : RunState} (hgraph : scheduler.graph.WellFormed)
    (hown : OwnRecords scheduler.execute) (hsame : scheduler.graph = plan.graph)
    (hruns : plan.decision.runs = true) (hends : scheduler.Ends last) (now : Timestamp) :
    Reports plan last.log (.ofRecords plan.pipeline.name plan.event last.records plan.graph.ids
      plan.decision.reason now) where
  triggered_eq := hruns.symm
  idle hidle := absurd (hidle.symm.trans hruns) Bool.false_ne_true
  keys_eq _ := Records.keys_ordered (hsame ▸ (hends.complete hgraph hown).keys_perm)
  told _ id hid := by
    obtain ⟨record, hrecord, hid_eq, _⟩ := (hends.complete hgraph hown).ended id (hsame.symm ▸ hid)
    have hlisted : record ∈ (last.records.ordered plan.graph.ids).values := by
      rw [Table.mem_values_iff]
      exact ⟨id, (Records.get?_ordered _ _ id).trans hrecord⟩
    exact ⟨record, hid_eq, hends.recorded_of_ordered hgraph hown hlisted⟩

theorem exists_reports_of_announced (hplan : Plan.ofPipeline pipeline event = .ok plan)
    (hworkers : 1 ≤ settings.maxWorkers) (hcalm : ∀ call, executor.runner call ≠ .interrupted)
    (hanswers : plan.decision.runs = true → executor.secrets.Answers plan.pipeline.secretNames)
    (duration : InstanceId → Nat) :
    ∃ log report, Reports plan log report ∧
      pipeline.run event settings executor duration (announced terminal) =
        resultOf plan log report := by
  cases hruns : plan.decision.runs with
  | false =>
      refine ⟨[], _, reports_of_idle hruns pipeline.name event executor.now, ?_⟩
      simp only [Pipeline.run, hplan, hruns, Bool.false_eq_true, if_false, resultOf]
  | true =>
      obtain ⟨scheduler, hscheduler⟩ := plan.exists_scheduler?_eq_some
        (executor.guarding plan.pipeline.secretNames) duration hworkers
      obtain ⟨hgraph, hown⟩ := Plan.lawful_of_scheduler?_eq_some hplan hscheduler
      obtain ⟨hsame, _, hexecute, _⟩ := Plan.of_scheduler?_eq_some hscheduler
      have hgraph : (announced terminal scheduler).graph.WellFormed := hgraph
      have hown : OwnRecords (announced terminal scheduler).execute := announced_ownRecords hown
      have hcalm : Uninterrupted (announced terminal scheduler).execute :=
        announced_uninterrupted (hexecute ▸ Executor.run_uninterrupted hcalm)
      obtain ⟨_, last, _, _, hlast⟩ := Scheduler.exists_run_eq_ok hgraph hown hcalm
      have hends := Scheduler.ends_of_run_eq_ok hgraph hown hlast
      refine ⟨last.log, _, reports_of_ends hgraph hown hsame hruns hends
        (executor.guarding plan.pipeline.secretNames).now, ?_⟩
      simp only [Pipeline.run, hplan, hruns, if_true, Plan.carryOut_of_answers (hanswers hruns),
        Plan.carryOutGuarded, hscheduler, hlast, resultOf]

end Announced

end CiPipeline.CommandLine
