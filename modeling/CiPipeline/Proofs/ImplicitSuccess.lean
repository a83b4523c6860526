import CiPipeline.Proofs.Condition.Status
import CiPipeline.Proofs.Run
import CiPipeline.Proofs.Schedule.Unseen

/-!
Success that is implied and success that is written out. A job whose condition mentions no status
function runs only after success of all that it waits for, and so does a job without a condition.
Writing that demand into the conditions makes no difference: not to the plan, not to any step of any
run, and not to the report.
-/

namespace CiPipeline

namespace Condition

/-- Whether the condition mentions a status function. -/
def asksStatus : Condition → Bool
  | status _ => true
  | and left right | or left right => left.asksStatus || right.asksStatus
  | not inner => inner.asksStatus
  | isTag | isBranch | refMatches _ _ | startsWith _ | eventIs _ => false

theorem asksStatus_iff {condition : Condition} :
    condition.asksStatus = true ↔ ∃ function, condition.mentions function = true := by
  induction condition with
  | status function => simp [asksStatus, mentions]
  | and left right hleft hright | or left right hleft hright =>
      simp only [asksStatus, mentions, Bool.or_eq_true, hleft, hright, exists_or]
  | not inner ih => exact ih
  | isTag | isBranch | refMatches _ _ | startsWith _ | eventIs _ => simp [asksStatus, mentions]

theorem isEmpty_statusFunctions (condition : Condition) :
    condition.statusFunctions.isEmpty = !condition.asksStatus := by
  rw [Bool.eq_iff_iff, Bool.not_eq_true', ← Bool.not_eq_true, asksStatus_iff, not_exists]
  simp only [List.isEmpty_iff, List.eq_nil_iff_forall_not_mem, mem_statusFunctions_iff]

/-- The condition with the demand for success written out where it is implied. -/
def explicit : Option Condition → Condition
  | none => status .success
  | some condition =>
    if condition.asksStatus then condition else and (status .success) condition

/-- What is written out is what is evaluated. -/
theorem effective_eq_explicit (condition : Option Condition) :
    effective condition = explicit condition := by
  cases condition with
  | none => rfl
  | some condition =>
      simp only [effective, explicit, isEmpty_statusFunctions, Bool.not_eq_true']
      cases condition.asksStatus <;> rfl

theorem asksStatus_explicit (condition : Option Condition) :
    (explicit condition).asksStatus = true := by
  cases condition with
  | none => rfl
  | some condition =>
      cases hasks : condition.asksStatus with
      | true => simp only [explicit, hasks, if_true]
      | false => simp [explicit, hasks, asksStatus]

theorem effective_explicit (condition : Option Condition) :
    effective (some (explicit condition)) = effective condition := by
  rw [effective_eq_explicit, effective_eq_explicit, explicit, asksStatus_explicit, if_pos rfl]

theorem requiresSuccess_explicit (condition : Option Condition) :
    requiresSuccess (some (explicit condition)) = requiresSuccess condition := by
  have hexplicit := isEmpty_statusFunctions (explicit condition)
  rw [asksStatus_explicit] at hexplicit
  simp only [requiresSuccess, hexplicit, Bool.not_true, Bool.false_or]
  cases condition with
  | none => rfl
  | some condition =>
      cases hasks : condition.asksStatus with
      | true => simp [explicit, isEmpty_statusFunctions, hasks]
      | false => simp [explicit, isEmpty_statusFunctions, hasks, conjuncts]

/-- The demand for success asks about nothing else. -/
theorem contains_statusFunctionsOf_explicit (condition : Option Condition)
    {function : StatusFunction} (hother : function ≠ .success) :
    (statusFunctionsOf (some (explicit condition))).contains function =
      (statusFunctionsOf condition).contains function := by
  have hsuccess : ¬ StatusFunction.success = function := fun heq => hother heq.symm
  cases condition with
  | none => simp [statusFunctionsOf, statusFunctions, explicit, mentions, hsuccess]
  | some condition =>
      cases hasks : condition.asksStatus with
      | true => simp [explicit, hasks]
      | false =>
          simp [statusFunctionsOf, statusFunctions, explicit, hasks, mentions, hsuccess]

end Condition

/-- The template with the demand for success written out. -/
def JobTemplate.explicit (template : JobTemplate) : JobTemplate :=
  { template with condition := some (Condition.explicit template.condition) }

/-- The instance with the demand for success written out. -/
def JobInstance.explicit (job : JobInstance) : JobInstance :=
  { job with template := job.template.explicit }

/-- The pipeline with the demand for success written out in every job. -/
def Pipeline.explicit (pipeline : Pipeline) : Pipeline :=
  { pipeline with jobs := pipeline.jobs.map JobTemplate.explicit }

/-- The plan with the demand for success written out in every job. -/
def Plan.explicit (plan : Plan) : Plan :=
  { plan with
    pipeline := plan.pipeline.explicit
    graph := plan.graph.mapJobs JobInstance.explicit }

/-! ## What does not see the difference -/

theorem Gate.decide_explicit (gate : Gate) (job : JobInstance) :
    gate.decide job.explicit = gate.decide job := by
  have hrequires : Condition.requiresSuccess job.explicit.condition =
      Condition.requiresSuccess job.condition := Condition.requiresSuccess_explicit _
  have heffective : Condition.effective job.explicit.condition =
      Condition.effective job.condition := Condition.effective_explicit _
  have hasks : (Condition.statusFunctionsOf job.explicit.condition).contains .cancelled =
      (Condition.statusFunctionsOf job.condition).contains .cancelled :=
    Condition.contains_statusFunctionsOf_explicit _ (by decide)
  funext needs
  unfold decide
  rw [hrequires, heffective, hasks]
  rfl

theorem Graph.unseen_explicit : Graph.Unseen JobInstance.explicit where
  id_eq _ := rfl
  needs_eq _ := rfl
  strict_eq job := Condition.requiresSuccess_explicit job.template.condition

theorem Plan.unseen_explicit {plan : Plan} {settings : Settings} {executor : Executor}
    {duration : InstanceId → Nat} {scheduler : Scheduler}
    (hscheduler : plan.scheduler? settings executor duration = some scheduler) :
    scheduler.Unseen JobInstance.explicit where
  toUnseen := Graph.unseen_explicit
  title_eq _ := rfl
  decide_eq := scheduler.gate.decide_explicit
  execute_eq job := by
    obtain ⟨_, _, hexecute, _⟩ := Plan.of_scheduler?_eq_some hscheduler
    rw [hexecute]
    exact executor.run_congr rfl rfl rfl

/-! ## Plans -/

theorem Matrix.expandAll_explicit (templates : List JobTemplate) :
    expandAll (templates.map JobTemplate.explicit) =
      (expandAll templates).map (List.map JobInstance.explicit) := by
  have hexpand : ∀ template : JobTemplate, expand template.explicit =
      (expand template).map (List.map JobInstance.explicit) := by
    intro template
    have hcoordinates : coordinates template.explicit = coordinates template := rfl
    rw [expand, expand, hcoordinates]
    cases coordinates template with
    | nil => rfl
    | cons first rest =>
        simp only [Except.map, List.map_map]
        rfl
  induction templates with
  | nil => rfl
  | cons template rest ih =>
      rw [List.map_cons, expandAll, expandAll, hexpand, ih]
      cases expand template with
      | error error => rfl
      | ok jobs =>
          cases expandAll rest with
          | error error => rfl
          | ok more =>
              simp only [Except.map, bind, Except.bind, pure, Except.pure, List.map_append]

theorem Pipeline.jobNames_explicit (pipeline : Pipeline) :
    pipeline.explicit.jobNames = pipeline.jobNames := by
  simp only [jobNames, explicit, List.map_map]
  rfl

theorem Pipeline.secretNames_explicit (pipeline : Pipeline) :
    pipeline.explicit.secretNames = pipeline.secretNames := by
  simp only [secretNames, explicit, List.flatMap_map]
  rfl

/-- The plan of the pipeline with the demand written out, refusals included. -/
theorem Plan.ofPipeline_explicit (pipeline : Pipeline) (event : Event) :
    ofPipeline pipeline.explicit event = (ofPipeline pipeline event).map explicit := by
  have hjobs : pipeline.explicit.jobs = pipeline.jobs.map JobTemplate.explicit := rfl
  simp only [ofPipeline, Pipeline.jobNames_explicit, hjobs, Matrix.expandAll_explicit]
  cases requireDistinct pipeline.jobNames with
  | error error => rfl
  | ok _ =>
      cases Matrix.expandAll pipeline.jobs with
      | error error => rfl
      | ok jobs =>
          simp only [Except.map, bind, Except.bind, Graph.unseen_explicit.build_map]
          cases Graph.build jobs <;> rfl

theorem Plan.stages_explicit (plan : Plan) : plan.explicit.stages = plan.stages := by
  simp only [stages, stageNames, explicit, Option.map_some, Graph.unseen_explicit.levels_mapJobs]

/-! ## Runs -/

section Runs

variable {settings : Settings} {executor : Executor} {duration : InstanceId → Nat}

theorem Plan.scheduler?_explicit (plan : Plan) :
    plan.explicit.scheduler? settings executor duration =
      (plan.scheduler? settings executor duration).map
        (Scheduler.mapJobs JobInstance.explicit) := by
  unfold scheduler?
  split <;> rfl

theorem Plan.carryOutGuarded_explicit (plan : Plan) (executor : Executor) :
    plan.explicit.carryOutGuarded settings executor duration id =
      plan.carryOutGuarded settings executor duration id := by
  have hids : plan.explicit.graph.ids = plan.graph.ids := Graph.unseen_explicit.ids_mapJobs
  unfold carryOutGuarded
  rw [scheduler?_explicit, hids]
  cases hscheduler : plan.scheduler? settings executor duration with
  | none => rfl
  | some scheduler =>
      simp only [Option.map_some, id_eq, (unseen_explicit hscheduler).run_mapJobs]
      rfl

theorem Plan.carryOut_explicit (plan : Plan) :
    plan.explicit.carryOut settings executor duration =
      plan.carryOut settings executor duration := by
  have hsecrets : plan.explicit.pipeline.secretNames = plan.pipeline.secretNames :=
    plan.pipeline.secretNames_explicit
  unfold carryOut
  simp only [hsecrets, carryOutGuarded_explicit]
  rfl

theorem Pipeline.run_explicit (pipeline : Pipeline) (event : Event) :
    pipeline.explicit.run event settings executor duration =
      pipeline.run event settings executor duration := by
  unfold run
  rw [Plan.ofPipeline_explicit]
  cases Plan.ofPipeline pipeline event with
  | error error => rfl
  | ok plan =>
      simp only [Except.map, Plan.carryOut_explicit]
      rfl

/-- A way in which a run may go is one with the demand written out. -/
theorem Pipeline.yields_explicit_iff (pipeline : Pipeline) {event : Event} {log : List Notice}
    {report : RunReport} :
    pipeline.explicit.Yields event settings executor duration log report ↔
      pipeline.Yields event settings executor duration log report := by
  have hplans : ∀ plan, Plan.ofPipeline pipeline.explicit event = .ok plan ↔
      ∃ own, Plan.ofPipeline pipeline event = .ok own ∧ own.explicit = plan := by
    intro plan
    rw [Plan.ofPipeline_explicit, map_eq_ok_iff]
  have hsecrets : ∀ plan : Plan, plan.explicit.pipeline.secretNames =
      plan.pipeline.secretNames := fun plan => plan.pipeline.secretNames_explicit
  have hids : ∀ plan : Plan, plan.explicit.graph.ids = plan.graph.ids :=
    fun plan => Graph.unseen_explicit.ids_mapJobs
  constructor
  · intro hyields
    cases hyields with
    | notTriggered hplan hruns =>
        obtain ⟨plan, hown, rfl⟩ := (hplans _).mp hplan
        exact @Yields.notTriggered _ _ _ _ _ plan hown hruns
    | finished hplan hruns hanswers hscheduler hends =>
        obtain ⟨plan, hown, rfl⟩ := (hplans _).mp hplan
        rw [hsecrets] at hanswers
        rw [hsecrets, Plan.scheduler?_explicit] at hscheduler
        obtain ⟨scheduler, hfound, rfl⟩ := Option.map_eq_some_iff.mp hscheduler
        rw [hids]
        exact .finished hown hruns hanswers hfound
          ((Plan.unseen_explicit hfound).ends_mapJobs_iff.mp hends)
  · intro hyields
    cases hyields with
    | @notTriggered plan hplan hruns =>
        have hexplicit := (hplans plan.explicit).mpr ⟨plan, hplan, rfl⟩
        exact @Yields.notTriggered _ _ _ _ _ plan.explicit hexplicit hruns
    | @finished plan scheduler last hplan hruns hanswers hscheduler hends =>
        have hexplicit := (hplans plan.explicit).mpr ⟨plan, hplan, rfl⟩
        have hfound := plan.scheduler?_explicit.trans
          (congrArg (Option.map (Scheduler.mapJobs JobInstance.explicit)) hscheduler)
        rw [← hsecrets] at hanswers hfound
        rw [← hids]
        exact .finished hexplicit hruns hanswers hfound
          ((Plan.unseen_explicit hscheduler).ends_mapJobs_iff.mpr hends)

end Runs

/-- Success that is written out is success that is implied: the pipeline in which every job asks for
it where it is implied has the same stages or is refused with the same error, its run decides the
same, leaves the same log of starts, calls and records and comes to the same report, and so does
every other way in which its jobs may be done. -/
theorem explicit_success_changes_nothing (pipeline : Pipeline) (event : Event) :
    (Plan.ofPipeline pipeline.explicit event).map Plan.stages =
      (Plan.ofPipeline pipeline event).map Plan.stages ∧
    ∀ (settings : Settings) (executor : Executor) (duration : InstanceId → Nat),
      pipeline.explicit.run event settings executor duration =
        pipeline.run event settings executor duration ∧
      ∀ log report, pipeline.explicit.Yields event settings executor duration log report ↔
        pipeline.Yields event settings executor duration log report := by
  constructor
  · rw [Plan.ofPipeline_explicit]
    cases Plan.ofPipeline pipeline event with
    | error error => rfl
    | ok plan => exact congrArg Except.ok plan.stages_explicit
  · intro settings executor duration
    exact ⟨pipeline.run_explicit event, fun _ _ => pipeline.yields_explicit_iff⟩

end CiPipeline
