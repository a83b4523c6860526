import CiPipeline.Console
import CiPipeline.Plan
import CiPipeline.Settings

/-!
One run of a pipeline from the event to the report. A bad declaration ends it before anything is
executed; failures of jobs and steps never do, they are part of the report.
-/

namespace CiPipeline

/-- Why a run has no report. -/
inductive RunError
  | configuration (error : ConfigurationError)
  | schedule (error : ScheduleError)
  /-- A secret could not be looked up. -/
  | crashed (crash : Crash)
  deriving DecidableEq, Repr

/-- The wording of a run error. -/
def RunError.message : RunError → String
  | configuration error => error.message
  | schedule error => error.message
  | crashed crash => crash.text

/-- What a run did, whether or not it came to a report. -/
structure RunResult where
  /-- The decision about the event, if it came to one. -/
  decision : Option TriggerDecision := none
  log : List Notice := []
  report : Except RunError RunReport

namespace RunResult

/-- The calls that were made, in order. -/
def calls (result : RunResult) : List CommandCall :=
  result.log.filterMap fun
    | .called call => some call
    | _ => none

/-- What the console shows of the run while it goes on. -/
def printed (result : RunResult) (console : Console) (showSteps : Bool) : Printed :=
  let decision := match result.decision with
    | some decision => Console.trigger decision.runs decision.reason
    | none => {}
  decision ++ console.notices showSteps result.log

end RunResult

/-- The executor that some settings ask for. -/
def Settings.executor (settings : Settings) (secrets : SecretProvider) (system : System)
    (environment : Environment) (now : Timestamp) : Executor where
  toSystem := system
  secrets := secrets
  baseEnv := environment
  stepTimeout := settings.stepTimeout
  outputLimit := settings.outputLimit
  now := now

namespace Plan

/-- The scheduler of a plan; it needs one worker at least. -/
def scheduler? (plan : Plan) (settings : Settings) (executor : Executor)
    (duration : InstanceId → Nat) : Option Scheduler :=
  if h : 0 < settings.maxWorkers.toNat then
    some {
      graph := plan.graph
      gate := ⟨plan.event, settings.cancelledSatisfiesNeeds⟩
      execute := executor.run
      duration := duration
      maxWorkers := settings.maxWorkers.toNat
      failFast := settings.failFast
      now := executor.now
      maxWorkers_pos := h }
  else none

/-- The run of a plan by an executor that guards its secrets. -/
def carryOutGuarded (plan : Plan) (settings : Settings) (executor : Executor)
    (duration : InstanceId → Nat) (watched : Scheduler → Scheduler) : RunResult :=
  match plan.scheduler? settings executor duration with
  | none => { decision := some plan.decision, report := .error (.schedule .noWorkers) }
  | some scheduler =>
    match (watched scheduler).run with
    | .error halt =>
      { decision := some plan.decision
        log := halt.state.log
        report := .error (.schedule halt.error) }
    | .ok state =>
      { decision := some plan.decision
        log := state.log
        report := .ok (.ofRecords plan.pipeline.name plan.event state.records plan.graph.ids
          plan.decision.reason executor.now) }

/-- Carries a plan out whose event starts a run. Who watches the run may have a say in it. -/
def carryOut (plan : Plan) (settings : Settings) (executor : Executor)
    (duration : InstanceId → Nat) (watched : Scheduler → Scheduler := id) : RunResult :=
  match executor.protect plan.pipeline.secretNames with
  | .error crash => { decision := some plan.decision, report := .error (.crashed crash) }
  | .ok executor => plan.carryOutGuarded settings executor duration watched

end Plan

/-- Runs a pipeline for an event. -/
def Pipeline.run (pipeline : Pipeline) (event : Event) (settings : Settings) (executor : Executor)
    (duration : InstanceId → Nat) (watched : Scheduler → Scheduler := id) : RunResult :=
  match Plan.ofPipeline pipeline event with
  | .error error => { report := .error (.configuration error) }
  | .ok plan =>
    if plan.decision.runs then plan.carryOut settings executor duration watched
    else
      { decision := some plan.decision
        report := .ok (.notTriggered pipeline.name event plan.decision.reason executor.now) }

end CiPipeline
