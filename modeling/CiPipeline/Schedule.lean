import CiPipeline.Execution
import CiPipeline.Gate
import CiPipeline.Graph.Build
import CiPipeline.Graph.Progress

/-!
Running a graph of jobs with a bounded number of workers. One loop gates what has become ready, starts
what the workers have room for and waits for the jobs that finish first. Time is a count that each job
moves by its duration, so a run is a function of the durations, and its log tells what happened in
which order.
-/

namespace CiPipeline

/-- Something that happened during a run. -/
inductive Notice
  /-- A job was handed to a worker. -/
  | started (id : InstanceId) (time : Nat)
  /-- A worker began a step of a job. -/
  | stepBegun (id : InstanceId) (step : String)
  /-- A worker made a call. -/
  | called (call : CommandCall)
  /-- A worker was done with a job. -/
  | finished (id : InstanceId) (time : Nat)
  /-- The end of a job was recorded. -/
  | recorded (record : JobRecord)
  deriving DecidableEq

/-- Why a run comes to no report. -/
inductive ScheduleError
  | noWorkers
  | transition (error : TransitionError)
  | unfinished (ids : List InstanceId)
  | interrupted
  deriving DecidableEq, Repr

/-- The wording of a schedule error. -/
def ScheduleError.message : ScheduleError → String
  | noWorkers => "max_workers must be >= 1"
  | transition error => error.message
  | unfinished ids =>
    "scheduler stopped with unfinished jobs: " ++ Text.quotedList (ids.map InstanceId.text)
  | interrupted => ""

/-- What a run is made of. -/
structure Scheduler where
  graph : Graph
  gate : Gate
  execute : JobInstance → List Selection → JobRun
  duration : InstanceId → Nat
  maxWorkers : Nat
  /-- No job is started after the first failure. -/
  failFast : Bool
  now : Timestamp
  maxWorkers_pos : 0 < maxWorkers

/-- A job that a worker has, with the time at which it is done and what came of it. -/
structure Flight where
  id : InstanceId
  finish : Nat
  result : Except Abort JobRecord

/-- Where a run stands. -/
structure RunState where
  progress : Graph.Progress
  /-- Jobs that wait for a worker, with their selected steps. -/
  queue : List (InstanceId × List Selection) := []
  /-- Jobs that workers have, in the order of their start. -/
  inFlight : List Flight := []
  records : Records := .empty
  /-- A failure has stopped the run. -/
  stopped : Bool := false
  time : Nat := 0
  log : List Notice := []

/-- A run that was broken off, and where it stood. -/
structure Halt where
  error : ScheduleError
  state : RunState

namespace RunState

/-- Adds notices to the log. -/
def note (state : RunState) (notices : List Notice) : RunState :=
  { state with log := state.log ++ notices }

/-- Records the end of a job. -/
def record (state : RunState) (record : JobRecord) : RunState :=
  { state with records := state.records.add record }.note [.recorded record]

/-- Records the end of some jobs. -/
def recordAll (state : RunState) (records : List JobRecord) : RunState :=
  records.foldl RunState.record state

/-- Breaks the run off. -/
def halt {α : Type} (state : RunState) (error : ScheduleError) : Except Halt α :=
  .error ⟨error, state⟩

/-- Takes the result of a transition over into the state. -/
def withTransition {α : Type} (state : RunState) (result : Except TransitionError α) :
    Except Halt α :=
  result.mapError fun error => ⟨.transition error, state⟩

end RunState

namespace Scheduler

variable (scheduler : Scheduler)

/-- The title of an instance of the graph. -/
def titleOf (id : InstanceId) : String :=
  ((scheduler.graph.job? id).map JobInstance.title).getD id.text

/-- The record of a job that is cancelled without having run. -/
def cancelledRecord (reason : String) (id : InstanceId) : JobRecord where
  id := id
  title := scheduler.titleOf id
  outcome := .cancelled
  reason := reason

/-- Why a job is cancelled behind one that ended without success. -/
def needEndedReason (record : JobRecord) : String :=
  "upstream " ++ record.id.text ++ " ended " ++ record.outcome.name

/-- The record of a job that the gate refuses. -/
def refusedRecord (id : InstanceId) (refusal : Refusal) : JobRecord where
  id := id
  title := scheduler.titleOf id
  outcome := refusal.outcome
  startedAt := some scheduler.now
  finishedAt := some scheduler.now
  reason := refusal.reason

/-- The record of a job that crashed. -/
def crashedRecord (id : InstanceId) (crash : Crash) : JobRecord where
  id := id
  title := scheduler.titleOf id
  outcome := .failure
  finishedAt := some scheduler.now
  reason := crash.message

/-- Records how a job ended, together with the jobs that this cancels. -/
def complete (state : RunState) (record : JobRecord) : Except Halt RunState := do
  let state := state.record record
  let (progress, cancelled) ← state.withTransition
    (scheduler.graph.markComplete state.progress record.id record.outcome)
  let records := cancelled.map (scheduler.cancelledRecord (needEndedReason record))
  return { state with progress := progress }.recordAll records

/-- How the jobs that an instance waits for have ended. -/
def needOutcomes (progress : Graph.Progress) (id : InstanceId) : Gate.NeedOutcomes :=
  .ofList ((scheduler.graph.dependencies id).filterMap fun needed =>
    ((progress.get? needed).bind JobState.outcome?).map (needed, ·))

/-- Brings a ready instance to the gate: it is queued, or it ends at once. -/
def gateOne (state : RunState) (id : InstanceId) : Except Halt RunState :=
  match scheduler.graph.job? id with
  | none => state.halt (.transition (.unknownNode id))
  | some job =>
    match scheduler.gate.decide job (scheduler.needOutcomes state.progress id) with
    | .run steps => do
      let progress ← state.withTransition (Graph.markDispatchable state.progress id)
      return { state with progress := progress, queue := state.queue ++ [(id, steps)] }
    | .refuse refusal => scheduler.complete state (scheduler.refusedRecord id refusal)

/--
Brings everything to the gate that is ready, also what becomes ready by that. Each pass takes an instance
out of the pending ones at least, so as many passes as there are instances suffice.
-/
def gateReady : Nat → RunState → Except Halt RunState
  | 0, state => .ok state
  | passes + 1, state =>
    match scheduler.graph.ready state.progress with
    | [] => .ok state
    | ready => do
      let state ← ready.foldlM scheduler.gateOne state
      gateReady passes state

/-- What a worker did with a job, as notices. -/
def workNotices (id : InstanceId) (run : JobRun) : List Notice :=
  run.begun.map (.stepBegun id) ++ run.calls.map .called

/-- Hands a job to a worker. -/
def start (state : RunState) (id : InstanceId) (steps : List Selection) : Except Halt RunState :=
  match scheduler.graph.job? id with
  | none => state.halt (.transition (.unknownNode id))
  | some job => do
    let progress ← state.withTransition (Graph.markRunning state.progress id)
    let run := scheduler.execute job steps
    let flight : Flight := ⟨id, state.time + scheduler.duration id, run.result⟩
    return { state with progress := progress, inFlight := state.inFlight ++ [flight] }.note
      (.started id state.time :: workNotices id run)

/-- Starts jobs of the queue in order while a worker is free. -/
def dispatch : List (InstanceId × List Selection) → RunState → Except Halt RunState
  | [], state => .ok { state with queue := [] }
  | (id, steps) :: rest, state =>
    if state.inFlight.length < scheduler.maxWorkers then do
      let state ← scheduler.start state id steps
      dispatch rest state
    else .ok { state with queue := (id, steps) :: rest }

/-- Gates what is ready, unless the run was stopped, and starts what there are workers for. -/
def prepare (state : RunState) : Except Halt RunState := do
  let state ←
    if state.stopped then .ok state
    else scheduler.gateReady scheduler.graph.nodes.length state
  scheduler.dispatch state.queue state

/-- Stops the run: whatever has not been started is cancelled. -/
def stop (state : RunState) : RunState :=
  let (progress, cancelled) := Graph.cancelPending state.progress
  let state := { state with stopped := true, queue := [], progress := progress }
  state.recordAll (cancelled.map (scheduler.cancelledRecord "fail-fast"))

/-- The record of a job that a worker is done with; an interruption is none. -/
def recordOf? (flight : Flight) : Option JobRecord :=
  match flight.result with
  | .ok record => some record
  | .error (.crashed crash) => some (scheduler.crashedRecord flight.id crash)
  | .error .interrupted => none

/-- Takes the result of a job that a worker is done with. -/
def collect (state : RunState) (flight : Flight) : Except Halt RunState :=
  match scheduler.recordOf? flight with
  | none => state.halt .interrupted
  | some record => do
    let state ← scheduler.complete state record
    return if record.outcome = .failure && scheduler.failFast && !state.stopped then
      scheduler.stop state else state

/-- The time at which the first of some jobs is done. -/
def firstFinish : List Flight → Nat
  | [] => 0
  | [flight] => flight.finish
  | flight :: rest => min flight.finish (firstFinish rest)

/-- Waits for the jobs that are done first and takes their results, in the order of their start. -/
def await (state : RunState) : Except Halt RunState :=
  let time := firstFinish state.inFlight
  let (done, running) := state.inFlight.partition fun flight => flight.finish == time
  let state := { state with time := time, inFlight := running }.note
    (done.map fun (flight : Flight) => .finished flight.id time)
  done.foldlM scheduler.collect state

/--
Goes on until no worker has a job. Each round ends one job at least, and every job is started once, so
one round more than there are instances suffices.
-/
def loop : Nat → RunState → Except Halt RunState
  | 0, state => .ok state
  | rounds + 1, state => do
    let state ← scheduler.prepare state
    if state.inFlight.isEmpty then return state
    let state ← scheduler.await state
    loop rounds state

/-- The instances that have not come to their end. -/
def unfinished (progress : Graph.Progress) : List InstanceId :=
  (progress.filter fun _ state => !state.isTerminal).keys

/-- Runs the graph from a state on; in the end every instance must have come to its end. -/
def runFrom (state : RunState) : Except Halt RunState := do
  let state ← scheduler.loop (scheduler.graph.nodes.length + 1) state
  match unfinished state.progress with
  | [] => return state
  | ids => state.halt (.unfinished ids)

/-- Runs the graph. -/
def run : Except Halt RunState :=
  scheduler.runFrom { progress := scheduler.graph.fresh }

end Scheduler

namespace RunState

/-- The calls that workers made, in order. -/
def calls (state : RunState) : List CommandCall :=
  state.log.filterMap fun
    | .called call => some call
    | _ => none

end RunState
end CiPipeline
