import CiPipeline.Proofs.Execution
import CiPipeline.Proofs.Graph.Transition
import CiPipeline.Proofs.Schedule.Record
import Mathlib.Logic.Relation

/-!
The steps of a run. A ready instance is queued or refused, the first of the queue is started when a
worker is free, time passes, and the result of a job that a worker has is taken. Any job that a
worker has may be the next to be done, so the steps allow every order of completion; a run is one
way through them. What a step makes of a state is written out, and each operation of the scheduler
is shown to make just that.
-/

namespace CiPipeline

namespace RunState

@[simp] theorem started_note (state : RunState) (notices : List Notice) :
    (state.note notices).started = state.started ++ notices.filterMap Notice.started? := by
  simp [started, note]

@[simp] theorem results_note (state : RunState) (notices : List Notice) :
    (state.note notices).results = state.results ++ notices.filterMap Notice.record? := by
  simp [results, note]

theorem withTransition_ok {α : Type} (state : RunState) (a : α) :
    state.withTransition (.ok a) = .ok a := rfl

/-- Puts a ready instance into the queue. -/
def enqueue (state : RunState) (id : InstanceId) (steps : List Selection) : RunState :=
  { state with
    progress := state.progress.insert id .dispatchable
    queue := state.queue ++ [(id, steps)] }

/-- Lets time pass until some jobs are done. Jobs that workers have are in no order. -/
def elapse (state : RunState) (time : Nat) (flights : List Flight) (done : List InstanceId) :
    RunState :=
  { state with time := time, inFlight := flights }.note (done.map (.finished · time))

@[simp] theorem started_elapse (state : RunState) (time : Nat) (flights : List Flight)
    (done : List InstanceId) : (state.elapse time flights done).started = state.started := by
  rw [elapse, started_note]
  simp [started, Notice.started?, List.filterMap_map, Function.comp_def]

@[simp] theorem results_elapse (state : RunState) (time : Nat) (flights : List Flight)
    (done : List InstanceId) : (state.elapse time flights done).results = state.results := by
  rw [elapse, results_note]
  simp [results, Notice.record?, List.filterMap_map, Function.comp_def]

end RunState

namespace Scheduler

@[simp] theorem filterMap_started?_workNotices (id : InstanceId) (run : JobRun) :
    (workNotices id run).filterMap Notice.started? = [] := by
  simp [workNotices, Notice.started?, List.filterMap_map, Function.comp_def]

@[simp] theorem filterMap_record?_workNotices (id : InstanceId) (run : JobRun) :
    (workNotices id run).filterMap Notice.record? = [] := by
  simp [workNotices, Notice.record?, List.filterMap_map, Function.comp_def]

variable (scheduler : Scheduler)

/-- The records of some instances that are cancelled for one reason. -/
def cancelledRecords (reason : String) (ids : List InstanceId) : List JobRecord :=
  ids.map (scheduler.cancelledRecord reason)

theorem map_id_cancelledRecords (reason : String) (ids : List InstanceId) :
    (scheduler.cancelledRecords reason ids).map JobRecord.id = ids := by
  simp [cancelledRecords, Function.comp_def, cancelledRecord]

theorem endStates_cancelledRecords (progress : Graph.Progress) (reason : String)
    (ids : List InstanceId) :
    RunState.endStates progress (scheduler.cancelledRecords reason ids) =
      Graph.cancelAll progress ids := by
  simp [RunState.endStates, cancelledRecords, Graph.cancelAll, List.foldl_map, cancelledRecord]

/-- The records of a group that ends because one instance does. -/
def groupOf (state : RunState) (record : JobRecord) : List JobRecord :=
  record :: scheduler.cancelledRecords (needEndedReason record)
    (scheduler.graph.overtaken state.progress record.id record.outcome)

/-- An instance ends and takes the strict ones behind it along. -/
def completed (state : RunState) (record : JobRecord) : RunState :=
  state.settle (scheduler.groupOf state record)

/-- What follows when a result is taken: the job ends, and its failure may stop the run. -/
def collected (state : RunState) (record : JobRecord) : RunState :=
  let next := scheduler.completed state record
  if record.outcome = .failure && scheduler.failFast && !next.stopped then scheduler.stop next
  else next

/-- A worker takes an instance, which leaves the queue. -/
def launched (state : RunState) (id : InstanceId) (steps : List Selection)
    (rest : List (InstanceId × List Selection)) (job : JobInstance) : RunState :=
  let run := scheduler.execute job steps
  let flight : Flight := ⟨id, state.time + scheduler.duration id, run.result⟩
  { state with
    progress := state.progress.insert id .running
    queue := rest
    inFlight := state.inFlight ++ [flight] }.note
    (.started id state.time :: workNotices id run)

/-- One step of a run. -/
inductive Step : RunState → RunState → Prop
  | enqueue {state : RunState} {id : InstanceId} {job : JobInstance} {steps : List Selection}
      (hrunning : state.stopped = false) (hready : id ∈ scheduler.graph.ready state.progress)
      (hjob : scheduler.graph.job? id = some job)
      (hverdict : scheduler.gate.decide job (scheduler.needOutcomes state.progress id) =
        .run steps) :
      Step state (state.enqueue id steps)
  | refuse {state : RunState} {id : InstanceId} {job : JobInstance} {refusal : Refusal}
      (hrunning : state.stopped = false) (hready : id ∈ scheduler.graph.ready state.progress)
      (hjob : scheduler.graph.job? id = some job)
      (hverdict : scheduler.gate.decide job (scheduler.needOutcomes state.progress id) =
        .refuse refusal) :
      Step state (scheduler.completed state (scheduler.refusedRecord id refusal))
  | start {state : RunState} {id : InstanceId} {steps : List Selection}
      {rest : List (InstanceId × List Selection)} {job : JobInstance}
      (hqueue : state.queue = (id, steps) :: rest)
      (hroom : state.inFlight.length < scheduler.maxWorkers)
      (hjob : scheduler.graph.job? id = some job) :
      Step state (scheduler.launched state id steps rest job)
  | elapse {state : RunState} {flights : List Flight} (time : Nat) (done : List InstanceId)
      (hflights : flights.Perm state.inFlight) :
      Step state (state.elapse time flights done)
  | collect {state : RunState} {flight : Flight} {rest : List Flight} {record : JobRecord}
      (hflight : state.inFlight = flight :: rest)
      (hrecord : scheduler.recordOf? flight = some record) :
      Step state (scheduler.collected { state with inFlight := rest } record)

/-- Any number of steps. -/
abbrev Steps : RunState → RunState → Prop :=
  Relation.ReflTransGen scheduler.Step

/-- Where every run begins. -/
def initial : RunState where
  progress := scheduler.graph.fresh

section Operations

variable {scheduler} {state : RunState}

theorem complete_ok {record : JobRecord} {current : JobState}
    (hstate : state.progress.get? record.id = some current)
    (hopen : current.isTerminal = false) :
    scheduler.complete state record = .ok (scheduler.completed state record) := by
  have hmark := scheduler.graph.markComplete_ok hstate hopen record.outcome
  have hprogress : (state.record record).progress = state.progress := rfl
  have hgroup : RunState.endStates state.progress (scheduler.groupOf state record) =
      Graph.cancelAll (state.progress.insert record.id (.ended record.outcome))
        (scheduler.graph.overtaken state.progress record.id record.outcome) := by
    rw [← endStates_cancelledRecords]
    rfl
  unfold complete completed
  simp only [hprogress, hmark, RunState.withTransition_ok, ok_bind]
  rw [RunState.settle, hgroup]
  rfl

theorem stop_eq (state : RunState) :
    scheduler.stop state =
      { state with stopped := true, queue := [] }.settle
        (scheduler.cancelledRecords "fail-fast" (Graph.unstarted state.progress)) := by
  rw [RunState.settle, endStates_cancelledRecords]
  rfl

/-- What the gate hears of is a need that has ended so. -/
theorem of_get?_needOutcomes {progress : Graph.Progress} {id need : InstanceId} {outcome : Outcome}
    (hneed : (scheduler.needOutcomes progress id).get? need = some outcome) :
    need ∈ scheduler.graph.dependencies id ∧ progress.get? need = some (.ended outcome) := by
  obtain ⟨before, after, hentries, _⟩ := Table.exists_last_of_get?_ofList hneed
  have hentry : (need, outcome) ∈ before ++ (need, outcome) :: after := by simp
  rw [← hentries] at hentry
  obtain ⟨needed, hneeded, houtcome⟩ := List.mem_filterMap.mp hentry
  obtain ⟨own, hown, heq⟩ := Option.map_eq_some_iff.mp houtcome
  cases heq
  obtain ⟨current, hcurrent, hended⟩ := Option.bind_eq_some_iff.mp hown
  cases current with
  | ended ending =>
      cases hended
      exact ⟨hneeded, hcurrent⟩
  | pending | dispatchable | running => cases hended

theorem start_ok {id : InstanceId} {job : JobInstance} (hjob : scheduler.graph.job? id = some job)
    (hstate : state.progress.get? id = some .dispatchable) (steps : List Selection) :
    scheduler.start state id steps =
      .ok (scheduler.launched state id steps state.queue job) := by
  have hmark := Graph.transition_ok hstate .running
  unfold start
  simp only [hjob, Graph.markRunning, hmark, RunState.withTransition_ok, ok_bind]
  rfl

theorem gateOne_run {id : InstanceId} {job : JobInstance} {steps : List Selection}
    (hjob : scheduler.graph.job? id = some job)
    (hstate : state.progress.get? id = some .pending)
    (hverdict : scheduler.gate.decide job (scheduler.needOutcomes state.progress id) =
      .run steps) :
    scheduler.gateOne state id = .ok (state.enqueue id steps) := by
  have hmark := Graph.transition_ok hstate .dispatchable
  unfold gateOne
  simp only [hjob, hverdict, Graph.markDispatchable, hmark, RunState.withTransition_ok, ok_bind]
  rfl

theorem gateOne_refuse {id : InstanceId} {job : JobInstance} {refusal : Refusal}
    (hjob : scheduler.graph.job? id = some job)
    (hstate : state.progress.get? id = some .pending)
    (hverdict : scheduler.gate.decide job (scheduler.needOutcomes state.progress id) =
      .refuse refusal) :
    scheduler.gateOne state id =
      .ok (scheduler.completed state (scheduler.refusedRecord id refusal)) := by
  unfold gateOne
  simp only [hjob, hverdict]
  exact complete_ok hstate rfl

theorem collect_ok {flight : Flight} {record : JobRecord} {current : JobState}
    (hrecord : scheduler.recordOf? flight = some record)
    (hstate : state.progress.get? record.id = some current)
    (hopen : current.isTerminal = false) :
    scheduler.collect state flight = .ok (scheduler.collected state record) := by
  unfold collect
  simp only [hrecord, complete_ok hstate hopen, ok_bind]
  rfl

end Operations

section Views

variable {scheduler} {state : RunState} {record : JobRecord}

@[simp] theorem started_launched (id : InstanceId) (steps : List Selection)
    (rest : List (InstanceId × List Selection)) (job : JobInstance) :
    (scheduler.launched state id steps rest job).started = state.started ++ [id] := by
  simp only [launched, RunState.started_note, List.filterMap_cons, Notice.started?,
    filterMap_started?_workNotices]
  rfl

@[simp] theorem results_launched (id : InstanceId) (steps : List Selection)
    (rest : List (InstanceId × List Selection)) (job : JobInstance) :
    (scheduler.launched state id steps rest job).results = state.results := by
  simp only [launched, RunState.results_note, List.filterMap_cons, Notice.record?,
    filterMap_record?_workNotices, List.append_nil]
  rfl

@[simp] theorem started_completed :
    (scheduler.completed state record).started = state.started :=
  RunState.started_settle _ _

@[simp] theorem started_stop : (scheduler.stop state).started = state.started := by
  rw [stop_eq, RunState.started_settle]
  rfl

@[simp] theorem inFlight_stop : (scheduler.stop state).inFlight = state.inFlight := by
  rw [stop_eq, RunState.inFlight_settle]

/-- What an end brings about and a stop leaves alone holds when a result was taken. -/
theorem collected_of_completed {motive : RunState → Prop}
    (hcompleted : motive (scheduler.completed state record))
    (hstop : ∀ next, motive next → motive (scheduler.stop next)) :
    motive (scheduler.collected state record) := by
  unfold collected
  simp only
  split
  · exact hstop _ hcompleted
  · exact hcompleted

@[simp] theorem started_collected :
    (scheduler.collected state record).started = state.started :=
  collected_of_completed (motive := fun next => next.started = state.started)
    started_completed fun _ hnext => started_stop.trans hnext

@[simp] theorem inFlight_collected :
    (scheduler.collected state record).inFlight = state.inFlight :=
  collected_of_completed (motive := fun next => next.inFlight = state.inFlight)
    (RunState.inFlight_settle _ _) fun _ hnext => inFlight_stop.trans hnext

theorem progress_completed (scheduler : Scheduler) (state : RunState) (record : JobRecord) :
    (scheduler.completed state record).progress =
      Graph.cancelAll (state.progress.insert record.id (.ended record.outcome))
        (scheduler.graph.overtaken state.progress record.id record.outcome) := by
  rw [← endStates_cancelledRecords, completed, RunState.settle_eq]
  rfl

theorem get?_completed (scheduler : Scheduler) (state : RunState) (record : JobRecord)
    (id : InstanceId) :
    (scheduler.completed state record).progress.get? id =
      if id ∈ scheduler.graph.overtaken state.progress record.id record.outcome then
        some (.ended .cancelled)
      else if record.id = id then some (.ended record.outcome)
      else state.progress.get? id := by
  rw [progress_completed, Graph.get?_end]

theorem get?_stop (id : InstanceId) :
    (scheduler.stop state).progress.get? id =
      if id ∈ Graph.unstarted state.progress then some (.ended .cancelled)
      else state.progress.get? id := by
  have hprogress : (scheduler.stop state).progress =
      Graph.cancelAll state.progress (Graph.unstarted state.progress) := by
    rw [stop_eq, RunState.settle_eq, ← endStates_cancelledRecords]
  rw [hprogress, Graph.get?_cancelAll]

theorem stop_withInFlight (flights : List Flight) :
    scheduler.stop { state with inFlight := flights } =
      { scheduler.stop state with inFlight := flights } := by
  rw [stop_eq, stop_eq, ← RunState.settle_withInFlight]

/-- Whether workers are busy plays no part in taking a result. -/
theorem collected_withInFlight (flights : List Flight) :
    scheduler.collected { state with inFlight := flights } record =
      { scheduler.collected state record with inFlight := flights } := by
  have hcompleted : scheduler.completed { state with inFlight := flights } record =
      { scheduler.completed state record with inFlight := flights } :=
    RunState.settle_withInFlight state _ flights
  unfold collected
  simp only [hcompleted]
  split
  · exact stop_withInFlight flights
  · rfl

theorem collected_cases (scheduler : Scheduler) (state : RunState) (record : JobRecord) :
    scheduler.collected state record = scheduler.completed state record ∨
      scheduler.collected state record = scheduler.stop (scheduler.completed state record) ∧
        record.outcome = .failure ∧ scheduler.failFast = true ∧ state.stopped = false := by
  unfold collected
  simp only
  split
  · next hstop =>
      simp only [completed, RunState.stopped_settle, Bool.and_eq_true, decide_eq_true_eq,
        Bool.not_eq_true'] at hstop
      exact Or.inr ⟨rfl, hstop.1.1, hstop.1.2, hstop.2⟩
  · exact Or.inl rfl

/-- An instance ends as its record says. -/
theorem get?_completed_self (hnodup : scheduler.graph.ids.Nodup) :
    (scheduler.completed state record).progress.get? record.id = some (.ended record.outcome) := by
  rw [get?_completed, if_neg, if_pos rfl]
  intro hmem
  exact (Graph.of_mem_overtaken hnodup hmem).2.1 rfl

/-- A stop changes no end. -/
theorem ended_stop {id : InstanceId} {outcome : Outcome}
    (hended : state.progress.get? id = some (.ended outcome)) :
    (scheduler.stop state).progress.get? id = some (.ended outcome) := by
  rw [get?_stop, if_neg]
  · exact hended
  · intro hmem
    rcases Graph.mem_unstarted_iff.mp hmem with h | h <;> simp [hended] at h

theorem ended_collected {id : InstanceId} {outcome : Outcome}
    (hended : (scheduler.completed state record).progress.get? id = some (.ended outcome)) :
    (scheduler.collected state record).progress.get? id = some (.ended outcome) :=
  collected_of_completed (motive := fun next => next.progress.get? id = some (.ended outcome))
    hended fun _ => ended_stop

/-- No end changes a record that was made before. -/
theorem get?_records_completed {id : InstanceId} {old : JobRecord}
    (hold : state.records.get? id = some old) :
    (scheduler.completed state record).records.get? id = some old := by
  rw [completed, RunState.get?_records_settle, hold, Option.some_or]

theorem get?_records_stop {id : InstanceId} {old : JobRecord}
    (hold : state.records.get? id = some old) :
    (scheduler.stop state).records.get? id = some old := by
  rw [stop_eq, RunState.get?_records_settle, hold, Option.some_or]

theorem get?_records_collected {id : InstanceId} {old : JobRecord}
    (hold : state.records.get? id = some old) :
    (scheduler.collected state record).records.get? id = some old :=
  collected_of_completed (motive := fun next => next.records.get? id = some old)
    (get?_records_completed hold) fun _ => get?_records_stop

/-- The record of an instance that had none is the one it ends with. -/
theorem get?_records_collected_self (hnew : state.records.get? record.id = none) :
    (scheduler.collected state record).records.get? record.id = some record := by
  have hcompleted : (scheduler.completed state record).records.get? record.id = some record := by
    rw [completed, RunState.get?_records_settle, hnew, Option.none_or, groupOf,
      List.find?_cons_of_pos (by simp)]
  exact collected_of_completed
    (motive := fun next => next.records.get? record.id = some record)
    hcompleted fun _ => get?_records_stop

/-- All that an end adds to the log are records. -/
theorem log_collected (scheduler : Scheduler) (state : RunState) (record : JobRecord) :
    ∃ records : List JobRecord, (scheduler.collected state record).log =
      state.log ++ records.map .recorded := by
  have hcompleted : ∃ records : List JobRecord, (scheduler.completed state record).log =
      state.log ++ records.map .recorded := ⟨_, RunState.log_settle _ _⟩
  refine collected_of_completed (motive := fun next => ∃ records : List JobRecord,
    next.log = state.log ++ records.map .recorded) hcompleted ?_
  rintro next ⟨records, hlog⟩
  refine ⟨records ++ scheduler.cancelledRecords "fail-fast"
    (Graph.unstarted next.progress), ?_⟩
  rw [stop_eq, RunState.log_settle, List.map_append, ← List.append_assoc, ← hlog]

end Views
end Scheduler
end CiPipeline
