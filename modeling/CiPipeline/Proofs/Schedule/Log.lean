import CiPipeline.Proofs.Schedule.Coherent
import Mathlib.Data.List.Basic

/-!
What the log of a run tells. It only grows; what it tells of the work of the workers is the work of
the launches, one after another; and every launched instance is with its worker still or has the
record that came of it.
-/

namespace CiPipeline

/-- The notice is about a worker: one was given a job, began a step or made a call. -/
def Notice.isWork : Notice → Bool
  | .started _ _ | .stepBegun _ _ | .called _ => true
  | .finished _ _ | .recorded _ => false

/-- A job that was given to a worker, with its selected steps and the time. -/
structure Launch where
  job : JobInstance
  steps : List Selection
  time : Nat

namespace Scheduler

/-- The notices of a launch. -/
def launchNotices (scheduler : Scheduler) (launch : Launch) : List Notice :=
  .started launch.job.id launch.time ::
    workNotices launch.job.id (scheduler.execute launch.job launch.steps)

variable {scheduler : Scheduler} {state next : RunState}

/-! ## The log grows -/

theorem log_launched {id : InstanceId} {steps : List Selection}
    {rest : List (InstanceId × List Selection)} {job : JobInstance}
    (hjob : scheduler.graph.job? id = some job) :
    (scheduler.launched state id steps rest job).log =
      state.log ++ scheduler.launchNotices ⟨job, steps, state.time⟩ := by
  have hid := Graph.id_of_job? hjob
  subst hid
  rfl

theorem isWork_of_mem_map_recorded {records : List JobRecord} :
    ∀ notice ∈ records.map Notice.recorded, notice.isWork = false := by
  intro notice hnotice
  obtain ⟨record, _, rfl⟩ := List.mem_map.mp hnotice
  rfl

theorem isWork_of_mem_map_finished {done : List InstanceId} {time : Nat} :
    ∀ notice ∈ done.map (Notice.finished · time), notice.isWork = false := by
  intro notice hnotice
  obtain ⟨id, _, rfl⟩ := List.mem_map.mp hnotice
  rfl

/-- A step adds notices that are not about workers, or it is a launch. -/
theorem Step.log_cases (hstep : scheduler.Step state next) :
    (∃ quiet, next.log = state.log ++ quiet ∧ ∀ notice ∈ quiet, notice.isWork = false) ∨
      ∃ id steps rest job, state.queue = (id, steps) :: rest ∧
        state.inFlight.length < scheduler.maxWorkers ∧ scheduler.graph.job? id = some job ∧
        next = scheduler.launched state id steps rest job := by
  cases hstep with
  | enqueue _ _ _ _ => exact Or.inl ⟨[], by simp [RunState.enqueue], by simp⟩
  | refuse _ _ _ _ => exact Or.inl ⟨_, RunState.log_settle _ _, isWork_of_mem_map_recorded⟩
  | start hqueue hroom hjob => exact Or.inr ⟨_, _, _, _, hqueue, hroom, hjob, rfl⟩
  | elapse time done _ => exact Or.inl ⟨_, rfl, isWork_of_mem_map_finished⟩
  | @collect _ rest record _ _ =>
      obtain ⟨records, hlog⟩ := scheduler.log_collected { state with inFlight := rest } record
      exact Or.inl ⟨_, hlog, isWork_of_mem_map_recorded⟩

theorem not_mem_workNotices {id started : InstanceId} {time : Nat} {run : JobRun} :
    Notice.started started time ∉ workNotices id run := by
  simp [workNotices]

/-- What stands somewhere in a list with more behind it stands in the list or in what is behind. -/
theorem split_of_append_eq {α : Type} {old added before after : List α} {a : α}
    (heq : old ++ added = before ++ a :: after) :
    (∃ later, old = before ++ a :: later) ∨
      ∃ more, before = old ++ more ∧ added = more ++ a :: after := by
  rcases List.append_eq_append_iff.mp heq with ⟨more, hbefore, hadded⟩ | ⟨more, hold, hafter⟩
  · exact Or.inr ⟨more, hbefore, hadded⟩
  · cases more with
    | nil => exact Or.inr ⟨[], by simpa using hold.symm, by simpa using hafter.symm⟩
    | cons first more =>
        rw [List.cons_append, List.cons.injEq] at hafter
        rw [← hafter.1] at hold
        exact Or.inl ⟨more, hold⟩

/-- Where the log says that an instance was started, the run took it from the queue. -/
theorem Steps.exists_start {last : RunState} (hsteps : scheduler.Steps scheduler.initial last)
    {before after : List Notice} {id : InstanceId} {time : Nat}
    (hlog : last.log = before ++ .started id time :: after) :
    ∃ moment steps rest job, scheduler.Steps scheduler.initial moment ∧ moment.log = before ∧
      moment.queue = (id, steps) :: rest ∧ moment.inFlight.length < scheduler.maxWorkers ∧
      scheduler.graph.job? id = some job ∧
      scheduler.Steps (scheduler.launched moment id steps rest job) last := by
  induction hsteps generalizing after with
  | refl => exact absurd (congrArg List.length hlog) (by simp [initial])
  | @tail middle last hbefore hstep ih =>
      -- the start was in the log before the last step, or the last step is the start
      rcases hstep.log_cases with ⟨quiet, hgrown, hquiet⟩ |
        ⟨first, steps, rest, job, hqueue, hroom, hjob, rfl⟩
      · rcases split_of_append_eq (hgrown.symm.trans hlog) with ⟨later, hold⟩ | ⟨more, _, hadded⟩
        · obtain ⟨moment, steps, rest, job, hmoment, hlog, hqueue, hroom, hjob, hmore⟩ := ih hold
          exact ⟨moment, steps, rest, job, hmoment, hlog, hqueue, hroom, hjob, hmore.tail hstep⟩
        · have hmem : Notice.started id time ∈ quiet := by simp [hadded]
          exact absurd (hquiet _ hmem) (by simp [Notice.isWork])
      · rcases split_of_append_eq ((log_launched hjob).symm.trans hlog) with
          ⟨later, hold⟩ | ⟨more, hmore, hadded⟩
        · obtain ⟨moment, steps, rest, job, hmoment, hlog, hqueue, hroom, hjob, hmore⟩ := ih hold
          exact ⟨moment, steps, rest, job, hmoment, hlog, hqueue, hroom, hjob, hmore.tail hstep⟩
        · cases more with
          | nil =>
              rw [List.nil_append, launchNotices, List.cons.injEq, Notice.started.injEq,
                Graph.id_of_job? hjob] at hadded
              obtain ⟨⟨rfl, _⟩, _⟩ := hadded
              exact ⟨middle, steps, rest, job, hbefore, by simpa using hmore.symm, hqueue, hroom,
                hjob, .refl⟩
          | cons notice more =>
              rw [List.cons_append, launchNotices, List.cons.injEq] at hadded
              have hmem : Notice.started id time ∈ workNotices job.id
                  (scheduler.execute job steps) := by simp [hadded.2]
              exact absurd hmem not_mem_workNotices

/-! ## The work in the log -/

theorem filter_isWork_launchNotices (launch : Launch) :
    (scheduler.launchNotices launch).filter Notice.isWork = scheduler.launchNotices launch := by
  rw [List.filter_eq_self]
  intro notice hnotice
  simp only [launchNotices, workNotices, List.mem_cons, List.mem_append, List.mem_map] at hnotice
  rcases hnotice with rfl | ⟨_, _, rfl⟩ | ⟨_, _, rfl⟩ <;> rfl

/-- The work that the log tells of is that of some launches, and the launched instances are on their
way or recorded. -/
structure Logged (scheduler : Scheduler) (launches : List Launch) (state : RunState) : Prop where
  work_eq : state.log.filter Notice.isWork = launches.flatMap scheduler.launchNotices
  nodup_ids : (launches.map fun launch => launch.job.id).Nodup
  job?_eq : ∀ launch ∈ launches, scheduler.graph.job? launch.job.id = some launch.job
  flown : ∀ launch ∈ launches, ∃ flight : Flight, flight.id = launch.job.id ∧
    flight.result = (scheduler.execute launch.job launch.steps).result ∧
    (flight ∈ state.inFlight ∨ ∃ record, scheduler.recordOf? flight = some record ∧
      state.records.get? flight.id = some record)

namespace Logged

variable {launches : List Launch}

theorem initial : scheduler.Logged [] scheduler.initial where
  work_eq := rfl
  nodup_ids := List.nodup_nil
  job?_eq := by
    intro launch hlaunch
    cases hlaunch
  flown := by
    intro launch hlaunch
    cases hlaunch

/-- Notices that are not about workers leave the work as it is. -/
theorem quiet (hlogged : scheduler.Logged launches state) {quiet : List Notice}
    (hlog : next.log = state.log ++ quiet) (hquiet : ∀ notice ∈ quiet, notice.isWork = false)
    (hflown : ∀ flight : Flight, (flight ∈ state.inFlight ∨
        ∃ record, scheduler.recordOf? flight = some record ∧
          state.records.get? flight.id = some record) →
      flight ∈ next.inFlight ∨ ∃ record, scheduler.recordOf? flight = some record ∧
        next.records.get? flight.id = some record) :
    scheduler.Logged launches next where
  work_eq := by
    have hnone : quiet.filter Notice.isWork = [] := by
      rw [List.filter_eq_nil_iff]
      intro notice hnotice
      simp [hquiet notice hnotice]
    rw [hlog, List.filter_append, hnone, List.append_nil]
    exact hlogged.work_eq
  nodup_ids := hlogged.nodup_ids
  job?_eq := hlogged.job?_eq
  flown launch hlaunch := by
    obtain ⟨flight, hid, hresult, hwhere⟩ := hlogged.flown launch hlaunch
    exact ⟨flight, hid, hresult, hflown flight hwhere⟩

/-- What is in the queue has not been launched. -/
theorem launched (hstate : scheduler.Coherent state) (hlogged : scheduler.Logged launches state)
    {id : InstanceId} {steps : List Selection} {rest : List (InstanceId × List Selection)}
    (hqueue : state.queue = (id, steps) :: rest) {job : JobInstance}
    (hjob : scheduler.graph.job? id = some job) :
    scheduler.Logged (launches ++ [⟨job, steps, state.time⟩])
      (scheduler.launched state id steps rest job) := by
  have hid := Graph.id_of_job? hjob
  have hdispatchable := hstate.dispatchable_of_queue hqueue
  refine
    { work_eq := ?_
      nodup_ids := ?_
      job?_eq := ?_
      flown := ?_ }
  · rw [log_launched hjob, List.filter_append, filter_isWork_launchNotices, hlogged.work_eq,
      List.flatMap_append, List.flatMap_singleton]
  · rw [List.map_append, List.map_singleton, ← List.concat_eq_append]
    refine List.Nodup.concat ?_ hlogged.nodup_ids
    intro hmem
    obtain ⟨launch, hlaunch, heq⟩ := List.mem_map.mp hmem
    obtain ⟨flight, hflight, _, hwhere⟩ := hlogged.flown launch hlaunch
    have hsame : flight.id = id := by rw [hflight, heq, hid]
    rcases hwhere with hflying | ⟨record, _, hrecord⟩
    · have hrunning := hstate.running_of_mem hflying
      rw [hsame, hdispatchable] at hrunning
      cases hrunning
    · have hended :=
        (hstate.accounted.ended_iff flight.id record.outcome).mpr ⟨record, hrecord, rfl⟩
      rw [hsame, hdispatchable] at hended
      cases hended
  · intro launch hlaunch
    rcases List.mem_append.mp hlaunch with hlaunch | hlaunch
    · exact hlogged.job?_eq launch hlaunch
    · rw [List.mem_singleton] at hlaunch
      subst hlaunch
      rw [hid]
      exact hjob
  · intro launch hlaunch
    rcases List.mem_append.mp hlaunch with hlaunch | hlaunch
    · obtain ⟨flight, hflight, hresult, hwhere⟩ := hlogged.flown launch hlaunch
      exact ⟨flight, hflight, hresult, hwhere.imp_left (List.mem_append_left _)⟩
    · rw [List.mem_singleton] at hlaunch
      subst hlaunch
      exact ⟨_, hid.symm, rfl, Or.inl (List.mem_append_right _ List.mem_cons_self)⟩

end Logged

theorem Step.logged (hown : OwnRecords scheduler.execute) (hstep : scheduler.Step state next)
    (hstate : scheduler.Coherent state) {launches : List Launch}
    (hlogged : scheduler.Logged launches state) : ∃ more, scheduler.Logged more next := by
  cases hstep with
  | enqueue _ _ _ _ =>
      exact ⟨launches, hlogged.quiet (List.append_nil state.log).symm (by simp) fun _ h => h⟩
  | refuse _ _ _ _ =>
      refine ⟨launches, hlogged.quiet (RunState.log_settle _ _) isWork_of_mem_map_recorded ?_⟩
      intro flight hwhere
      rw [completed, RunState.inFlight_settle, ← completed]
      refine hwhere.imp_right ?_
      rintro ⟨record, hrecord, hbooked⟩
      exact ⟨record, hrecord, get?_records_completed hbooked⟩
  | start hqueue _ hjob => exact ⟨_, hlogged.launched hstate hqueue hjob⟩
  | elapse time done hflights =>
      refine ⟨launches, hlogged.quiet rfl isWork_of_mem_map_finished ?_⟩
      exact fun flight hwhere => hwhere.imp_left hflights.mem_iff.mpr
  | @collect first rest record hflight hrecord =>
      obtain ⟨records, hlog⟩ := scheduler.log_collected { state with inFlight := rest } record
      refine ⟨launches, hlogged.quiet hlog isWork_of_mem_map_recorded ?_⟩
      intro flight hwhere
      rw [inFlight_collected]
      rcases hwhere with hflying | ⟨old, hold, hbooked⟩
      · rw [hflight] at hflying
        rcases List.mem_cons.mp hflying with rfl | hflying
        · have hmem : flight ∈ state.inFlight := by simp [hflight]
          refine Or.inr ⟨record, hrecord, ?_⟩
          rw [← hstate.own_record hown hmem hrecord]
          exact get?_records_collected_self (hstate.get?_record_eq_none hown hmem hrecord)
        · exact Or.inl hflying
      · exact Or.inr ⟨old, hold, get?_records_collected hbooked⟩

theorem Steps.logged (hgraph : scheduler.graph.WellFormed) (hown : OwnRecords scheduler.execute)
    {last : RunState} (hsteps : scheduler.Steps scheduler.initial last) :
    ∃ launches, scheduler.Logged launches last := by
  induction hsteps with
  | refl => exact ⟨[], .initial⟩
  | tail hbefore hstep ih =>
      obtain ⟨launches, hlogged⟩ := ih
      exact hstep.logged hown (Steps.coherent_of_initial hgraph hown hbefore) hlogged

namespace Logged

variable {launches : List Launch}

/-- What is told of workers only is told by the launches. -/
theorem filterMap_log {α : Type} (hlogged : scheduler.Logged launches state)
    {told : Notice → Option α} (htold : ∀ notice, notice.isWork = false → told notice = none) :
    state.log.filterMap told =
      launches.flatMap fun launch => (scheduler.launchNotices launch).filterMap told := by
  have hfilter : state.log.filterMap told = (state.log.filter Notice.isWork).filterMap told := by
    rw [List.filterMap_filter]
    apply List.filterMap_congr
    intro notice _
    cases hwork : notice.isWork with
    | true => rfl
    | false => exact htold notice hwork
  rw [hfilter, hlogged.work_eq, List.filterMap_flatMap]

theorem started_eq (hlogged : scheduler.Logged launches state) :
    state.started = launches.map fun launch => launch.job.id := by
  have hquiet : ∀ notice : Notice, notice.isWork = false → notice.started? = none := by
    rintro (_ | _ | _ | _ | _) hwork
    all_goals first | rfl | cases hwork
  have hlaunch : ∀ launch, (scheduler.launchNotices launch).filterMap Notice.started? =
      [launch.job.id] := by
    intro launch
    simp only [launchNotices, List.filterMap_cons, Notice.started?,
      filterMap_started?_workNotices]
  rw [RunState.started, hlogged.filterMap_log hquiet]
  simp only [hlaunch]
  exact List.flatMap_pure_eq_map _ launches

/-- The calls are those of the launches, in the order of the launches. -/
theorem calls_eq (hlogged : scheduler.Logged launches state) :
    state.calls = launches.flatMap fun launch =>
      (scheduler.execute launch.job launch.steps).calls := by
  unfold RunState.calls
  rw [hlogged.filterMap_log]
  · congr 1
    funext launch
    simp [launchNotices, workNotices, List.filterMap_map]
  · rintro (_ | _ | _ | _ | _) hwork
    all_goals first | rfl | cases hwork

/-- Only an instance that was started begins a step. -/
theorem mem_started_of_stepBegun (hlogged : scheduler.Logged launches state) {id : InstanceId}
    {step : String} (hbegun : Notice.stepBegun id step ∈ state.log) : id ∈ state.started := by
  have hwork : Notice.stepBegun id step ∈ state.log.filter Notice.isWork :=
    List.mem_filter.mpr ⟨hbegun, rfl⟩
  rw [hlogged.work_eq, List.mem_flatMap] at hwork
  obtain ⟨launch, hlaunch, hnotice⟩ := hwork
  simp only [launchNotices, workNotices, List.mem_cons, List.mem_append, List.mem_map, reduceCtorEq,
    false_or, and_false, exists_false, or_false, Notice.stepBegun.injEq] at hnotice
  obtain ⟨_, _, rfl, _⟩ := hnotice
  rw [hlogged.started_eq]
  exact List.mem_map_of_mem hlaunch

end Logged
end Scheduler
end CiPipeline
