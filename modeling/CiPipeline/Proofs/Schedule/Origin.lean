import CiPipeline.Proofs.Gate
import CiPipeline.Proofs.Schedule.Log

/-!
Where the notices of a run come from. A worker's notices are those of an execution of a job of the
graph, and a record has one of five origins: an execution, a crash of one, the gate, the end of a
need, or a stop. So whatever is to be said of all records of a run is said of these five.
-/

namespace CiPipeline.Scheduler

/-- Selections of steps that a job has. -/
def SelectedOf (job : JobInstance) (steps : List Selection) : Prop :=
  ∀ selection ∈ steps, selection.step ∈ job.steps

/-- How a record of a run came about, the calls of a crashed job being told by the log. -/
inductive Origin (scheduler : Scheduler) (log : List Notice) : JobRecord → Prop
  | executed {job : JobInstance} {steps : List Selection} {record : JobRecord}
      (hjob : scheduler.graph.job? job.id = some job)
      (hresult : (scheduler.execute job steps).result = .ok record) :
      Origin scheduler log record
  | crashed {job : JobInstance} {steps : List Selection} {crash : Crash}
      (hjob : scheduler.graph.job? job.id = some job) (hsteps : SelectedOf job steps)
      (hresult : (scheduler.execute job steps).result = .error (.crashed crash))
      (hcalls : ∀ call ∈ (scheduler.execute job steps).calls, Notice.called call ∈ log) :
      Origin scheduler log (scheduler.crashedRecord job.id crash)
  | refused {job : JobInstance} {needs : Gate.NeedOutcomes} {refusal : Refusal}
      (hjob : scheduler.graph.job? job.id = some job)
      (hneeds : ∀ need ∈ needs.keys, need ∈ scheduler.graph.dependencies job.id)
      (hverdict : scheduler.gate.decide job needs = .refuse refusal) :
      Origin scheduler log (scheduler.refusedRecord job.id refusal)
  | behind {ended : JobRecord} {id : InstanceId} (hended : ended.id ∈ scheduler.graph.ids)
      (hid : id ∈ scheduler.graph.ids) :
      Origin scheduler log (scheduler.cancelledRecord (needEndedReason ended) id)
  | stopped {id : InstanceId} (hid : id ∈ scheduler.graph.ids) :
      Origin scheduler log (scheduler.cancelledRecord "fail-fast" id)

variable {scheduler : Scheduler} {state next : RunState} {record : JobRecord}
  {log more : List Notice}

namespace Origin

theorem mono (horigin : scheduler.Origin log record) (hmore : log ⊆ more) :
    scheduler.Origin more record := by
  cases horigin with
  | executed hjob hresult => exact .executed hjob hresult
  | crashed hjob hsteps hresult hcalls =>
      exact .crashed hjob hsteps hresult fun call hcall => hmore (hcalls call hcall)
  | refused hjob hneeds hverdict => exact .refused hjob hneeds hverdict
  | behind hended hid => exact .behind hended hid
  | stopped hid => exact .stopped hid

theorem id_mem (horigin : scheduler.Origin log record) (hown : OwnRecords scheduler.execute) :
    record.id ∈ scheduler.graph.ids := by
  cases horigin with
  | executed hjob hresult => exact hown _ _ _ hresult ▸ Graph.mem_ids_iff.mpr ⟨_, hjob⟩
  | crashed hjob _ _ _ => exact Graph.mem_ids_iff.mpr ⟨_, hjob⟩
  | refused hjob _ _ => exact Graph.mem_ids_iff.mpr ⟨_, hjob⟩
  | behind _ hid => exact hid
  | stopped hid => exact hid

end Origin

/-- A worker has a job of the graph with some of its steps, and the log tells the calls of the job. -/
def Told (scheduler : Scheduler) (log : List Notice) (flight : Flight) : Prop :=
  ∃ job steps, scheduler.graph.job? flight.id = some job ∧ SelectedOf job steps ∧
    flight.result = (scheduler.execute job steps).result ∧
    ∀ call ∈ (scheduler.execute job steps).calls, Notice.called call ∈ log

/-- The log tells of what workers do, and every record in it has an origin. What is queued for a job are
steps of this job. -/
structure Traced (scheduler : Scheduler) (state : RunState) : Prop where
  queued : ∀ entry ∈ state.queue, ∀ job, scheduler.graph.job? entry.1 = some job →
    SelectedOf job entry.2
  flown : ∀ flight ∈ state.inFlight, scheduler.Told state.log flight
  recorded : ∀ record, Notice.recorded record ∈ state.log → scheduler.Origin state.log record

namespace Traced

theorem initial : scheduler.Traced scheduler.initial where
  queued := by
    intro entry hentry
    cases hentry
  flown := by
    intro flight hflight
    cases hflight
  recorded := by
    intro record hrecord
    cases hrecord

theorem grow (htraced : scheduler.Traced state) {added : List Notice}
    (hlog : next.log = state.log ++ added) (hqueue : next.queue ⊆ state.queue)
    (hflights : ∀ flight ∈ next.inFlight, flight ∈ state.inFlight ∨ scheduler.Told next.log flight)
    (hrecords : ∀ record, Notice.recorded record ∈ added → scheduler.Origin state.log record) :
    scheduler.Traced next := by
  have hgrown : state.log ⊆ next.log := hlog ▸ List.subset_append_left _ _
  constructor
  · exact fun entry hentry => htraced.queued entry (hqueue hentry)
  · intro flight hflight
    rcases hflights flight hflight with hold | hnew
    · obtain ⟨job, steps, hjob, hsteps, hresult, hcalls⟩ := htraced.flown flight hold
      exact ⟨job, steps, hjob, hsteps, hresult, fun call hcall => hgrown (hcalls call hcall)⟩
    · exact hnew
  · intro record hrecord
    rw [hlog] at hrecord
    rcases List.mem_append.mp hrecord with hold | hnew
    · exact (htraced.recorded record hold).mono hgrown
    · exact (hrecords record hnew).mono hgrown

/-- Jobs may end whose records have an origin. -/
theorem settle (htraced : scheduler.Traced state) {records : List JobRecord}
    (hrecords : ∀ record ∈ records, scheduler.Origin state.log record) :
    scheduler.Traced (state.settle records) := by
  refine htraced.grow (RunState.log_settle _ _) ?_ ?_ ?_
  · rw [RunState.queue_settle]
    exact List.Subset.refl _
  · intro flight hflight
    rw [RunState.inFlight_settle] at hflight
    exact Or.inl hflight
  · intro record hrecord
    obtain ⟨_, hmem, ⟨⟩⟩ := List.mem_map.mp hrecord
    exact hrecords record hmem

theorem completed (hgraph : scheduler.graph.WellFormed) (hown : OwnRecords scheduler.execute)
    (htraced : scheduler.Traced state) (horigin : scheduler.Origin state.log record) :
    scheduler.Traced (scheduler.completed state record) := by
  apply htraced.settle
  intro other hother
  rcases List.mem_cons.mp hother with rfl | hother
  · exact horigin
  · obtain ⟨id, hid, rfl⟩ := List.mem_map.mp hother
    obtain ⟨_, _, _, _, need, hneed, _⟩ := Graph.of_mem_overtaken hgraph.nodup_ids hid
    exact .behind (horigin.id_mem hown) (Graph.mem_ids_of_mem_dependencies hneed)

theorem stop (htraced : scheduler.Traced state)
    (hids : ∀ id ∈ Graph.unstarted state.progress, id ∈ scheduler.graph.ids) :
    scheduler.Traced (scheduler.stop state) := by
  rw [stop_eq]
  have hstopped : scheduler.Traced { state with stopped := true, queue := [] } :=
    ⟨by simp, htraced.flown, htraced.recorded⟩
  apply hstopped.settle
  intro other hother
  obtain ⟨id, hid, rfl⟩ := List.mem_map.mp hother
  exact .stopped (hids id hid)

/-- The gate selects among the steps of a job. -/
theorem enqueue (htraced : scheduler.Traced state) {id : InstanceId} {job : JobInstance}
    {steps : List Selection} (hjob : scheduler.graph.job? id = some job) {needs : Gate.NeedOutcomes}
    (hverdict : scheduler.gate.decide job needs = .run steps) :
    scheduler.Traced (state.enqueue id steps) := by
  refine ⟨?_, htraced.flown, htraced.recorded⟩
  intro entry hentry own hown
  rcases List.mem_append.mp hentry with hold | hnew
  · exact htraced.queued entry hold own hown
  · cases List.mem_singleton.mp hnew
    cases hjob.symm.trans hown
    have hdecides := scheduler.gate.decides_decide job needs
    rw [hverdict] at hdecides
    cases hdecides with
    | run _ _ => exact fun selection hselection => Gate.mem_steps_of_mem_selectSteps hselection

theorem launched (htraced : scheduler.Traced state) {id : InstanceId} {steps : List Selection}
    {rest : List (InstanceId × List Selection)} (hqueue : state.queue = (id, steps) :: rest)
    {job : JobInstance} (hjob : scheduler.graph.job? id = some job) :
    scheduler.Traced (scheduler.launched state id steps rest job) := by
  have hsteps : SelectedOf job steps :=
    htraced.queued (id, steps) (hqueue ▸ List.mem_cons_self) job hjob
  refine htraced.grow rfl ?_ ?_ ?_
  · change rest ⊆ state.queue
    rw [hqueue]
    exact List.subset_cons_self _ _
  · intro flight hflight
    rcases List.mem_append.mp hflight with hold | hnew
    · exact Or.inl hold
    · rw [List.mem_singleton] at hnew
      subst hnew
      refine Or.inr ⟨job, steps, hjob, hsteps, rfl, ?_⟩
      intro call hcall
      simp [Scheduler.launched, RunState.note, workNotices, hcall]
  · intro record hrecord
    simp [workNotices] at hrecord

theorem elapse (htraced : scheduler.Traced state) (time : Nat) {flights : List Flight}
    (done : List InstanceId) (hflights : flights.Perm state.inFlight) :
    scheduler.Traced (state.elapse time flights done) := by
  refine htraced.grow rfl (List.Subset.refl _) ?_ ?_
  · intro flight hflight
    exact Or.inl (hflights.mem_iff.mp hflight)
  · intro record hrecord
    simp at hrecord

/-- The record of a job that a worker is done with comes from executing the job. -/
theorem origin_of_recordOf? (htraced : scheduler.Traced state) {flight : Flight}
    (hflight : flight ∈ state.inFlight)
    (hrecord : scheduler.recordOf? flight = some record) : scheduler.Origin state.log record := by
  obtain ⟨job, steps, hjob, hsteps, hresult, hcalls⟩ := htraced.flown flight hflight
  have hid := Graph.id_of_job? hjob
  rw [← hid] at hjob
  unfold recordOf? at hrecord
  split at hrecord
  · next result hok =>
      cases hrecord
      exact .executed hjob (hresult.symm.trans hok)
  · next crash hcrash =>
      cases hrecord
      rw [← hid]
      exact .crashed hjob hsteps (hresult.symm.trans hcrash) hcalls
  · cases hrecord

theorem collected (hgraph : scheduler.graph.WellFormed) (hown : OwnRecords scheduler.execute)
    (hstate : scheduler.Coherent state) (htraced : scheduler.Traced state) {flight : Flight}
    {rest : List Flight} (hflight : state.inFlight = flight :: rest)
    (hrecord : scheduler.recordOf? flight = some record) :
    scheduler.Traced (scheduler.collected { state with inFlight := rest } record) := by
  have horigin := htraced.origin_of_recordOf? (by simp [hflight]) hrecord
  have hrest : scheduler.Traced { state with inFlight := rest } := by
    refine ⟨htraced.queued, ?_, htraced.recorded⟩
    intro other hother
    exact htraced.flown other (hflight ▸ List.mem_cons_of_mem flight hother)
  have hcompleted := hrest.completed hgraph hown horigin
  rcases collected_cases scheduler { state with inFlight := rest } record with heq | ⟨heq, _⟩
  · rw [heq]
    exact hcompleted
  · rw [heq]
    apply hcompleted.stop
    intro id hid
    -- what is still to be started after the end was so before it
    rcases Graph.mem_unstarted_iff.mp hid with hpending | hqueued
    · exact hstate.mem_keys (Coherent.of_get?_completed (by simp) hpending).2
    · exact hstate.mem_keys (Coherent.of_get?_completed (by simp) hqueued).2

end Traced

theorem Step.traced (hgraph : scheduler.graph.WellFormed) (hown : OwnRecords scheduler.execute)
    (hstep : scheduler.Step state next) (hstate : scheduler.Coherent state)
    (htraced : scheduler.Traced state) : scheduler.Traced next := by
  cases hstep with
  | enqueue _ _ hjob hverdict => exact htraced.enqueue hjob hverdict
  | @refuse id job refusal _ _ hjob hverdict =>
      have hid := Graph.id_of_job? hjob
      subst hid
      refine htraced.completed hgraph hown (.refused hjob ?_ hverdict)
      intro need hneed
      obtain ⟨outcome, hneed⟩ := Table.mem_keys_iff.mp hneed
      exact (of_get?_needOutcomes hneed).1
  | start hqueue _ hjob => exact htraced.launched hqueue hjob
  | elapse time done hflights => exact htraced.elapse time done hflights
  | collect hflight hrecord => exact htraced.collected hgraph hown hstate hflight hrecord

theorem Steps.traced (hgraph : scheduler.graph.WellFormed) (hown : OwnRecords scheduler.execute)
    {last : RunState} (hsteps : scheduler.Steps scheduler.initial last) :
    scheduler.Traced last := by
  induction hsteps with
  | refl => exact .initial
  | tail hbefore hstep ih =>
      exact hstep.traced hgraph hown (Steps.coherent_of_initial hgraph hown hbefore) ih

/-- Every notice of a worker is one of the execution of a job of the graph. -/
theorem Steps.work_of_mem (hgraph : scheduler.graph.WellFormed) (hown : OwnRecords scheduler.execute)
    {last : RunState} (hsteps : scheduler.Steps scheduler.initial last) {notice : Notice}
    (hnotice : notice ∈ last.log) (hwork : notice.isWork = true) :
    ∃ launch : Launch, scheduler.graph.job? launch.job.id = some launch.job ∧
      notice ∈ scheduler.launchNotices launch := by
  obtain ⟨launches, hlogged⟩ := hsteps.logged hgraph hown
  have hmem : notice ∈ last.log.filter Notice.isWork := List.mem_filter.mpr ⟨hnotice, hwork⟩
  rw [hlogged.work_eq] at hmem
  obtain ⟨launch, hlaunch, hnotice⟩ := List.mem_flatMap.mp hmem
  exact ⟨launch, hlogged.job?_eq launch hlaunch, hnotice⟩

end CiPipeline.Scheduler
