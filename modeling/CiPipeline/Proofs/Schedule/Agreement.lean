import CiPipeline.Proofs.Schedule.Course
import CiPipeline.Proofs.Schedule.Reference
import CiPipeline.Proofs.Schedule.Stop
import Mathlib.Data.List.Basic

/-!
A run agrees with the recursive reference. What is queued or started was let through for the
outcomes that its needs should have, and what is recorded follows from them, be it that the gate
refused it, that a worker executed it or that it was overtaken by the end of a need. Only what a
stop cancels is an exception. So without fail-fast neither the durations nor the number of workers
can be told from the records.
-/

namespace CiPipeline.Scheduler

variable {scheduler : Scheduler} {state : RunState}

/-- What a run has come to is what the reference says. -/
structure Agreement (scheduler : Scheduler) (state : RunState) : Prop where
  queued : ∀ entry ∈ state.queue, ∃ job, scheduler.graph.job? entry.1 = some job ∧
    scheduler.gate.decide job (scheduler.referenceNeeds entry.1) = .run entry.2
  flown : ∀ flight ∈ state.inFlight, ∃ job steps,
    scheduler.graph.job? flight.id = some job ∧
      scheduler.gate.decide job (scheduler.referenceNeeds flight.id) = .run steps ∧
      flight.result = (scheduler.execute job steps).result
  started : ∀ id ∈ state.started, ∃ job steps, scheduler.graph.job? id = some job ∧
    scheduler.gate.decide job (scheduler.referenceNeeds id) = .run steps
  /-- Only a stop makes records that do not follow. -/
  recorded : ∀ id record, state.records.get? id = some record →
    scheduler.Follows id (scheduler.referenceNeeds id) record ∨
      state.stopped = true ∧ record = scheduler.cancelledRecord "fail-fast" id

/-- Needs that have ended as they should are to the gate as the reference has them. -/
theorem needOutcomes_eq_referenceNeeds {progress : Graph.Progress} {id : InstanceId}
    (hneeds : ∀ need ∈ scheduler.graph.dependencies id,
      progress.get? need = some (.ended (scheduler.reference need).outcome)) :
    scheduler.needOutcomes progress id = scheduler.referenceNeeds id := by
  unfold needOutcomes referenceNeeds
  congr 1
  rw [← List.filterMap_eq_map]
  apply List.filterMap_congr
  intro need hneed
  simp [hneeds need hneed, JobState.outcome?]

/-- Whatever an end takes along, the gate would have refused: each of them is strict, and one of its
needs has not succeeded. -/
theorem refused_of_mem_overtaken (hgraph : scheduler.graph.WellFormed)
    (progress : Graph.Progress) (id : InstanceId) {child : InstanceId}
    (hchild : child ∈ scheduler.graph.overtaken progress id (scheduler.reference id).outcome) :
    ∃ job refusal, scheduler.graph.job? child = some job ∧
      scheduler.gate.decide job (scheduler.referenceNeeds child) = .refuse refusal ∧
      refusal.outcome = .cancelled := by
  have hids : child ∈ scheduler.graph.ids := by
    obtain ⟨_, _, _, _, need, hneed, _⟩ := Graph.of_mem_overtaken hgraph.nodup_ids hchild
    exact Graph.mem_ids_of_mem_dependencies hneed
  revert hchild
  -- along the order of the graph: the need that failed is the one that ended, or was itself
  -- overtaken and so is refused in the reference
  refine hgraph.induction (motive := fun child =>
    child ∈ scheduler.graph.overtaken progress id (scheduler.reference id).outcome →
      ∃ job refusal, scheduler.graph.job? child = some job ∧
        scheduler.gate.decide job (scheduler.referenceNeeds child) = .refuse refusal ∧
        refusal.outcome = .cancelled) ?_ child hids
  intro child hmem ih hchild
  obtain ⟨hfailed, _, _, hstrict, need, hneed, hfrom⟩ :=
    Graph.of_mem_overtaken hgraph.nodup_ids hchild
  obtain ⟨job, hjob⟩ := Graph.mem_ids_iff.mp hmem
  have hneeded : (scheduler.reference need).outcome ≠ .success := by
    rcases hfrom with rfl | hovertaken
    · exact hfailed
    · obtain ⟨needed, refusal, hneeded, hverdict, houtcome⟩ := ih need hneed hovertaken
      rw [reference_eq hgraph hneeded, endingGiven, hverdict]
      simp [houtcome]
  rw [Graph.isStrict, hjob] at hstrict
  have hverdict := scheduler.gate.decide_eq_needsFailed hstrict
    (get?_referenceNeeds hgraph hneed) hneeded
  exact ⟨job, _, hjob, hverdict, rfl⟩

namespace Agreement

theorem initial : scheduler.Agreement scheduler.initial where
  queued := by
    intro entry hentry
    cases hentry
  flown := by
    intro flight hflight
    cases hflight
  started := by
    intro id hid
    cases hid
  recorded := by
    intro id record hrecord
    cases hrecord

/-- A worker that lets go of its job changes nothing that has been decided. -/
theorem landed (hagree : scheduler.Agreement state) {flights : List Flight}
    (hflights : ∀ flight ∈ flights, flight ∈ state.inFlight) :
    scheduler.Agreement { state with inFlight := flights } where
  queued := hagree.queued
  flown flight hflight := hagree.flown flight (hflights flight hflight)
  started := hagree.started
  recorded := hagree.recorded

/-- Without a stop every end is the one of the reference. -/
theorem ended_eq (hgraph : scheduler.graph.WellFormed) (hstate : scheduler.Coherent state)
    (hagree : scheduler.Agreement state) (hrunning : state.stopped = false) {id : InstanceId}
    {outcome : Outcome} (hended : state.progress.get? id = some (.ended outcome)) :
    outcome = (scheduler.reference id).outcome := by
  obtain ⟨record, hrecord, rfl⟩ := (hstate.accounted.ended_iff id outcome).mp hended
  rcases hagree.recorded id record hrecord with hfollows | ⟨hstopped, _⟩
  · rw [← hfollows.ending_eq hgraph]
    rfl
  · rw [hrunning] at hstopped
    cases hstopped

/-- A ready instance is decided about by the outcomes that its needs should have. -/
theorem needOutcomes_eq (hgraph : scheduler.graph.WellFormed) (hstate : scheduler.Coherent state)
    (hagree : scheduler.Agreement state) (hrunning : state.stopped = false) {id : InstanceId}
    (hneeds : ∀ need ∈ scheduler.graph.dependencies id, ∃ outcome,
      state.progress.get? need = some (.ended outcome)) :
    scheduler.needOutcomes state.progress id = scheduler.referenceNeeds id := by
  apply needOutcomes_eq_referenceNeeds
  intro need hneed
  obtain ⟨outcome, hended⟩ := hneeds need hneed
  rw [hended, ended_eq hgraph hstate hagree hrunning hended]

theorem enqueue (hagree : scheduler.Agreement state) {id : InstanceId} {job : JobInstance}
    {steps : List Selection} (hjob : scheduler.graph.job? id = some job)
    (hverdict : scheduler.gate.decide job (scheduler.referenceNeeds id) = .run steps) :
    scheduler.Agreement (state.enqueue id steps) where
  queued := by
    intro entry hentry
    rcases List.mem_append.mp hentry with hentry | hentry
    · exact hagree.queued entry hentry
    · rw [List.mem_singleton] at hentry
      subst hentry
      exact ⟨job, hjob, hverdict⟩
  flown := hagree.flown
  started := hagree.started
  recorded := hagree.recorded

theorem launched (hagree : scheduler.Agreement state) {id : InstanceId} {steps : List Selection}
    {rest : List (InstanceId × List Selection)} (hqueue : state.queue = (id, steps) :: rest)
    {job : JobInstance} (hjob : scheduler.graph.job? id = some job) :
    scheduler.Agreement (scheduler.launched state id steps rest job) := by
  obtain ⟨found, hfound, hverdict⟩ := hagree.queued (id, steps) (by simp [hqueue])
  cases hfound.symm.trans hjob
  refine
    { queued := ?_
      flown := ?_
      started := ?_
      recorded := hagree.recorded }
  · intro entry hentry
    exact hagree.queued entry (by rw [hqueue]; exact List.mem_cons_of_mem _ hentry)
  · intro flight hflight
    rcases List.mem_append.mp hflight with hflight | hflight
    · exact hagree.flown flight hflight
    · rw [List.mem_singleton] at hflight
      subst hflight
      exact ⟨_, steps, hjob, hverdict, rfl⟩
  · intro x hx
    rw [started_launched, List.mem_append, List.mem_singleton] at hx
    rcases hx with hx | rfl
    · exact hagree.started x hx
    · exact ⟨_, steps, hjob, hverdict⟩

/-- An end that follows from the needs, with all that it takes along. -/
theorem completed (hgraph : scheduler.graph.WellFormed) (hagree : scheduler.Agreement state)
    {record : JobRecord}
    (hrecord : scheduler.Follows record.id (scheduler.referenceNeeds record.id) record) :
    scheduler.Agreement (scheduler.completed state record) := by
  refine
    { queued := ?_
      flown := ?_
      started := ?_
      recorded := ?_ }
  · rw [Scheduler.completed, RunState.queue_settle]
    exact hagree.queued
  · rw [Scheduler.completed, RunState.inFlight_settle]
    exact hagree.flown
  · rw [started_completed]
    exact hagree.started
  · intro id other hother
    rw [Scheduler.completed, RunState.get?_records_settle, Option.or_eq_some_iff] at hother
    rw [Scheduler.completed, RunState.stopped_settle]
    rcases hother with hold | ⟨_, hfound⟩
    · exact hagree.recorded id other hold
    · have hid : other.id = id := by simpa using List.find?_some hfound
      subst hid
      rcases List.mem_cons.mp (List.mem_of_find?_eq_some hfound) with rfl | hmem
      · exact Or.inl hrecord
      · obtain ⟨child, hchild, rfl⟩ := List.mem_map.mp hmem
        have houtcome : record.outcome = (scheduler.reference record.id).outcome :=
          congrArg Ending.outcome (hrecord.ending_eq hgraph)
        rw [houtcome] at hchild
        obtain ⟨job, refusal, hjob, hverdict, hcancelled⟩ :=
          refused_of_mem_overtaken hgraph state.progress record.id hchild
        refine Or.inl (.refused hjob hverdict ?_)
        rw [hcancelled]
        rfl

theorem stop (hagree : scheduler.Agreement state) :
    scheduler.Agreement (scheduler.stop state) := by
  refine
    { queued := ?_
      flown := ?_
      started := ?_
      recorded := ?_ }
  · rw [stop_eq, RunState.queue_settle]
    intro entry hentry
    cases hentry
  · rw [stop_eq, RunState.inFlight_settle]
    exact hagree.flown
  · rw [started_stop]
    exact hagree.started
  · intro id record hrecord
    rw [stop_eq, RunState.get?_records_settle, Option.or_eq_some_iff] at hrecord
    rw [stop_eq, RunState.stopped_settle]
    rcases hrecord with hold | ⟨_, hfound⟩
    · rcases hagree.recorded id record hold with hfollows | ⟨_, hcancelled⟩
      · exact Or.inl hfollows
      · exact Or.inr ⟨rfl, hcancelled⟩
    · have hid : record.id = id := by simpa using List.find?_some hfound
      obtain ⟨child, _, rfl⟩ := List.mem_map.mp (List.mem_of_find?_eq_some hfound)
      subst hid
      exact Or.inr ⟨rfl, rfl⟩

end Agreement

/-- What a worker hands over follows from the needs of its job. -/
theorem follows_of_recordOf? (hagree : scheduler.Agreement state) {flight : Flight}
    (hflight : flight ∈ state.inFlight) {record : JobRecord}
    (hrecord : scheduler.recordOf? flight = some record) :
    scheduler.Follows flight.id (scheduler.referenceNeeds flight.id) record := by
  obtain ⟨job, steps, hjob, hverdict, hresult⟩ := hagree.flown flight hflight
  unfold recordOf? at hrecord
  split at hrecord
  · next result hok =>
      cases hrecord
      exact .ran hjob hverdict (hresult.symm.trans hok)
  · next crash hcrash =>
      cases hrecord
      exact .crashed hjob hverdict (hresult.symm.trans hcrash) rfl
  · cases hrecord

theorem Step.agreement (hgraph : scheduler.graph.WellFormed)
    (hown : OwnRecords scheduler.execute) {next : RunState} (hstep : scheduler.Step state next)
    (hstate : scheduler.Coherent state) (hagree : scheduler.Agreement state) :
    scheduler.Agreement next := by
  cases hstep with
  | enqueue hrunning hready hjob hverdict =>
      rw [hagree.needOutcomes_eq hgraph hstate hrunning
        ((Graph.mem_ready_iff hgraph.nodup_ids).mp hready).2.2] at hverdict
      exact hagree.enqueue hjob hverdict
  | refuse hrunning hready hjob hverdict =>
      rw [hagree.needOutcomes_eq hgraph hstate hrunning
        ((Graph.mem_ready_iff hgraph.nodup_ids).mp hready).2.2] at hverdict
      exact hagree.completed hgraph (.refused hjob hverdict rfl)
  | start hqueue _ hjob => exact hagree.launched hqueue hjob
  | elapse time done hflights =>
      refine ⟨hagree.queued, ?_, ?_, hagree.recorded⟩
      · intro flight hflight
        exact hagree.flown flight (hflights.mem_iff.mp hflight)
      · rw [RunState.started_elapse]
        exact hagree.started
  | @collect flight rest record hflight hrecord =>
      have hmem : flight ∈ state.inFlight := by simp [hflight]
      have hfollows := follows_of_recordOf? hagree hmem hrecord
      rw [← hstate.own_record hown hmem hrecord] at hfollows
      have hlanded : scheduler.Agreement { state with inFlight := rest } := by
        apply hagree.landed
        intro other hother
        rw [hflight]
        exact List.mem_cons_of_mem flight hother
      exact collected_of_completed (hlanded.completed hgraph hfollows) fun _ => Agreement.stop

theorem Steps.agreement (hgraph : scheduler.graph.WellFormed)
    (hown : OwnRecords scheduler.execute) {last : RunState}
    (hsteps : scheduler.Steps scheduler.initial last) : scheduler.Agreement last := by
  induction hsteps with
  | refl => exact .initial
  | tail hbefore hstep ih =>
      exact hstep.agreement hgraph hown (Steps.coherent_of_initial hgraph hown hbefore) ih

/-! ## Runs without fail-fast -/

/-- In the end every record follows from how the needs of its job have ended. -/
theorem Ends.follows (hgraph : scheduler.graph.WellFormed) (hown : OwnRecords scheduler.execute)
    (hlenient : scheduler.failFast = false) {last : RunState} (hends : scheduler.Ends last) :
    ∀ id ∈ scheduler.graph.ids, ∃ record, last.records.get? id = some record ∧
      scheduler.needOutcomes last.progress id = scheduler.referenceNeeds id ∧
      scheduler.Follows id (scheduler.referenceNeeds id) record := by
  obtain ⟨hsteps, hended⟩ := hends
  have hstate := Steps.coherent_of_initial hgraph hown hsteps
  have hagree := Steps.agreement hgraph hown hsteps
  have hrunning : last.stopped = false := by
    rw [Bool.eq_false_iff]
    intro hstopped
    obtain ⟨hstrict, _⟩ := (Steps.stopped_iff hgraph hown hsteps).mp hstopped
    rw [hlenient] at hstrict
    cases hstrict
  intro id hid
  obtain ⟨outcome, hend⟩ := hended id hid
  obtain ⟨record, hrecord, _⟩ := (hstate.accounted.ended_iff id outcome).mp hend
  refine ⟨record, hrecord, ?_, ?_⟩
  · apply hagree.needOutcomes_eq hgraph hstate hrunning
    intro need hneed
    exact hended need (hgraph.needs_mem id hid need hneed)
  · rcases hagree.recorded id record hrecord with hfollows | ⟨hstopped, _⟩
    · exact hfollows
    · rw [hrunning] at hstopped
      cases hstopped

/-- An instance that the gate refuses, given how its needs have ended, was not started: neither now
nor while they were on their way did anything else come of it. -/
theorem not_started_of_refused (hgraph : scheduler.graph.WellFormed)
    (hown : OwnRecords scheduler.execute) {last : RunState}
    (hsteps : scheduler.Steps scheduler.initial last) {id : InstanceId} {job : JobInstance}
    {refusal : Refusal} (hjob : scheduler.graph.job? id = some job)
    (hverdict : scheduler.gate.decide job (scheduler.referenceNeeds id) = .refuse refusal) :
    id ∉ last.started ∧ ∀ step, Notice.stepBegun id step ∉ last.log := by
  have hagree := Steps.agreement hgraph hown hsteps
  obtain ⟨launches, hlogged⟩ := Steps.logged hgraph hown hsteps
  have hnot : id ∉ last.started := by
    intro hstarted
    obtain ⟨found, steps, hfound, hrun⟩ := hagree.started id hstarted
    cases hfound.symm.trans hjob
    rw [hverdict] at hrun
    cases hrun
  exact ⟨hnot, fun step hbegun => hnot (hlogged.mem_started_of_stepBegun hbegun)⟩

/-- Without fail-fast a run gives every instance the end of the reference: what the gate decides
about the final outcomes of its needs, and what its execution makes of it if the gate lets it
through. It gives the same ends to all whatever the number of workers, the durations and the order
of completion. -/
theorem run_agrees_with_reference {jobs : List JobInstance}
    {needs : Option (Table String (List String))}
    (hbuild : Graph.build jobs needs = .ok scheduler.graph)
    (hown : OwnRecords scheduler.execute) (hcalm : Uninterrupted scheduler.execute) :
    (∃ last, scheduler.run = .ok last) ∧
    (∀ last, scheduler.run = .ok last → scheduler.Ends last) ∧
    ∀ other : Scheduler, other.graph = scheduler.graph → other.gate = scheduler.gate →
      other.execute = scheduler.execute → other.failFast = false →
      ∀ last, other.Ends last → ∀ id ∈ scheduler.graph.ids,
        ∃ record, last.records.get? id = some record ∧
          record.ending = scheduler.reference id ∧
          other.Follows id (other.needOutcomes last.progress id) record ∧
          ∀ job refusal, scheduler.graph.job? id = some job →
            scheduler.gate.decide job (other.needOutcomes last.progress id) = .refuse refusal →
            id ∉ last.started ∧ ∀ step, Notice.stepBegun id step ∉ last.log := by
  have hgraph := Graph.build_wellFormed hbuild
  refine ⟨?_, fun last => ends_of_run_eq_ok hgraph hown, ?_⟩
  · obtain ⟨_, last, _, _, hrun⟩ := exists_run_eq_ok hgraph hown hcalm
    exact ⟨last, hrun⟩
  · intro other hsame hgate hexecute hother last hends id hid
    have hgraph' : other.graph.WellFormed := hsame ▸ hgraph
    have hown' : OwnRecords other.execute := hexecute ▸ hown
    obtain ⟨record, hrecord, hneeds, hfollows⟩ :=
      hends.follows hgraph' hown' hother id (hsame ▸ hid)
    refine ⟨record, hrecord, ?_, hneeds ▸ hfollows, ?_⟩
    · rw [hfollows.ending_eq hgraph', reference_congr hsame hgate hexecute]
    · intro job refusal hjob hverdict
      rw [hneeds, ← hgate] at hverdict
      exact not_started_of_refused hgraph' hown' hends.1 (hsame ▸ hjob) hverdict

theorem run_agrees_with_reference_small :
    ∃ last final, (smallScheduler 2 (by decide) false).run = .ok last ∧
      (smallScheduler 1 (by decide) false).run = .ok final ∧
      (last.records.get? ⟨"report", []⟩).map JobRecord.ending =
        (final.records.get? ⟨"report", []⟩).map JobRecord.ending := by
  have hbuild : Graph.build smallJobs none = .ok (smallScheduler 2 (by decide) false).graph :=
    build_smallJobs
  have hbuild' : Graph.build smallJobs none = .ok (smallScheduler 1 (by decide) false).graph :=
    build_smallJobs
  obtain ⟨⟨last, hrun⟩, hends, hall⟩ := run_agrees_with_reference hbuild failingBuild_ownRecords
    failingBuild_uninterrupted
  obtain ⟨⟨final, hfinal⟩, hends', _⟩ := run_agrees_with_reference hbuild' failingBuild_ownRecords
    failingBuild_uninterrupted
  have hreport : (⟨"report", []⟩ : InstanceId) ∈ smallGraph.ids := by decide
  obtain ⟨record, hrecord, hending, _⟩ := hall (smallScheduler 2 (by decide) false) rfl rfl rfl
    rfl last (hends last hrun) ⟨"report", []⟩ hreport
  obtain ⟨record', hrecord', hending', _⟩ := hall (smallScheduler 1 (by decide) false) rfl rfl rfl
    rfl final (hends' final hfinal) ⟨"report", []⟩ hreport
  refine ⟨last, final, hrun, hfinal, ?_⟩
  rw [hrecord, hrecord', Option.map_some, Option.map_some, hending, hending']

end CiPipeline.Scheduler
