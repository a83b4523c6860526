import CiPipeline.Proofs.Schedule.Course
import CiPipeline.Proofs.Schedule.Log

/-!
When instances are started. What the gate saw when an instance was queued is still true when its
turn comes, after other ends and the cascades behind them; what was started ends by its execution
and is never cancelled. This holds at every moment of every run, whether or not the run is broken
off.
-/

namespace CiPipeline.Scheduler

/-- The state in which a run has ended or was broken off. -/
def endState (scheduler : Scheduler) : RunState :=
  match scheduler.run with
  | .ok state => state
  | .error halt => halt.state

/-- An instance may be started at a moment. -/
structure StartsSafely (scheduler : Scheduler) (moment : RunState) (id : InstanceId) : Prop where
  needs_ended : ∀ need ∈ scheduler.graph.dependencies id, ∃ outcome,
    moment.progress.get? need = some (.ended outcome)
  needs_succeeded : ∀ job, scheduler.graph.job? id = some job →
    Condition.requiresSuccess job.condition = true →
    ∀ need ∈ scheduler.graph.dependencies id,
      moment.progress.get? need = some (.ended .success)
  not_started : id ∉ moment.started
  /-- The instance itself counts. -/
  room : moment.inFlight.length + 1 ≤ scheduler.maxWorkers

variable {scheduler : Scheduler} {state : RunState}

/-- What was started is with its worker, or its record is what its execution came to. -/
theorem Logged.running_or_decided (hdecided : Decided scheduler.execute)
    (hstate : scheduler.Coherent state) {launches : List Launch}
    (hlogged : scheduler.Logged launches state) {id : InstanceId} (hstarted : id ∈ state.started) :
    state.progress.get? id = some .running ∨
      ∃ outcome, state.progress.get? id = some (.ended outcome) ∧
        (outcome = .success ∨ outcome = .failure) := by
  rw [hlogged.started_eq] at hstarted
  obtain ⟨launch, hlaunch, rfl⟩ := List.mem_map.mp hstarted
  obtain ⟨flight, hid, hresult, hwhere⟩ := hlogged.flown launch hlaunch
  rw [← hid]
  rcases hwhere with hflying | ⟨record, hrecord, hbooked⟩
  · exact Or.inl (hstate.running_of_mem hflying)
  · refine Or.inr ⟨record.outcome, ?_, ?_⟩
    · exact (hstate.accounted.ended_iff flight.id record.outcome).mpr ⟨record, hbooked, rfl⟩
    · unfold recordOf? at hrecord
      split at hrecord
      · next result hok =>
          cases hrecord
          exact hdecided _ _ _ (hresult.symm.trans hok)
      · cases hrecord
        exact Or.inr rfl
      · cases hrecord

/-- The first of the queue may be started whenever a worker is free. -/
theorem startsSafely_of_queue (hdecided : Decided scheduler.execute)
    (hstate : scheduler.Coherent state) {launches : List Launch}
    (hlogged : scheduler.Logged launches state) {id : InstanceId} {steps : List Selection}
    {rest : List (InstanceId × List Selection)} (hqueue : state.queue = (id, steps) :: rest)
    (hroom : state.inFlight.length < scheduler.maxWorkers) :
    scheduler.StartsSafely state id := by
  have hqueued : id ∈ state.queue.map Prod.fst := by simp [hqueue]
  have hdispatchable := (hstate.mem_queue_iff id).mp hqueued
  refine
    { needs_ended := ?_
      needs_succeeded := ?_
      not_started := ?_
      room := hroom }
  · intro need hneed
    obtain ⟨outcome, hended, _⟩ := hstate.queued_needs id hqueued need hneed
    exact ⟨outcome, hended⟩
  · intro job hjob hstrict need hneed
    obtain ⟨outcome, hended, hsuccess⟩ := hstate.queued_needs id hqueued need hneed
    rw [hsuccess (by rw [Graph.isStrict, hjob]; exact hstrict)] at hended
    exact hended
  · intro hstarted
    rcases hlogged.running_or_decided hdecided hstate hstarted with h | ⟨outcome, h, _⟩
    · rw [hdispatchable] at h
      cases h
    · rw [hdispatchable] at h
      cases h

/-- The end of a run is a state to which steps have led; an interruption leaves only the workers'
jobs undetermined. -/
theorem endState_reachable (hgraph : scheduler.graph.WellFormed)
    (hown : OwnRecords scheduler.execute) :
    ∃ last flights, scheduler.Steps scheduler.initial last ∧
      scheduler.endState = { last with inFlight := flights } := by
  have hleads := run_leads hgraph hown
  unfold endState
  generalize scheduler.run = result at hleads
  cases hleads with
  | @arrives last hsteps _ => exact ⟨last, last.inFlight, hsteps, rfl⟩
  | interrupted last flights hsteps _ _ => exact ⟨last, flights, hsteps, rfl⟩

/-- Wherever the log of a run says that an instance was started, it was started safely; what is
skipped or cancelled was never started, and all calls were made for instances that were. -/
theorem starts_are_safe {jobs : List JobInstance} {needs : Option (Table String (List String))}
    (hbuild : Graph.build jobs needs = .ok scheduler.graph)
    (hown : OwnRecords scheduler.execute) (hdecided : Decided scheduler.execute) :
    (∃ last flights, scheduler.Steps scheduler.initial last ∧
      scheduler.endState = { last with inFlight := flights }) ∧
    ∀ last, scheduler.Steps scheduler.initial last →
      (∀ before id time after, last.log = before ++ Notice.started id time :: after →
        ∃ moment steps rest job, scheduler.Steps scheduler.initial moment ∧
          moment.log = before ∧ moment.queue = (id, steps) :: rest ∧
          scheduler.StartsSafely moment id ∧
          scheduler.Steps (scheduler.launched moment id steps rest job) last) ∧
      (∀ id outcome, last.progress.get? id = some (.ended outcome) →
        (outcome = .skipped ∨ outcome = .cancelled → id ∉ last.started) ∧
        (id ∈ last.started → outcome = .success ∨ outcome = .failure)) ∧
      ∃ launches : List Launch, last.started = launches.map (fun launch => launch.job.id) ∧
        last.calls = launches.flatMap fun launch =>
          (scheduler.execute launch.job launch.steps).calls := by
  have hgraph := Graph.build_wellFormed hbuild
  refine ⟨endState_reachable hgraph hown, ?_⟩
  intro last hsteps
  have hstate := Steps.coherent_of_initial hgraph hown hsteps
  obtain ⟨launches, hlogged⟩ := Steps.logged hgraph hown hsteps
  have hstarted : ∀ id outcome, last.progress.get? id = some (.ended outcome) →
      id ∈ last.started → outcome = .success ∨ outcome = .failure := by
    intro id outcome hended hstarted
    rcases hlogged.running_or_decided hdecided hstate hstarted with h | ⟨other, h, hother⟩
    · rw [hended] at h
      cases h
    · rw [hended] at h
      cases h
      exact hother
  refine ⟨?_, ?_, launches, hlogged.started_eq, hlogged.calls_eq⟩
  · intro before id time after hlog
    obtain ⟨moment, steps, rest, job, hmoment, hbefore, hqueue, hroom, _, hmore⟩ :=
      Steps.exists_start hsteps hlog
    have hcoherent := Steps.coherent_of_initial hgraph hown hmoment
    obtain ⟨earlier, hearlier⟩ := Steps.logged hgraph hown hmoment
    exact ⟨moment, steps, rest, job, hmoment, hbefore, hqueue,
      startsSafely_of_queue hdecided hcoherent hearlier hqueue hroom, hmore⟩
  · intro id outcome hended
    refine ⟨?_, hstarted id outcome hended⟩
    intro hlost hmem
    rcases hstarted id outcome hended hmem with rfl | rfl
    · simp at hlost
    · simp at hlost

theorem starts_are_safe_small :
    ∃ moment, (smallScheduler 2 (by decide) false).StartsSafely moment ⟨"report", []⟩ := by
  have hbuild : Graph.build smallJobs none = .ok (smallScheduler 2 (by decide) false).graph :=
    build_smallJobs
  obtain ⟨⟨last, flights, hsteps, hend⟩, hall⟩ := starts_are_safe
    hbuild failingBuild_ownRecords failingBuild_decided
  have hstarted : (smallScheduler 2 (by decide) false).endState.started =
      [⟨"build", []⟩, ⟨"report", []⟩] := by
    decide +kernel
  rw [hend] at hstarted
  change last.log.filterMap Notice.started? = _ at hstarted
  have hmem : (⟨"report", []⟩ : InstanceId) ∈ last.log.filterMap Notice.started? := by
    rw [hstarted]
    decide
  obtain ⟨notice, hnotice, hreport⟩ := List.mem_filterMap.mp hmem
  cases notice with
  | started id time =>
      cases hreport
      obtain ⟨before, after, hlog⟩ := List.append_of_mem hnotice
      obtain ⟨moment, _, _, _, _, _, _, hsafe, _⟩ := (hall last hsteps).1 before _ time after hlog
      exact ⟨moment, hsafe⟩
  | _ => cases hreport

end CiPipeline.Scheduler
