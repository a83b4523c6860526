import CiPipeline.Console
import CiPipeline.Proofs.Schedule.Course

/-!
A run that is not interrupted returns, and its books are complete: every instance has ended and has
one record, which tells its end, and the console has shown each record once.
-/

namespace CiPipeline

/-- What the console shows of recorded ends is one result for each. -/
theorem Console.notices_filter_record? (console : Console) (showSteps : Bool)
    (log : List Notice) :
    console.notices showSteps (log.filter fun notice => notice.record?.isSome) =
      .concat ((log.filterMap Notice.record?).map console.jobResult) := by
  unfold notices
  congr 1
  induction log with
  | nil => rfl
  | cons notice rest ih =>
      cases notice with
      | recorded record => exact congrArg (List.cons (console.jobResult record)) ih
      | _ => exact ih

namespace Scheduler

/-- Every instance has come to its end, and the end of each is recorded once and shown once. -/
structure Complete (scheduler : Scheduler) (last : RunState) : Prop where
  ended : ∀ id ∈ scheduler.graph.ids, ∃ record, last.records.get? id = some record ∧
    record.id = id ∧ last.progress.get? id = some (.ended record.outcome)
  keys_perm : last.records.keys.Perm scheduler.graph.ids
  results_eq : last.results = last.records.values
  results_perm : (last.results.map JobRecord.id).Perm scheduler.graph.ids
  printed_eq : ∀ (console : Console) (showSteps : Bool),
    console.notices showSteps (last.log.filter fun notice => notice.record?.isSome) =
      .concat (last.records.values.map console.jobResult)

variable {scheduler : Scheduler} {state : RunState}

/-- Books that are in order are complete once everything has ended. -/
theorem Coherent.complete (hgraph : scheduler.graph.WellFormed)
    (hstate : scheduler.Coherent state)
    (hended : ∀ id ∈ scheduler.graph.ids, ∃ outcome,
      state.progress.get? id = some (.ended outcome)) :
    scheduler.Complete state := by
  have hbooks := hstate.accounted
  have hrecord : ∀ id ∈ scheduler.graph.ids, ∃ record, state.records.get? id = some record ∧
      record.id = id ∧ state.progress.get? id = some (.ended record.outcome) := by
    intro id hid
    obtain ⟨outcome, hend⟩ := hended id hid
    obtain ⟨record, hrecord, rfl⟩ := (hbooks.ended_iff id outcome).mp hend
    exact ⟨record, hrecord, hbooks.record_id id record hrecord, hend⟩
  have hkeys : state.records.keys.Perm scheduler.graph.ids := by
    have hnodup : state.records.keys.Nodup := state.records.nodup_keys
    rw [List.perm_ext_iff_of_nodup hnodup hgraph.nodup_ids]
    intro id
    rw [Table.mem_keys_iff]
    constructor
    · rintro ⟨record, hrecord⟩
      exact hstate.mem_keys ((hbooks.ended_iff id record.outcome).mpr ⟨record, hrecord, rfl⟩)
    · intro hid
      obtain ⟨record, hrecord, _⟩ := hrecord id hid
      exact ⟨record, hrecord⟩
  have hvalues : state.records.values.map JobRecord.id = state.records.keys := by
    unfold Table.values Table.keys
    rw [List.map_map]
    apply List.map_congr_left
    intro entry hentry
    exact hbooks.record_id entry.1 entry.2 (Table.get?_eq_some_iff.mpr hentry)
  refine
    { ended := hrecord
      keys_perm := hkeys
      results_eq := hbooks.results_eq
      results_perm := ?_
      printed_eq := ?_ }
  · rw [hbooks.results_eq, hvalues]
    exact hkeys
  · intro console showSteps
    rw [Console.notices_filter_record?, ← hbooks.results_eq]
    rfl

/-- A state from which a run is complete after so many waits at most, whichever jobs are done at the
end of each wait and in whatever order their results are taken. -/
def Settles (scheduler : Scheduler) : Nat → RunState → Prop
  | 0, state => ∃ last, scheduler.Prepares state last ∧ last.inFlight = [] ∧ scheduler.Complete last
  | waits + 1, state => ∃ busy, scheduler.Prepares state busy ∧
      (busy.inFlight = [] → scheduler.Complete busy) ∧
      ∀ time done running, (done ++ running).Perm busy.inFlight → done ≠ [] →
        ∃ next, done.foldlM scheduler.collect (busy.elapse time running (done.map Flight.id)) =
          .ok next ∧ Settles scheduler waits next

theorem settles_of_openCount_le (hgraph : scheduler.graph.WellFormed)
    (hown : OwnRecords scheduler.execute) (hcalm : Uninterrupted scheduler.execute)
    (hstate : scheduler.Coherent state) {waits : Nat}
    (hwaits : scheduler.openCount state ≤ waits) : scheduler.Settles waits state := by
  induction waits generalizing state with
  | zero =>
      obtain ⟨last, _, hprepared⟩ := prepare_ok hgraph hown hstate
      have hlast := Steps.coherent hgraph hown hprepared.steps hstate
      have hidle : last.inFlight = [] := by
        by_cases hidle : last.inFlight = []
        · exact hidle
        · obtain ⟨next, _, _, hfewer⟩ :=
            (await_leads hgraph hown hlast hidle).exists_eq_ok hgraph hown hcalm hlast
          have hopen := openCount_le hgraph hown hprepared.steps hstate
          omega
      exact ⟨last, hprepared.prepares, hidle,
        hlast.complete hgraph (hprepared.ended hgraph hlast hidle)⟩
  | succ waits ih =>
      obtain ⟨busy, _, hprepared⟩ := prepare_ok hgraph hown hstate
      have hbusy := Steps.coherent hgraph hown hprepared.steps hstate
      refine ⟨busy, hprepared.prepares, ?_, ?_⟩
      · intro hidle
        exact hbusy.complete hgraph (hprepared.ended hgraph hbusy hidle)
      · intro time done running hbatch hdone
        obtain ⟨next, hcollect, hsteps, hfewer⟩ :=
          (batch_leads hgraph hown hbusy time hbatch hdone).exists_eq_ok hgraph hown hcalm hbusy
        have hopen := openCount_le hgraph hown hprepared.steps hstate
        exact ⟨next, hcollect, ih (Steps.coherent hgraph hown hsteps hbusy) (by omega)⟩

/-- On a graph that was built a run returns after at most as many waits as there are instances,
without an illegal transition and with nothing unfinished, and every instance is recorded exactly
once. It does so in whatever order the jobs are done. -/
theorem run_terminates_complete {jobs : List JobInstance}
    {needs : Option (Table String (List String))}
    (hbuild : Graph.build jobs needs = .ok scheduler.graph)
    (hown : OwnRecords scheduler.execute) (hcalm : Uninterrupted scheduler.execute) :
    (∃ waits last, waits ≤ scheduler.graph.ids.length ∧
      scheduler.Waits waits scheduler.initial last ∧ scheduler.run = .ok last ∧
      scheduler.Complete last) ∧
    scheduler.Settles scheduler.graph.ids.length scheduler.initial := by
  have hgraph := Graph.build_wellFormed hbuild
  constructor
  · obtain ⟨waits, last, hwaits, hcourse, hrun⟩ := exists_run_eq_ok hgraph hown hcalm
    obtain ⟨hsteps, hended⟩ := ends_of_run_eq_ok hgraph hown hrun
    have hlast := Steps.coherent_of_initial hgraph hown hsteps
    exact ⟨waits, last, hwaits, hcourse, hrun, hlast.complete hgraph hended⟩
  · exact settles_of_openCount_le hgraph hown hcalm (.initial hgraph) List.countP_le_length

theorem run_terminates_complete_small :
    ∃ waits last, waits ≤ 3 ∧ (smallScheduler 2 (by decide) true).Waits waits
        (smallScheduler 2 (by decide) true).initial last ∧
      (smallScheduler 2 (by decide) true).run = .ok last ∧
      (smallScheduler 2 (by decide) true).Complete last := by
  have hbuild : Graph.build smallJobs none = .ok (smallScheduler 2 (by decide) true).graph :=
    build_smallJobs
  exact (run_terminates_complete hbuild failingBuild_ownRecords failingBuild_uninterrupted).1

end Scheduler
end CiPipeline
