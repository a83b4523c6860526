import CiPipeline.Proofs.Gate
import CiPipeline.Proofs.Schedule.Log

/-!
What stops a run. It is stopped exactly when fail-fast is on and a failure is recorded, so without
fail-fast it never is, and with fail-fast nothing is started behind a failure.
-/

namespace CiPipeline

/-- A failure is recorded. -/
def RunState.Failed (state : RunState) : Prop :=
  ∃ id record, state.records.get? id = some record ∧ record.outcome = .failure

namespace Scheduler

variable {scheduler : Scheduler} {state : RunState}

/-- Among those that end together only the first may have failed. -/
theorem failed_of_failed_completed {record : JobRecord}
    (hfailed : (scheduler.completed state record).Failed) :
    state.Failed ∨ record.outcome = .failure := by
  obtain ⟨id, found, hfound, hfailure⟩ := hfailed
  rw [completed, RunState.get?_records_settle, Option.or_eq_some_iff] at hfound
  rcases hfound with hold | ⟨_, hnew⟩
  · exact Or.inl ⟨id, found, hold, hfailure⟩
  · rcases List.mem_cons.mp (List.mem_of_find?_eq_some hnew) with rfl | hmem
    · exact Or.inr hfailure
    · obtain ⟨child, _, rfl⟩ := List.mem_map.mp hmem
      cases hfailure

theorem failed_collected (state : RunState) {record : JobRecord} (hfailed : state.Failed) :
    (scheduler.collected state record).Failed := by
  obtain ⟨id, found, hfound, hfailure⟩ := hfailed
  exact ⟨id, found, get?_records_collected hfound, hfailure⟩

/-- A step keeps the one condition on which a run is stopped. -/
theorem Step.stopped_iff (hown : OwnRecords scheduler.execute) {next : RunState}
    (hstep : scheduler.Step state next) (hstate : scheduler.Coherent state)
    (hiff : state.stopped = true ↔ scheduler.failFast = true ∧ state.Failed) :
    next.stopped = true ↔ scheduler.failFast = true ∧ next.Failed := by
  cases hstep with
  | @refuse id _ refusal _ _ _ _ =>
      have hsame : (scheduler.completed state (scheduler.refusedRecord id refusal)).Failed ↔
          state.Failed := by
        constructor
        · intro hfailed
          rcases failed_of_failed_completed hfailed with hfailed | hfailure
          · exact hfailed
          · exact absurd hfailure refusal.outcome_ne_failure
        · rintro ⟨other, found, hfound, hfailure⟩
          exact ⟨other, found, get?_records_completed hfound, hfailure⟩
      rw [hsame, completed, RunState.stopped_settle]
      exact hiff
  | @collect flight rest record hflight hrecord =>
      have hnew := hstate.get?_record_eq_none hown (by simp [hflight]) hrecord
      have hself : (scheduler.collected { state with inFlight := rest } record).records.get?
          record.id = some record := get?_records_collected_self hnew
      constructor
      · intro hstopped
        rcases scheduler.collected_cases { state with inFlight := rest } record with
          hcollected | ⟨_, hfailure, hstrict, _⟩
        · rw [hcollected, completed, RunState.stopped_settle] at hstopped
          obtain ⟨hstrict, hfailed⟩ := hiff.mp hstopped
          exact ⟨hstrict, failed_collected { state with inFlight := rest } hfailed⟩
        · exact ⟨hstrict, record.id, record, hself, hfailure⟩
      · rintro ⟨hstrict, hfailed⟩
        unfold collected at hfailed ⊢
        simp only at hfailed ⊢
        split
        · rw [stop_eq, RunState.stopped_settle]
        · next hgoes =>
            rw [if_neg hgoes] at hfailed
            simp only [completed, RunState.stopped_settle] at hgoes ⊢
            rcases failed_of_failed_completed hfailed with hfailed | hfailure
            · exact hiff.mpr ⟨hstrict, hfailed⟩
            · simpa [hfailure, hstrict] using hgoes
  | _ => exact hiff

theorem Steps.stopped_iff (hgraph : scheduler.graph.WellFormed)
    (hown : OwnRecords scheduler.execute) {last : RunState}
    (hsteps : scheduler.Steps scheduler.initial last) :
    last.stopped = true ↔ scheduler.failFast = true ∧ last.Failed := by
  induction hsteps with
  | refl =>
      constructor
      · intro hstopped
        cases hstopped
      · rintro ⟨_, id, record, hrecord, _⟩
        cases hrecord
  | tail hbefore hstep ih =>
      exact hstep.stopped_iff hown (Steps.coherent_of_initial hgraph hown hbefore) ih

/-- Behind a failure nothing is started: a stop leaves nothing in the queue. -/
theorem not_started_after_failure (hgraph : scheduler.graph.WellFormed)
    (hown : OwnRecords scheduler.execute) (hstrict : scheduler.failFast = true) {last : RunState}
    (hsteps : scheduler.Steps scheduler.initial last) {before after : List Notice}
    {record : JobRecord} (hlog : last.log = before ++ .recorded record :: after)
    (hfailure : record.outcome = .failure) (id : InstanceId) (time : Nat) :
    Notice.started id time ∉ after := by
  intro hstarted
  obtain ⟨earlier, later, rfl⟩ := List.append_of_mem hstarted
  have hsplit : last.log =
      (before ++ .recorded record :: earlier) ++ .started id time :: later := by
    rw [hlog, List.append_assoc, List.cons_append]
  obtain ⟨moment, steps, rest, job, hmoment, hmomentLog, hqueue, _⟩ :=
    Steps.exists_start hsteps hsplit
  have hstate := Steps.coherent_of_initial hgraph hown hmoment
  have hfailed : moment.Failed := by
    have hresult : record ∈ moment.results :=
      List.mem_filterMap.mpr ⟨.recorded record, by simp [hmomentLog], rfl⟩
    rw [hstate.accounted.results_eq, Table.mem_values_iff] at hresult
    obtain ⟨failed, hrecord⟩ := hresult
    exact ⟨failed, record, hrecord, hfailure⟩
  have hstopped := (Steps.stopped_iff hgraph hown hmoment).mpr ⟨hstrict, hfailed⟩
  have hmem := Graph.mem_unstarted_iff.mpr (Or.inr (hstate.dispatchable_of_queue hqueue))
  rw [hstate.unstarted_of_stopped hstopped] at hmem
  cases hmem

end Scheduler
end CiPipeline
