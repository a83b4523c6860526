import CiPipeline.Proofs.Schedule.Agreement

/-!
What fail-fast changes in the end of a run: a stop only cancels, and whether anything fails at all
is settled by the reference, with fail-fast or without.
-/

namespace CiPipeline.Scheduler

variable {scheduler : Scheduler}

/-- After a run every instance has the end of the reference, unless a stop cancelled it. -/
theorem Ends.ending_or_cancelled (hgraph : scheduler.graph.WellFormed)
    (hown : OwnRecords scheduler.execute) {last : RunState} (hends : scheduler.Ends last) :
    ∀ id ∈ scheduler.graph.ids, ∃ record, last.records.get? id = some record ∧
      (record.ending = scheduler.reference id ∨
        record.outcome = .cancelled ∧ last.stopped = true) := by
  obtain ⟨hsteps, hended⟩ := hends
  have hstate := Steps.coherent_of_initial hgraph hown hsteps
  have hagree := Steps.agreement hgraph hown hsteps
  intro id hid
  obtain ⟨outcome, hend⟩ := hended id hid
  obtain ⟨record, hrecord, _⟩ := (hstate.accounted.ended_iff id outcome).mp hend
  refine ⟨record, hrecord, ?_⟩
  rcases hagree.recorded id record hrecord with hfollows | ⟨hstopped, rfl⟩
  · exact Or.inl (hfollows.ending_eq hgraph)
  · exact Or.inr ⟨rfl, hstopped⟩

theorem Ends.mem_ids (hgraph : scheduler.graph.WellFormed) (hown : OwnRecords scheduler.execute)
    {last : RunState} (hends : scheduler.Ends last) {id : InstanceId} {record : JobRecord}
    (hrecord : last.records.get? id = some record) : id ∈ scheduler.graph.ids := by
  have hstate := Steps.coherent_of_initial hgraph hown hends.1
  exact hstate.mem_keys ((hstate.accounted.ended_iff id record.outcome).mpr ⟨record, hrecord, rfl⟩)

/-- Whether a run fails can be told from the reference: only a failure can hide others. -/
theorem Ends.failed_iff (hgraph : scheduler.graph.WellFormed) (hown : OwnRecords scheduler.execute)
    {last : RunState} (hends : scheduler.Ends last) :
    last.Failed ↔ ∃ id ∈ scheduler.graph.ids, (scheduler.reference id).outcome = .failure := by
  have hall := hends.ending_or_cancelled hgraph hown
  constructor
  · rintro ⟨id, record, hrecord, hfailure⟩
    have hid := hends.mem_ids hgraph hown hrecord
    obtain ⟨found, hfound, hending⟩ := hall id hid
    cases hfound.symm.trans hrecord
    rcases hending with hending | ⟨hcancelled, _⟩
    · exact ⟨id, hid, by rw [← hending]; exact hfailure⟩
    · rw [hfailure] at hcancelled
      cases hcancelled
  · rintro ⟨id, hid, hfailure⟩
    obtain ⟨record, hrecord, hending⟩ := hall id hid
    -- if it was cancelled instead, a failure that is recorded has stopped the run
    rcases hending with hending | ⟨_, hstopped⟩
    · exact ⟨id, record, hrecord, (congrArg Ending.outcome hending).trans hfailure⟩
    · exact ((Steps.stopped_iff hgraph hown hends.1).mp hstopped).2

end CiPipeline.Scheduler
