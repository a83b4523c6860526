import CiPipeline.Proofs.Schedule.Step
import Mathlib.Data.List.Nodup

/-!
What holds between the steps of a run. The queue holds the dispatchable instances and the workers
hold the running ones, each of them once; a queued instance has only needs that have ended, and only
successful ones if it is strict; and no strict instance stays pending behind one that ended without
success.
-/

namespace CiPipeline.Scheduler

/-- The parts of a state fit together. -/
structure Coherent (scheduler : Scheduler) (state : RunState) : Prop where
  accounted : state.Accounted
  keys_eq : state.progress.keys = scheduler.graph.ids
  nodup_queue : (state.queue.map Prod.fst).Nodup
  mem_queue_iff : ∀ id, id ∈ state.queue.map Prod.fst ↔
    state.progress.get? id = some .dispatchable
  nodup_inFlight : (state.inFlight.map Flight.id).Nodup
  mem_inFlight_iff : ∀ id, id ∈ state.inFlight.map Flight.id ↔
    state.progress.get? id = some .running
  inFlight_le : state.inFlight.length ≤ scheduler.maxWorkers
  flown : ∀ flight ∈ state.inFlight, ∃ job steps, scheduler.graph.job? flight.id = some job ∧
    flight.result = (scheduler.execute job steps).result
  queued_needs : ∀ id ∈ state.queue.map Prod.fst, ∀ need ∈ scheduler.graph.dependencies id,
    ∃ outcome, state.progress.get? need = some (.ended outcome) ∧
      (scheduler.graph.isStrict id = true → outcome = .success)
  needs_succeeded : ∀ id, state.progress.get? id = some .pending →
    scheduler.graph.isStrict id = true → ∀ need ∈ scheduler.graph.dependencies id,
    ∀ outcome, state.progress.get? need = some (.ended outcome) → outcome = .success
  /-- A stop leaves nothing that could still be started. -/
  unstarted_of_stopped : state.stopped = true → Graph.unstarted state.progress = []

variable {scheduler : Scheduler} {state : RunState}

namespace Coherent

theorem initial (hgraph : scheduler.graph.WellFormed) :
    scheduler.Coherent scheduler.initial where
  accounted :=
    { ended_iff := by
        intro id outcome
        constructor
        · intro hended
          exact absurd (Graph.get?_fresh hgraph.nodup_ids hended) (by simp)
        · rintro ⟨record, hrecord, _⟩
          cases hrecord
      record_id := by
        intro id record hrecord
        cases hrecord
      results_eq := rfl }
  keys_eq := Graph.keys_fresh hgraph.nodup_ids
  nodup_queue := List.nodup_nil
  mem_queue_iff id := by
    constructor
    · intro hmem
      cases hmem
    · intro hstate
      exact absurd (Graph.get?_fresh hgraph.nodup_ids hstate) (by simp)
  nodup_inFlight := List.nodup_nil
  mem_inFlight_iff id := by
    constructor
    · intro hmem
      cases hmem
    · intro hstate
      exact absurd (Graph.get?_fresh hgraph.nodup_ids hstate) (by simp)
  inFlight_le := Nat.zero_le _
  flown := by
    intro flight hflight
    cases hflight
  queued_needs := by
    intro id hid
    cases hid
  needs_succeeded := by
    intro id _ _ need _ outcome hended
    exact absurd (Graph.get?_fresh hgraph.nodup_ids hended) (by simp)
  unstarted_of_stopped := by
    intro hstopped
    cases hstopped

theorem mem_keys (hstate : scheduler.Coherent state) {id : InstanceId} {current : JobState}
    (hcurrent : state.progress.get? id = some current) : id ∈ scheduler.graph.ids := by
  rw [← hstate.keys_eq]
  exact Table.mem_keys_iff.mpr ⟨current, hcurrent⟩

/-- The first of the queue is dispatchable. -/
theorem dispatchable_of_queue (hstate : scheduler.Coherent state) {id : InstanceId}
    {steps : List Selection} {rest : List (InstanceId × List Selection)}
    (hqueue : state.queue = (id, steps) :: rest) :
    state.progress.get? id = some .dispatchable :=
  (hstate.mem_queue_iff id).mp (by simp [hqueue])

theorem running_of_mem (hstate : scheduler.Coherent state) {flight : Flight}
    (hflight : flight ∈ state.inFlight) : state.progress.get? flight.id = some .running :=
  (hstate.mem_inFlight_iff flight.id).mp (List.mem_map_of_mem hflight)

/-- A record that a worker hands over is a record of the job it was given. -/
theorem own_record (hstate : scheduler.Coherent state) (hown : OwnRecords scheduler.execute)
    {flight : Flight} (hflight : flight ∈ state.inFlight) {record : JobRecord}
    (hrecord : scheduler.recordOf? flight = some record) : record.id = flight.id := by
  obtain ⟨job, steps, hjob, hresult⟩ := hstate.flown flight hflight
  unfold recordOf? at hrecord
  split at hrecord
  · next result hok =>
      cases hrecord
      exact (hown job steps record (hresult.symm.trans hok)).trans (Graph.id_of_job? hjob)
  · cases hrecord
    rfl
  · cases hrecord

/-- When a worker hands over a record, the job had none before. -/
theorem get?_record_eq_none (hstate : scheduler.Coherent state) (hown : OwnRecords scheduler.execute)
    {flight : Flight} (hflight : flight ∈ state.inFlight) {record : JobRecord}
    (hrecord : scheduler.recordOf? flight = some record) :
    state.records.get? record.id = none := by
  apply hstate.accounted.get?_record_eq_none
  intro outcome hended
  rw [hstate.own_record hown hflight hrecord, hstate.running_of_mem hflight] at hended
  cases hended

/-- Queueing a ready instance. -/
theorem enqueue (hgraph : scheduler.graph.WellFormed) (hstate : scheduler.Coherent state)
    (hrunning : state.stopped = false) {id : InstanceId}
    (hready : id ∈ scheduler.graph.ready state.progress) (steps : List Selection) :
    scheduler.Coherent (state.enqueue id steps) := by
  obtain ⟨hid, hpending, hneeds⟩ := (Graph.mem_ready_iff hgraph.nodup_ids).mp hready
  have hget : ∀ x, (state.enqueue id steps).progress.get? x =
      if id = x then some .dispatchable else state.progress.get? x :=
    fun x => Table.get?_insert state.progress id x .dispatchable
  have hended : ∀ x outcome, (state.enqueue id steps).progress.get? x = some (.ended outcome) ↔
      state.progress.get? x = some (.ended outcome) :=
    Graph.ended_insert_iff (by simp [hpending]) (by simp)
  refine
    { accounted := hstate.accounted.of_unended _ hended rfl rfl
      keys_eq := ?_
      nodup_queue := ?_
      mem_queue_iff := ?_
      nodup_inFlight := hstate.nodup_inFlight
      mem_inFlight_iff := ?_
      inFlight_le := hstate.inFlight_le
      flown := hstate.flown
      queued_needs := ?_
      needs_succeeded := ?_
      unstarted_of_stopped := ?_ }
  · rw [← hstate.keys_eq]
    exact Table.keys_insert_of_mem (hstate.keys_eq ▸ hid) _
  · simp only [RunState.enqueue, List.map_append, List.map_singleton]
    rw [← List.concat_eq_append]
    refine List.Nodup.concat ?_ hstate.nodup_queue
    intro hmem
    have hqueued := (hstate.mem_queue_iff id).mp hmem
    rw [hpending] at hqueued
    cases hqueued
  · intro x
    rw [hget]
    simp only [RunState.enqueue, List.map_append, List.map_singleton, List.mem_append,
      List.mem_singleton, hstate.mem_queue_iff]
    split
    · next heq => simp [heq]
    · next hne => simp [Ne.symm hne]
  · intro x
    rw [hget]
    refine (hstate.mem_inFlight_iff x).trans ?_
    split
    · next heq => simp [← heq, hpending]
    · rfl
  · intro x hx need hneed
    simp only [RunState.enqueue, List.map_append, List.map_singleton, List.mem_append,
      List.mem_singleton] at hx
    rcases hx with hx | rfl
    · obtain ⟨outcome, hneeded, hstrict⟩ := hstate.queued_needs x hx need hneed
      exact ⟨outcome, (hended need outcome).mpr hneeded, hstrict⟩
    · obtain ⟨outcome, hneeded⟩ := hneeds need hneed
      refine ⟨outcome, (hended need outcome).mpr hneeded, ?_⟩
      intro hstrict
      exact hstate.needs_succeeded x hpending hstrict need hneed outcome hneeded
  · intro x hx hstrict need hneed outcome hneeded
    have hwas := Graph.get?_of_insert (by simp) hx
    exact hstate.needs_succeeded x hwas hstrict need hneed outcome
      ((hended need outcome).mp hneeded)
  · intro hstopped
    change state.stopped = true at hstopped
    rw [hrunning] at hstopped
    cases hstopped

/-- Starting the first instance of the queue. -/
theorem launched (hstate : scheduler.Coherent state)
    {id : InstanceId} {steps : List Selection} {rest : List (InstanceId × List Selection)}
    (hqueue : state.queue = (id, steps) :: rest)
    (hroom : state.inFlight.length < scheduler.maxWorkers) {job : JobInstance}
    (hjob : scheduler.graph.job? id = some job) :
    scheduler.Coherent (scheduler.launched state id steps rest job) := by
  have hdispatchable := hstate.dispatchable_of_queue hqueue
  have hget : ∀ x, (scheduler.launched state id steps rest job).progress.get? x =
      if id = x then some .running else state.progress.get? x :=
    fun x => Table.get?_insert state.progress id x .running
  have hended : ∀ x outcome,
      (scheduler.launched state id steps rest job).progress.get? x = some (.ended outcome) ↔
        state.progress.get? x = some (.ended outcome) :=
    Graph.ended_insert_iff (by simp [hdispatchable]) (by simp)
  have hnodup := hstate.nodup_queue
  rw [hqueue] at hnodup
  simp only [List.map_cons, List.nodup_cons] at hnodup
  have hflights : (scheduler.launched state id steps rest job).inFlight.map Flight.id =
      state.inFlight.map Flight.id ++ [id] := by
    simp [Scheduler.launched, RunState.note]
  refine
    { accounted := hstate.accounted.of_unended _ hended rfl (results_launched id steps rest job)
      keys_eq := ?_
      nodup_queue := hnodup.2
      mem_queue_iff := ?_
      nodup_inFlight := ?_
      mem_inFlight_iff := ?_
      inFlight_le := ?_
      flown := ?_
      queued_needs := ?_
      needs_succeeded := ?_
      unstarted_of_stopped := ?_ }
  · rw [← hstate.keys_eq]
    apply Table.keys_insert_of_mem
    exact Table.mem_keys_iff.mpr ⟨_, hdispatchable⟩
  · intro x
    rw [hget]
    change x ∈ rest.map Prod.fst ↔ _
    have hx := hstate.mem_queue_iff x
    rw [hqueue, List.map_cons, List.mem_cons] at hx
    split
    · next heq =>
        subst heq
        simpa using hnodup.1
    · next hne =>
        rw [← hx]
        simp [Ne.symm hne]
  · rw [hflights, ← List.concat_eq_append]
    refine List.Nodup.concat ?_ hstate.nodup_inFlight
    intro hmem
    have hrunning := (hstate.mem_inFlight_iff id).mp hmem
    rw [hdispatchable] at hrunning
    cases hrunning
  · intro x
    rw [hget, hflights, List.mem_append, List.mem_singleton, hstate.mem_inFlight_iff]
    split
    · next heq => simp [heq]
    · next hne => simp [Ne.symm hne]
  · simp only [Scheduler.launched, RunState.note, List.length_append, List.length_singleton]
    omega
  · intro flight hflight
    simp only [Scheduler.launched, RunState.note, List.mem_append, List.mem_singleton] at hflight
    rcases hflight with hflight | rfl
    · exact hstate.flown flight hflight
    · exact ⟨job, steps, hjob, rfl⟩
  · intro x hx need hneed
    obtain ⟨outcome, hneeded, hstrict⟩ := hstate.queued_needs x
      (by rw [hqueue]; exact List.mem_cons_of_mem id hx) need hneed
    exact ⟨outcome, (hended need outcome).mpr hneeded, hstrict⟩
  · intro x hx hstrict need hneed outcome hneeded
    have hwas := Graph.get?_of_insert (by simp) hx
    exact hstate.needs_succeeded x hwas hstrict need hneed outcome
      ((hended need outcome).mp hneeded)
  · intro hstopped
    have hnone := hstate.unstarted_of_stopped hstopped
    have hmem := Graph.mem_unstarted_iff.mpr (Or.inr hdispatchable)
    rw [hnone] at hmem
    cases hmem

/-- Letting time pass. -/
theorem elapse (hstate : scheduler.Coherent state) (time : Nat) {flights : List Flight}
    (done : List InstanceId) (hflights : flights.Perm state.inFlight) :
    scheduler.Coherent (state.elapse time flights done) where
  accounted := by
    refine hstate.accounted.of_unended (state.elapse time flights done) ?_ rfl ?_
    · exact fun _ _ => Iff.rfl
    · exact RunState.results_elapse state time flights done
  keys_eq := hstate.keys_eq
  nodup_queue := hstate.nodup_queue
  mem_queue_iff := hstate.mem_queue_iff
  nodup_inFlight := ((hflights.map Flight.id).nodup_iff).mpr hstate.nodup_inFlight
  mem_inFlight_iff id :=
    ((hflights.map Flight.id).mem_iff).trans (hstate.mem_inFlight_iff id)
  inFlight_le := hflights.length_eq ▸ hstate.inFlight_le
  flown flight hflight := hstate.flown flight (hflights.mem_iff.mp hflight)
  queued_needs := hstate.queued_needs
  needs_succeeded := hstate.needs_succeeded
  unstarted_of_stopped := hstate.unstarted_of_stopped

/-- Those that end together are different instances. -/
theorem nodup_groupOf (hgraph : scheduler.graph.WellFormed) (state : RunState)
    (record : JobRecord) : ((scheduler.groupOf state record).map JobRecord.id).Nodup := by
  rw [groupOf, List.map_cons, map_id_cancelledRecords, List.nodup_cons]
  refine ⟨?_, Graph.nodup_overtaken hgraph.nodup_ids record.outcome⟩
  intro hmem
  exact (Graph.of_mem_overtaken hgraph.nodup_ids hmem).2.1 rfl

/-- What an end takes along was pending and is cancelled. -/
theorem of_mem_groupOf (hgraph : scheduler.graph.WellFormed) {record other : JobRecord}
    (hother : other ∈ scheduler.groupOf state record) :
    other = record ∨
      state.progress.get? other.id = some .pending ∧ other.outcome = .cancelled := by
  rcases List.mem_cons.mp hother with heq | hmem
  · exact Or.inl heq
  · obtain ⟨id, hid, rfl⟩ := List.mem_map.mp hmem
    exact Or.inr ⟨(Graph.of_mem_overtaken hgraph.nodup_ids hid).2.2.1, rfl⟩

/-- An end, with what it takes along, keeps the ends there were. -/
theorem ended_completed (hgraph : scheduler.graph.WellFormed) (state : RunState)
    {record : JobRecord}
    (hopen : ∀ outcome, state.progress.get? record.id ≠ some (.ended outcome)) {id : InstanceId}
    {outcome : Outcome} (hended : state.progress.get? id = some (.ended outcome)) :
    (scheduler.completed state record).progress.get? id = some (.ended outcome) := by
  rw [get?_completed]
  split
  · next hmem =>
      have hpending := (Graph.of_mem_overtaken hgraph.nodup_ids hmem).2.2.1
      rw [hended] at hpending
      cases hpending
  · split
    · next heq => exact absurd (heq ▸ hended) (hopen outcome)
    · exact hended

/-- What has not ended after an end had not ended before, and is where it was. -/
theorem of_get?_completed {record : JobRecord} {id : InstanceId} {current : JobState}
    (hunended : ∀ outcome, current ≠ .ended outcome)
    (hcurrent : (scheduler.completed state record).progress.get? id = some current) :
    id ≠ record.id ∧ state.progress.get? id = some current := by
  rw [get?_completed] at hcurrent
  split at hcurrent
  · cases hcurrent
    exact absurd rfl (hunended .cancelled)
  · split at hcurrent
    · cases hcurrent
      exact absurd rfl (hunended record.outcome)
    · next hne => exact ⟨Ne.symm hne, hcurrent⟩

/-- No strict instance is left pending behind an end without success. -/
theorem needs_succeeded_completed (hgraph : scheduler.graph.WellFormed) {record : JobRecord}
    (hid : record.id ∈ scheduler.graph.ids)
    (hneeds : scheduler.graph.NeedsSucceeded state.progress) :
    scheduler.graph.NeedsSucceeded (scheduler.completed state record).progress := by
  rw [progress_completed]
  exact hneeds.end hgraph.nodup_ids hid record.outcome

/-- The end of an instance that is pending, or of one whose worker has just let go of it. -/
theorem completed (hgraph : scheduler.graph.WellFormed) (hstate : scheduler.Coherent state)
    {record : JobRecord} (flights : List Flight)
    (hcurrent : state.progress.get? record.id = some .pending ∨
      state.progress.get? record.id = some .running)
    (hnodup : (flights.map Flight.id).Nodup)
    (hflights : ∀ id, id ∈ flights.map Flight.id ↔
      id ≠ record.id ∧ state.progress.get? id = some .running)
    (hsublist : flights.Sublist state.inFlight) :
    scheduler.Coherent (scheduler.completed { state with inFlight := flights } record) := by
  have hopen : ∀ outcome, state.progress.get? record.id ≠ some (.ended outcome) := by
    intro outcome hended
    rcases hcurrent with hcurrent | hcurrent <;> simp [hcurrent] at hended
  have hid : record.id ∈ scheduler.graph.ids := by
    rcases hcurrent with hcurrent | hcurrent <;> exact hstate.mem_keys hcurrent
  have hended : ∀ {id : InstanceId} {outcome : Outcome},
      state.progress.get? id = some (.ended outcome) →
      (scheduler.completed { state with inFlight := flights } record).progress.get? id =
        some (.ended outcome) :=
    fun {id outcome} => ended_completed hgraph { state with inFlight := flights } hopen
  -- an instance on its way that is neither the one that ended nor overtaken stays where it was
  have hstays : ∀ {id : InstanceId} {current : JobState}, (∀ outcome, current ≠ .ended outcome) →
      current ≠ .pending →
      ((scheduler.completed { state with inFlight := flights } record).progress.get? id =
        some current ↔ id ≠ record.id ∧ state.progress.get? id = some current) := by
    intro id current hunended hnot
    constructor
    · exact of_get?_completed hunended
    · rintro ⟨hne, hwas⟩
      rw [get?_completed, if_neg, if_neg (Ne.symm hne)]
      · exact hwas
      · intro hmem
        have hpending := (Graph.of_mem_overtaken hgraph.nodup_ids hmem).2.2.1
        exact hnot (Option.some.inj (hwas.symm.trans hpending))
  refine
    { accounted := ?_
      keys_eq := ?_
      nodup_queue := ?_
      mem_queue_iff := ?_
      nodup_inFlight := ?_
      mem_inFlight_iff := ?_
      inFlight_le := ?_
      flown := ?_
      queued_needs := ?_
      needs_succeeded := ?_
      unstarted_of_stopped := ?_ }
  · have hbooks : ({ state with inFlight := flights } : RunState).Accounted :=
      ⟨hstate.accounted.ended_iff, hstate.accounted.record_id, hstate.accounted.results_eq⟩
    apply hbooks.settle (nodup_groupOf hgraph _ record)
    intro other hother outcome
    rcases of_mem_groupOf hgraph hother with rfl | ⟨hpending, _⟩
    · exact hopen outcome
    · simp [hpending]
  · rw [← hstate.keys_eq]
    apply RunState.keys_settle
    intro other hother
    rw [hstate.keys_eq]
    rcases of_mem_groupOf hgraph hother with rfl | ⟨hpending, _⟩
    · exact hid
    · exact hstate.mem_keys hpending
  · rw [Scheduler.completed, RunState.queue_settle]
    exact hstate.nodup_queue
  · intro id
    rw [hstays (by simp) (by simp), Scheduler.completed, RunState.queue_settle]
    refine (hstate.mem_queue_iff id).trans ⟨fun hwas => ⟨?_, hwas⟩, And.right⟩
    rintro rfl
    rcases hcurrent with hcurrent | hcurrent <;> simp [hcurrent] at hwas
  · rw [Scheduler.completed, RunState.inFlight_settle]
    exact hnodup
  · intro id
    rw [hstays (by simp) (by simp), Scheduler.completed, RunState.inFlight_settle]
    exact hflights id
  · rw [Scheduler.completed, RunState.inFlight_settle]
    exact Nat.le_trans hsublist.length_le hstate.inFlight_le
  · intro flight hflight
    rw [Scheduler.completed, RunState.inFlight_settle] at hflight
    exact hstate.flown flight (hsublist.subset hflight)
  · intro id hqueued need hneed
    rw [Scheduler.completed, RunState.queue_settle] at hqueued
    obtain ⟨outcome, hneeded, hstrict⟩ := hstate.queued_needs id hqueued need hneed
    exact ⟨outcome, hended hneeded, hstrict⟩
  · exact needs_succeeded_completed hgraph hid hstate.needs_succeeded
  · intro hstopped
    rw [Scheduler.completed, RunState.stopped_settle] at hstopped
    have hnone := hstate.unstarted_of_stopped hstopped
    rw [List.eq_nil_iff_forall_not_mem] at hnone ⊢
    intro id hmem
    apply hnone id
    rw [Graph.mem_unstarted_iff] at hmem ⊢
    rcases hmem with hmem | hmem
    · exact Or.inl (of_get?_completed (by simp) hmem).2
    · exact Or.inr (of_get?_completed (by simp) hmem).2

/-- A stop cancels all that was not started and empties the queue. -/
theorem stop (hstate : scheduler.Coherent state) : scheduler.Coherent (scheduler.stop state) := by
  have hstays : ∀ {id : InstanceId} {current : JobState},
      current ≠ .ended .cancelled → current ≠ .pending → current ≠ .dispatchable →
      ((scheduler.stop state).progress.get? id = some current ↔
        state.progress.get? id = some current) := by
    intro id current hcancelled hpending hdispatchable
    rw [get?_stop]
    split
    · next hmem =>
        rw [Graph.mem_unstarted_iff] at hmem
        constructor
        · intro h
          exact absurd (Option.some.inj h).symm hcancelled
        · intro h
          rcases hmem with hmem | hmem
          · exact absurd (Option.some.inj (h.symm.trans hmem)) hpending
          · exact absurd (Option.some.inj (h.symm.trans hmem)) hdispatchable
    · rfl
  have hunstarted : ∀ id, id ∉ Graph.unstarted (scheduler.stop state).progress := by
    intro id hmem
    rw [Graph.mem_unstarted_iff, get?_stop] at hmem
    split at hmem
    · simp at hmem
    · next hnot => exact hnot (Graph.mem_unstarted_iff.mpr hmem)
  have hqueue : (scheduler.stop state).queue = [] := by
    rw [stop_eq, RunState.queue_settle]
  have hinFlight : (scheduler.stop state).inFlight = state.inFlight := by
    rw [stop_eq, RunState.inFlight_settle]
  refine
    { accounted := ?_
      keys_eq := ?_
      nodup_queue := by simp [hqueue]
      mem_queue_iff := ?_
      nodup_inFlight := hinFlight ▸ hstate.nodup_inFlight
      mem_inFlight_iff := ?_
      inFlight_le := hinFlight ▸ hstate.inFlight_le
      flown := hinFlight ▸ hstate.flown
      queued_needs := by simp [hqueue]
      needs_succeeded := ?_
      unstarted_of_stopped := fun _ => List.eq_nil_iff_forall_not_mem.mpr hunstarted }
  · have hbooks : ({ state with stopped := true, queue := [] } : RunState).Accounted :=
      ⟨hstate.accounted.ended_iff, hstate.accounted.record_id, hstate.accounted.results_eq⟩
    rw [stop_eq]
    refine hbooks.settle ?_ ?_
    · rw [map_id_cancelledRecords]
      exact Graph.nodup_unstarted state.progress
    · intro record hrecord outcome hended
      obtain ⟨id, hmem, rfl⟩ := List.mem_map.mp hrecord
      change state.progress.get? id = _ at hended
      rcases Graph.mem_unstarted_iff.mp hmem with h | h <;> simp [h] at hended
  · rw [stop_eq, ← hstate.keys_eq]
    apply RunState.keys_settle
    intro record hrecord
    obtain ⟨id, hmem, rfl⟩ := List.mem_map.mp hrecord
    apply Table.mem_keys_iff.mpr
    rcases Graph.mem_unstarted_iff.mp hmem with h | h
    · exact ⟨_, h⟩
    · exact ⟨_, h⟩
  · intro id
    rw [hqueue]
    constructor
    · intro h
      cases h
    · intro h
      exact absurd (Graph.mem_unstarted_iff.mpr (Or.inr h)) (hunstarted id)
  · intro id
    rw [hinFlight, hstays (by simp) (by simp) (by simp)]
    exact hstate.mem_inFlight_iff id
  · intro id hpending
    exact absurd (Graph.mem_unstarted_iff.mpr (Or.inl hpending)) (hunstarted id)

/-- The first job that a worker has comes to its end. -/
theorem landed (hgraph : scheduler.graph.WellFormed) (hown : OwnRecords scheduler.execute)
    (hstate : scheduler.Coherent state) {flight : Flight} {rest : List Flight} {record : JobRecord}
    (hflight : state.inFlight = flight :: rest)
    (hrecord : scheduler.recordOf? flight = some record) :
    scheduler.Coherent (scheduler.completed { state with inFlight := rest } record) := by
  have hmem : flight ∈ state.inFlight := by simp [hflight]
  have hid : record.id = flight.id := hstate.own_record hown hmem hrecord
  have hrunning : state.progress.get? record.id = some .running := by
    rw [hid]
    exact hstate.running_of_mem hmem
  have hnodup := hstate.nodup_inFlight
  rw [hflight, List.map_cons, List.nodup_cons] at hnodup
  apply hstate.completed hgraph rest (Or.inr hrunning) hnodup.2
  · intro id
    rw [← hstate.mem_inFlight_iff, hflight, List.map_cons, List.mem_cons, hid]
    constructor
    · intro hmem
      exact ⟨fun heq => hnodup.1 (heq ▸ hmem), Or.inr hmem⟩
    · rintro ⟨hne, heq | hmem⟩
      · exact absurd heq hne
      · exact hmem
  · rw [hflight]
    exact List.sublist_cons_self flight rest

/-- Taking the result of the first job that a worker has. -/
theorem collected (hgraph : scheduler.graph.WellFormed) (hown : OwnRecords scheduler.execute)
    (hstate : scheduler.Coherent state) {flight : Flight} {rest : List Flight} {record : JobRecord}
    (hflight : state.inFlight = flight :: rest)
    (hrecord : scheduler.recordOf? flight = some record) :
    scheduler.Coherent (scheduler.collected { state with inFlight := rest } record) :=
  collected_of_completed (hstate.landed hgraph hown hflight hrecord) fun _ => Coherent.stop

/-- The gate refuses a ready instance. -/
theorem refused (hgraph : scheduler.graph.WellFormed) (hstate : scheduler.Coherent state)
    {id : InstanceId} (hpending : state.progress.get? id = some .pending) (refusal : Refusal) :
    scheduler.Coherent (scheduler.completed state (scheduler.refusedRecord id refusal)) := by
  apply hstate.completed hgraph state.inFlight (Or.inl hpending)
    hstate.nodup_inFlight
  · intro x
    refine (hstate.mem_inFlight_iff x).trans ⟨fun hrunning => ⟨?_, hrunning⟩, And.right⟩
    intro (heq : x = id)
    rw [heq, hpending] at hrunning
    cases hrunning
  · exact List.Sublist.refl _

end Coherent

theorem Step.coherent (hgraph : scheduler.graph.WellFormed) (hown : OwnRecords scheduler.execute)
    {next : RunState} (hstep : scheduler.Step state next) (hstate : scheduler.Coherent state) :
    scheduler.Coherent next := by
  cases hstep with
  | enqueue hrunning hready _ _ => exact hstate.enqueue hgraph hrunning hready _
  | refuse _ hready _ _ =>
      exact hstate.refused hgraph ((Graph.mem_ready_iff hgraph.nodup_ids).mp hready).2.1 _
  | start hqueue hroom hjob => exact hstate.launched hqueue hroom hjob
  | elapse time done hflights => exact hstate.elapse time done hflights
  | collect hflight hrecord => exact hstate.collected hgraph hown hflight hrecord

theorem Steps.coherent (hgraph : scheduler.graph.WellFormed)
    (hown : OwnRecords scheduler.execute) {next : RunState}
    (hsteps : scheduler.Steps state next) (hstate : scheduler.Coherent state) :
    scheduler.Coherent next := by
  induction hsteps with
  | refl => exact hstate
  | tail _ hstep ih => exact hstep.coherent hgraph hown ih

/-- The parts of a state fit together wherever a run has come to. -/
theorem Steps.coherent_of_initial (hgraph : scheduler.graph.WellFormed)
    (hown : OwnRecords scheduler.execute) (hsteps : scheduler.Steps scheduler.initial state) :
    scheduler.Coherent state :=
  Steps.coherent hgraph hown hsteps (Coherent.initial hgraph)

/-- What has ended stays ended, with the outcome it has. -/
theorem Step.ended (hgraph : scheduler.graph.WellFormed) (hown : OwnRecords scheduler.execute)
    {next : RunState} (hstep : scheduler.Step state next) (hstate : scheduler.Coherent state)
    {id : InstanceId} {outcome : Outcome}
    (hended : state.progress.get? id = some (.ended outcome)) :
    next.progress.get? id = some (.ended outcome) := by
  cases hstep with
  | enqueue _ hready _ _ =>
      have hpending := ((Graph.mem_ready_iff hgraph.nodup_ids).mp hready).2.1
      exact (Graph.ended_insert_iff (by simp [hpending]) (by simp) id outcome).mpr hended
  | refuse _ hready _ _ =>
      refine Coherent.ended_completed hgraph state ?_ hended
      intro outcome hother
      have hpending := ((Graph.mem_ready_iff hgraph.nodup_ids).mp hready).2.1
      exact absurd (hpending.symm.trans hother) (by simp)
  | start hqueue _ _ =>
      have hdispatchable := hstate.dispatchable_of_queue hqueue
      exact (Graph.ended_insert_iff (by simp [hdispatchable]) (by simp) id outcome).mpr hended
  | elapse _ _ _ => exact hended
  | @collect flight rest record hflight hrecord =>
      have hmem : flight ∈ state.inFlight := by simp [hflight]
      have hrunning : state.progress.get? record.id = some .running := by
        rw [hstate.own_record hown hmem hrecord]
        exact hstate.running_of_mem hmem
      apply ended_collected
      refine Coherent.ended_completed hgraph { state with inFlight := rest } ?_ hended
      intro outcome hother
      exact absurd (hrunning.symm.trans hother) (by simp)

theorem Steps.ended (hgraph : scheduler.graph.WellFormed) (hown : OwnRecords scheduler.execute)
    {next : RunState} (hsteps : scheduler.Steps state next) (hstate : scheduler.Coherent state)
    {id : InstanceId} {outcome : Outcome}
    (hended : state.progress.get? id = some (.ended outcome)) :
    next.progress.get? id = some (.ended outcome) := by
  induction hsteps with
  | refl => exact hended
  | tail hbefore hstep ih =>
      exact hstep.ended hgraph hown (Steps.coherent hgraph hown hbefore hstate) ih

end CiPipeline.Scheduler
