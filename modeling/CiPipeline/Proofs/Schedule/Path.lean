import CiPipeline.Proofs.Schedule.Coherent

/-!
What a round does before it waits. From a state whose parts fit together every operation makes some
steps and comes to the point that it is written for: nothing is ready any more, and no worker is
free or nothing is queued. The bound on the passes is never reached, so it can be left out.
-/

namespace CiPipeline.Scheduler

variable {scheduler : Scheduler} {state : RunState}

/-! ## Bringing instances to the gate -/

/-- What bringing some ready instances to the gate leads to. -/
structure Passed (scheduler : Scheduler) (state : RunState) (ids : List InstanceId)
    (next : RunState) : Prop where
  steps : scheduler.Steps state next
  running : next.stopped = false
  ready : ∀ id ∈ scheduler.graph.ready state.progress, id ∉ ids →
    id ∈ scheduler.graph.ready next.progress
  pending : scheduler.graph.countOf (· == .pending) next.progress + ids.length ≤
    scheduler.graph.countOf (· == .pending) state.progress

/-- An instance that leaves the pending ones, while the others stay or leave too. -/
theorem countOf_pending_lt {before after : Graph.Progress} {id : InstanceId}
    (hid : id ∈ scheduler.graph.ids) (hpending : before.get? id = some .pending)
    (hleft : after.get? id ≠ some .pending)
    (hrest : ∀ x, after.get? x = some .pending → before.get? x = some .pending) :
    scheduler.graph.countOf (· == .pending) after + 1 ≤
      scheduler.graph.countOf (· == .pending) before := by
  have hnodup : [id].Nodup := by simp
  apply Graph.countOf_add_length_le hnodup
  · intro x hx
    rw [List.mem_singleton] at hx
    subst hx
    refine ⟨hid, by simp [hpending], ?_⟩
    cases hafter : after.get? x with
    | none => rfl
    | some current => simpa [hafter] using hleft
  · intro x hx
    obtain ⟨current, hcurrent, hkind⟩ := (Option.any_eq_true _ _).mp hx
    rw [beq_iff_eq] at hkind
    subst hkind
    simp [hrest x hcurrent]

theorem gateOne_enqueued (hgraph : scheduler.graph.WellFormed) (hrunning : state.stopped = false)
    {id : InstanceId} (hready : id ∈ scheduler.graph.ready state.progress) {job : JobInstance}
    (hjob : scheduler.graph.job? id = some job) {steps : List Selection}
    (hverdict : scheduler.gate.decide job (scheduler.needOutcomes state.progress id) =
      .run steps) :
    scheduler.Passed state [id] (state.enqueue id steps) := by
  obtain ⟨hid, hpending, _⟩ := (Graph.mem_ready_iff hgraph.nodup_ids).mp hready
  have hget : ∀ x, (state.enqueue id steps).progress.get? x =
      if id = x then some .dispatchable else state.progress.get? x :=
    fun x => Table.get?_insert state.progress id x .dispatchable
  refine ⟨.single (.enqueue hrunning hready hjob hverdict), hrunning, ?_, ?_⟩
  · intro x hx hne
    rw [List.mem_singleton] at hne
    obtain ⟨hmem, hstill, hneeds⟩ := (Graph.mem_ready_iff hgraph.nodup_ids).mp hx
    refine (Graph.mem_ready_iff hgraph.nodup_ids).mpr ⟨hmem, ?_, ?_⟩
    · rw [hget, if_neg (Ne.symm hne)]
      exact hstill
    · intro need hneed
      obtain ⟨outcome, hended⟩ := hneeds need hneed
      exact ⟨outcome,
        (Graph.ended_insert_iff (by simp [hpending]) (by simp) need outcome).mpr hended⟩
  · apply countOf_pending_lt hid hpending
    · simp [hget]
    · exact fun x => Graph.get?_of_insert (by simp)

/-- What a refusal cancels was not ready: it waits for an instance that was pending. -/
theorem gateOne_refused (hgraph : scheduler.graph.WellFormed) (hrunning : state.stopped = false)
    {id : InstanceId} (hready : id ∈ scheduler.graph.ready state.progress) {job : JobInstance}
    (hjob : scheduler.graph.job? id = some job) {refusal : Refusal}
    (hverdict : scheduler.gate.decide job (scheduler.needOutcomes state.progress id) =
      .refuse refusal) :
    scheduler.Passed state [id]
      (scheduler.completed state (scheduler.refusedRecord id refusal)) := by
  obtain ⟨hid, hpending, _⟩ := (Graph.mem_ready_iff hgraph.nodup_ids).mp hready
  have hopen : ∀ outcome, state.progress.get? id ≠ some (.ended outcome) := by
    intro outcome hended
    rw [hpending] at hended
    cases hended
  have hget := scheduler.get?_completed state (scheduler.refusedRecord id refusal)
  refine ⟨.single (.refuse hrunning hready hjob hverdict), ?_, ?_, ?_⟩
  · rw [completed, RunState.stopped_settle]
    exact hrunning
  · intro x hx hne
    rw [List.mem_singleton] at hne
    have hother : ¬ (scheduler.refusedRecord id refusal).id = x := Ne.symm hne
    obtain ⟨hmem, hstill, hneeds⟩ := (Graph.mem_ready_iff hgraph.nodup_ids).mp hx
    refine (Graph.mem_ready_iff hgraph.nodup_ids).mpr ⟨hmem, ?_, ?_⟩
    · rw [hget, if_neg, if_neg hother]
      · exact hstill
      · intro hovertaken
        obtain ⟨_, _, _, _, need, hneed, hfrom⟩ :=
          Graph.of_mem_overtaken hgraph.nodup_ids hovertaken
        obtain ⟨outcome, hended⟩ := hneeds need hneed
        rcases hfrom with rfl | hfrom
        · exact hopen outcome hended
        · have hneeded := (Graph.of_mem_overtaken hgraph.nodup_ids hfrom).2.2.1
          rw [hended] at hneeded
          cases hneeded
    · intro need hneed
      obtain ⟨outcome, hended⟩ := hneeds need hneed
      exact ⟨outcome, Coherent.ended_completed hgraph state hopen hended⟩
  · apply countOf_pending_lt hid hpending
    · intro hstill
      exact (Coherent.of_get?_completed (by simp) hstill).1 rfl
    · intro x hx
      exact (Coherent.of_get?_completed (by simp) hx).2

theorem gateOne_ok (hgraph : scheduler.graph.WellFormed) (hrunning : state.stopped = false)
    {id : InstanceId} (hready : id ∈ scheduler.graph.ready state.progress) :
    ∃ next, scheduler.gateOne state id = .ok next ∧ scheduler.Passed state [id] next := by
  obtain ⟨hid, hpending, _⟩ := (Graph.mem_ready_iff hgraph.nodup_ids).mp hready
  obtain ⟨job, hjob⟩ := Graph.mem_ids_iff.mp hid
  cases hverdict : scheduler.gate.decide job (scheduler.needOutcomes state.progress id) with
  | run steps =>
      exact ⟨_, gateOne_run hjob hpending hverdict,
        gateOne_enqueued hgraph hrunning hready hjob hverdict⟩
  | refuse refusal =>
      exact ⟨_, gateOne_refuse hjob hpending hverdict,
        gateOne_refused hgraph hrunning hready hjob hverdict⟩

/-- One pass over what was ready when it began: all of it is still ready when its turn comes. -/
theorem foldlM_gateOne_ok (hgraph : scheduler.graph.WellFormed) (hrunning : state.stopped = false)
    {ids : List InstanceId} (hnodup : ids.Nodup)
    (hready : ∀ id ∈ ids, id ∈ scheduler.graph.ready state.progress) :
    ∃ next, ids.foldlM scheduler.gateOne state = .ok next ∧ scheduler.Passed state ids next := by
  induction ids generalizing state with
  | nil => exact ⟨state, rfl, .refl, hrunning, fun id hid _ => hid, Nat.le_refl _⟩
  | cons id ids ih =>
      rw [List.nodup_cons] at hnodup
      obtain ⟨middle, hfirst, hmiddle⟩ := gateOne_ok hgraph hrunning (hready id List.mem_cons_self)
      have hstill : ∀ x ∈ ids, x ∈ scheduler.graph.ready middle.progress := by
        intro x hx
        apply hmiddle.ready x (hready x (List.mem_cons_of_mem id hx))
        rw [List.mem_singleton]
        rintro rfl
        exact hnodup.1 hx
      obtain ⟨next, hrest, hnext⟩ := ih hmiddle.running hnodup.2 hstill
      refine ⟨next, ?_, hmiddle.steps.trans hnext.steps, hnext.running, ?_, ?_⟩
      · rw [List.foldlM_cons, hfirst]
        exact hrest
      · intro x hx hnot
        rw [List.mem_cons, not_or] at hnot
        exact hnext.ready x (hmiddle.ready x hx (by simpa using hnot.1)) hnot.2
      · have hpending := hmiddle.pending
        have hmore := hnext.pending
        rw [List.length_singleton] at hpending
        rw [List.length_cons]
        omega

/-- Bringing what is ready to the gate, pass after pass, until nothing is. -/
inductive Gates (scheduler : Scheduler) : RunState → RunState → Prop
  | done {state : RunState} (hready : scheduler.graph.ready state.progress = []) :
      Gates scheduler state state
  | pass {state next last : RunState} (hready : scheduler.graph.ready state.progress ≠ [])
      (hpass : (scheduler.graph.ready state.progress).foldlM scheduler.gateOne state = .ok next)
      (hrest : Gates scheduler next last) : Gates scheduler state last

theorem gateReady_ok (hgraph : scheduler.graph.WellFormed) (hrunning : state.stopped = false)
    {passes : Nat}
    (hpasses : scheduler.graph.countOf (· == .pending) state.progress ≤ passes) :
    ∃ last, scheduler.gateReady passes state = .ok last ∧ scheduler.Gates state last ∧
      scheduler.Steps state last ∧ last.stopped = false ∧
      scheduler.graph.ready last.progress = [] := by
  induction passes generalizing state with
  | zero =>
      have hready : scheduler.graph.ready state.progress = [] := by
        rw [List.eq_nil_iff_forall_not_mem]
        intro id hid
        obtain ⟨hmem, hpending, _⟩ := (Graph.mem_ready_iff hgraph.nodup_ids).mp hid
        have hpos : 0 < scheduler.graph.countOf (· == .pending) state.progress :=
          List.countP_pos_iff.mpr ⟨id, hmem, by simp [hpending]⟩
        omega
      exact ⟨state, rfl, .done hready, .refl, hrunning, hready⟩
  | succ passes ih =>
      cases hready : scheduler.graph.ready state.progress with
      | nil =>
          refine ⟨state, ?_, .done hready, .refl, hrunning, hready⟩
          simp only [gateReady, hready]
      | cons first rest =>
          have hnodup : (first :: rest).Nodup := hready ▸ Graph.nodup_ready hgraph.nodup_ids
          obtain ⟨middle, hpass, hmiddle⟩ :=
            foldlM_gateOne_ok hgraph hrunning hnodup fun id hid => hready ▸ hid
          have hfewer := hmiddle.pending
          rw [List.length_cons] at hfewer
          obtain ⟨last, hrest, hgates, hsteps, hlast⟩ := ih hmiddle.running (by omega)
          refine ⟨last, ?_, ?_, hmiddle.steps.trans hsteps, hlast⟩
          · simp only [gateReady, hready, hpass, ok_bind]
            exact hrest
          · exact .pass (by simp [hready]) (by rw [hready]; exact hpass) hgates

/-! ## Starting what is queued -/

/-- What handing queued instances to workers leads to. -/
structure Dispatched (scheduler : Scheduler) (state last : RunState) : Prop where
  steps : scheduler.Steps state last
  /-- Either nothing is queued any more or no worker is free. -/
  full : last.queue = [] ∨ scheduler.maxWorkers ≤ last.inFlight.length
  stopped_eq : last.stopped = state.stopped
  ready : ∀ id ∈ scheduler.graph.ready last.progress, id ∈ scheduler.graph.ready state.progress

theorem mem_ready_of_launched (hgraph : scheduler.graph.WellFormed) {first : InstanceId}
    {steps : List Selection} {rest : List (InstanceId × List Selection)} {job : JobInstance}
    {id : InstanceId} (hready : id ∈ scheduler.graph.ready
      (scheduler.launched state first steps rest job).progress) :
    id ∈ scheduler.graph.ready state.progress := by
  obtain ⟨hid, hpending, hneeds⟩ := (Graph.mem_ready_iff hgraph.nodup_ids).mp hready
  refine (Graph.mem_ready_iff hgraph.nodup_ids).mpr
    ⟨hid, Graph.get?_of_insert (by simp) hpending, ?_⟩
  intro need hneed
  obtain ⟨outcome, hended⟩ := hneeds need hneed
  exact ⟨outcome, Graph.get?_of_insert (by simp) hended⟩

/-- The queue is given apart, since the operation leaves that of the state alone until its end. -/
theorem dispatch_ok (hgraph : scheduler.graph.WellFormed) (state : RunState)
    (queue : List (InstanceId × List Selection))
    (hstate : scheduler.Coherent { state with queue := queue }) :
    ∃ last, scheduler.dispatch queue state = .ok last ∧
      scheduler.Dispatched { state with queue := queue } last := by
  induction queue generalizing state with
  | nil => exact ⟨_, rfl, .refl, Or.inl rfl, rfl, fun id hid => hid⟩
  | cons entry rest ih =>
      obtain ⟨id, steps⟩ := entry
      by_cases hroom : state.inFlight.length < scheduler.maxWorkers
      · have hdispatchable : state.progress.get? id = some .dispatchable :=
          hstate.dispatchable_of_queue rfl
        obtain ⟨job, hjob⟩ := Graph.mem_ids_iff.mp (hstate.mem_keys hdispatchable)
        have hstep : scheduler.Step { state with queue := (id, steps) :: rest }
            { scheduler.launched state id steps state.queue job with queue := rest } :=
          .start rfl hroom hjob
        obtain ⟨last, hrest, hlast⟩ := ih
          (scheduler.launched state id steps state.queue job) (hstate.launched rfl hroom hjob)
        refine ⟨last, ?_, .head hstep hlast.steps, hlast.full, hlast.stopped_eq, ?_⟩
        · simp only [dispatch, hroom, if_true, start_ok hjob hdispatchable, ok_bind]
          exact hrest
        · intro x hx
          exact mem_ready_of_launched hgraph (hlast.ready x hx)
      · refine ⟨_, ?_, .refl, Or.inr (Nat.le_of_not_lt hroom), rfl, fun x hx => hx⟩
        simp only [dispatch, hroom, if_false]

/-- What a round does before it waits, without the bound on the passes. -/
inductive Prepares (scheduler : Scheduler) : RunState → RunState → Prop
  | stopped {state last : RunState} (hstopped : state.stopped = true)
      (hdispatch : scheduler.dispatch state.queue state = .ok last) :
      Prepares scheduler state last
  | gated {state middle last : RunState} (hrunning : state.stopped = false)
      (hgates : scheduler.Gates state middle)
      (hdispatch : scheduler.dispatch middle.queue middle = .ok last) :
      Prepares scheduler state last

/-- What a round has come to when it begins to wait. -/
structure Prepared (scheduler : Scheduler) (state last : RunState) : Prop where
  prepares : scheduler.Prepares state last
  steps : scheduler.Steps state last
  full : last.queue = [] ∨ scheduler.maxWorkers ≤ last.inFlight.length
  ready : last.stopped = false → scheduler.graph.ready last.progress = []

theorem prepare_ok (hgraph : scheduler.graph.WellFormed) (hown : OwnRecords scheduler.execute)
    (hstate : scheduler.Coherent state) :
    ∃ last, scheduler.prepare state = .ok last ∧ scheduler.Prepared state last := by
  cases hstopped : state.stopped with
  | true =>
      obtain ⟨last, hdispatch, hlast⟩ := dispatch_ok hgraph state state.queue hstate
      refine ⟨last, ?_, .stopped hstopped hdispatch, hlast.steps, hlast.full, ?_⟩
      · simp only [prepare, hstopped, if_true, ok_bind]
        exact hdispatch
      · intro hrunning
        rw [hlast.stopped_eq] at hrunning
        exact absurd (hstopped.symm.trans hrunning) (by simp)
  | false =>
      have hpasses : scheduler.graph.countOf (· == .pending) state.progress ≤
          scheduler.graph.nodes.length :=
        Nat.le_trans List.countP_le_length (Nat.le_of_eq scheduler.graph.length_ids)
      obtain ⟨middle, hgate, hgates, hsteps, _, hready⟩ :=
        gateReady_ok hgraph hstopped hpasses
      obtain ⟨last, hdispatch, hlast⟩ := dispatch_ok hgraph middle middle.queue
        (Steps.coherent hgraph hown hsteps hstate)
      refine ⟨last, ?_, .gated hstopped hgates hdispatch, hsteps.trans hlast.steps,
        hlast.full, ?_⟩
      · simp only [prepare, hstopped, Bool.false_eq_true, if_false, hgate, ok_bind]
        exact hdispatch
      · intro _
        rw [List.eq_nil_iff_forall_not_mem] at hready ⊢
        exact fun id hid => hready id (hlast.ready id hid)

end CiPipeline.Scheduler
