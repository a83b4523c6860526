import CiPipeline.Proofs.Schedule.Course
import CiPipeline.Proofs.Schedule.Stop

/-!
A run waits only when there is nothing else to do. Whenever it does, all workers are busy, or nothing is
queued and nothing that is pending could be brought to the gate. This holds whichever jobs are done at
the end of each wait, and in whatever order their results are taken.
-/

namespace CiPipeline.Scheduler

variable {scheduler : Scheduler} {state busy : RunState}

/-! ## The waits of a run -/

/-- From a state on a run may come to wait in another. Each wait before it may end with any of the jobs
that workers have, and their results may be taken in any order. -/
inductive ComesToWait (scheduler : Scheduler) : RunState → RunState → Prop
  | here {state busy : RunState} (hprepare : scheduler.prepare state = .ok busy)
      (hbusy : busy.inFlight ≠ []) : ComesToWait scheduler state busy
  | later {state earlier next busy : RunState} {time : Nat} {done running : List Flight}
      (hprepare : scheduler.prepare state = .ok earlier)
      (hbatch : (done ++ running).Perm earlier.inFlight) (hdone : done ≠ [])
      (hcollect : done.foldlM scheduler.collect
        (earlier.elapse time running (done.map Flight.id)) = .ok next)
      (hrest : ComesToWait scheduler next busy) : ComesToWait scheduler state busy

/-- The states in which a run waits from a state on, in so many rounds. -/
def waitsFrom (scheduler : Scheduler) : Nat → RunState → List RunState
  | 0, _ => []
  | rounds + 1, state =>
    match scheduler.prepare state with
    | .error _ => []
    | .ok busy =>
      if busy.inFlight.isEmpty then []
      else
        match scheduler.await busy with
        | .error _ => [busy]
        | .ok next => busy :: waitsFrom scheduler rounds next

/-- The states in which a run waits, from its beginning to its end. -/
def waitingStates (scheduler : Scheduler) : List RunState :=
  scheduler.waitsFrom (scheduler.graph.nodes.length + 1) scheduler.initial

theorem comesToWait_of_mem_waitsFrom {rounds : Nat}
    (hmem : busy ∈ scheduler.waitsFrom rounds state) : scheduler.ComesToWait state busy := by
  induction rounds generalizing state with
  | zero => cases hmem
  | succ rounds ih =>
      rw [waitsFrom] at hmem
      split at hmem
      · cases hmem
      · next first hprepare =>
          split at hmem
          · cases hmem
          · next hbusy =>
              have hbusy : first.inFlight ≠ [] := by simpa using hbusy
              obtain ⟨time, done, running, hbatch, hdone, hawait⟩ :=
                scheduler.exists_batch_of_await hbusy
              split at hmem
              · obtain rfl := List.mem_singleton.mp hmem
                exact .here hprepare hbusy
              · next next hnext =>
                  rcases List.mem_cons.mp hmem with rfl | hmore
                  · exact .here hprepare hbusy
                  · exact .later hprepare hbatch hdone (hawait ▸ hnext) (ih hmore)

/-- The rounds end with what comes behind the last wait. -/
theorem loop_eq (hgraph : scheduler.graph.WellFormed) (hown : OwnRecords scheduler.execute)
    (hstate : scheduler.Coherent state) {rounds : Nat}
    (hrounds : scheduler.openCount state < rounds) :
    scheduler.loop rounds state =
      match (scheduler.waitsFrom rounds state).getLast? with
      | none => scheduler.prepare state
      | some busy => scheduler.await busy >>= scheduler.prepare := by
  induction rounds generalizing state with
  | zero => omega
  | succ rounds ih =>
      obtain ⟨first, hprepare, hprepared⟩ := prepare_ok hgraph hown hstate
      have hfirst := Steps.coherent hgraph hown hprepared.steps hstate
      simp only [loop, waitsFrom, hprepare, ok_bind]
      by_cases hidle : first.inFlight = []
      · simp only [hidle, List.isEmpty_nil, if_true]
        rfl
      · have hleads := await_leads hgraph hown hfirst hidle
        simp only [List.isEmpty_iff, hidle, if_false]
        cases hawait : scheduler.await first with
        | error halt =>
            simp only [List.getLast?_singleton, hawait]
            rfl
        | ok next =>
            rw [hawait] at hleads
            cases hleads with
            | arrives hsteps hfewer =>
                have hopen := openCount_le hgraph hown hprepared.steps hstate
                have hrest := ih (Steps.coherent hgraph hown hsteps hfirst) (by omega)
                rw [ok_bind, hrest, List.getLast?_cons]
                cases (scheduler.waitsFrom rounds next).getLast? with
                | none => simp only [Option.getD_none, hawait, ok_bind]
                | some last => rfl

/-- A run ends with what comes behind its last wait. -/
theorem run_eq (hgraph : scheduler.graph.WellFormed) (hown : OwnRecords scheduler.execute) :
    scheduler.run =
      match scheduler.waitingStates.getLast? with
      | none => scheduler.prepare scheduler.initial
      | some busy => scheduler.await busy >>= scheduler.prepare := by
  have hinitial := Coherent.initial hgraph
  have hrounds : scheduler.openCount scheduler.initial < scheduler.graph.nodes.length + 1 :=
    Nat.lt_succ_of_le (scheduler.openCount_le_length scheduler.initial)
  have hleads := loop_leads hgraph hown hinitial hrounds
  rw [waitingStates, ← loop_eq hgraph hown hinitial hrounds]
  change (scheduler.loop _ scheduler.initial >>= fun last => _) = _
  cases hloop : scheduler.loop (scheduler.graph.nodes.length + 1) scheduler.initial with
  | error halt => rfl
  | ok last =>
      rw [hloop] at hleads
      cases hleads with
      | arrives hsteps hgoal =>
          rw [ok_bind, unfinished_eq_nil (Steps.coherent_of_initial hgraph hown hsteps) hgoal.2]
          rfl

/-! ## What there is to do -/

/-- Behind whatever waits came before, a wait begins when the round is prepared. -/
theorem ComesToWait.exists_prepared (hgraph : scheduler.graph.WellFormed)
    (hown : OwnRecords scheduler.execute) (hwait : scheduler.ComesToWait state busy)
    (hstate : scheduler.Coherent state) :
    scheduler.Steps state busy ∧ ∃ before, scheduler.Prepared before busy := by
  induction hwait with
  | here hprepare _ =>
      obtain ⟨last, hlast, hprepared⟩ := prepare_ok hgraph hown hstate
      obtain rfl := Except.ok.inj (hprepare.symm.trans hlast)
      exact ⟨hprepared.steps, _, hprepared⟩
  | @later _ _ _ _ time _ _ hprepare hbatch hdone hcollect _ ih =>
      obtain ⟨last, hlast, hprepared⟩ := prepare_ok hgraph hown hstate
      obtain rfl := Except.ok.inj (hprepare.symm.trans hlast)
      have hearlier := Steps.coherent hgraph hown hprepared.steps hstate
      have hleads := batch_leads hgraph hown hearlier time hbatch hdone
      rw [hcollect] at hleads
      cases hleads with
      | arrives hsteps _ =>
          obtain ⟨hmore, hlast⟩ := ih (Steps.coherent hgraph hown hsteps hearlier)
          exact ⟨(hprepared.steps.trans hsteps).trans hmore, hlast⟩

/-- What is left when a round is prepared: no worker is free, or nothing can be given to one. -/
theorem Prepared.full_or_nothing_left (hgraph : scheduler.graph.WellFormed)
    (hprepared : scheduler.Prepared state busy) (hbusy : scheduler.Coherent busy) :
    busy.inFlight.length = scheduler.maxWorkers ∨
      (∀ id, busy.progress.get? id ≠ some .dispatchable) ∧
      (busy.stopped = false → ∀ id, busy.progress.get? id = some .pending →
        ∃ need ∈ scheduler.graph.dependencies id,
          ∀ outcome, busy.progress.get? need ≠ some (.ended outcome)) := by
  rcases hprepared.full with hqueue | hfull
  · refine Or.inr ⟨fun id hdispatchable => ?_, fun hrunning id hpending => ?_⟩
    · have hmem := (hbusy.mem_queue_iff id).mpr hdispatchable
      rw [hqueue] at hmem
      cases hmem
    · by_contra hneeds
      push Not at hneeds
      have hready := (Graph.mem_ready_iff hgraph.nodup_ids).mpr
        ⟨hbusy.mem_keys hpending, hpending, hneeds⟩
      rw [hprepared.ready hrunning] at hready
      cases hready
  · exact Or.inl (Nat.le_antisymm hbusy.inFlight_le hfull)

/-- Whenever a run waits on a graph that was built, as many jobs are running as there are workers, or
nothing is dispatchable and, unless the run was stopped, every pending instance waits for one that has
not ended. What is running is what the workers have, and what stops a run is a failure under fail-fast
only. This is so in whatever order the jobs are done, so also at the waits of the run itself, behind
the last of which it comes to its end. -/
theorem never_idles_worker {jobs : List JobInstance} {needs : Option (Table String (List String))}
    (hbuild : Graph.build jobs needs = .ok scheduler.graph)
    (hown : OwnRecords scheduler.execute) :
    (∀ busy, scheduler.ComesToWait scheduler.initial busy →
      (busy.inFlight.length = scheduler.maxWorkers ∨
        (∀ id, busy.progress.get? id ≠ some .dispatchable) ∧
        (busy.stopped = false → ∀ id, busy.progress.get? id = some .pending →
          ∃ need ∈ scheduler.graph.dependencies id,
            ∀ outcome, busy.progress.get? need ≠ some (.ended outcome))) ∧
      (busy.inFlight.map Flight.id).Nodup ∧
      (∀ id, id ∈ busy.inFlight.map Flight.id ↔ busy.progress.get? id = some .running) ∧
      (busy.stopped = true ↔ scheduler.failFast = true ∧ busy.Failed)) ∧
    (∀ busy ∈ scheduler.waitingStates, scheduler.ComesToWait scheduler.initial busy) ∧
    scheduler.run =
      match scheduler.waitingStates.getLast? with
      | none => scheduler.prepare scheduler.initial
      | some busy => scheduler.await busy >>= scheduler.prepare := by
  have hgraph := Graph.build_wellFormed hbuild
  refine ⟨fun busy hwait => ?_, fun _ => comesToWait_of_mem_waitsFrom, run_eq hgraph hown⟩
  obtain ⟨hsteps, _, hprepared⟩ := hwait.exists_prepared hgraph hown (.initial hgraph)
  have hbusy := Steps.coherent_of_initial hgraph hown hsteps
  exact ⟨hprepared.full_or_nothing_left hgraph hbusy, hbusy.nodup_inFlight, hbusy.mem_inFlight_iff,
    Steps.stopped_iff hgraph hown hsteps⟩

/-- Two workers have one job, the build, while the test waits for it and the report for the test. -/
theorem never_idles_worker_small :
    Graph.build smallJobs = .ok (smallScheduler 2 (by decide) false).graph ∧
      OwnRecords (smallScheduler 2 (by decide) false).execute ∧
      ∃ busy, (smallScheduler 2 (by decide) false).ComesToWait
          (smallScheduler 2 (by decide) false).initial busy ∧
        busy.inFlight.map Flight.id = [⟨"build", []⟩] ∧
        (∀ id, busy.progress.get? id ≠ some .dispatchable) ∧
        ∀ id, busy.progress.get? id = some .pending →
          ∃ need ∈ smallGraph.dependencies id,
            ∀ outcome, busy.progress.get? need ≠ some (.ended outcome) := by
  have hbuild : Graph.build smallJobs none = .ok (smallScheduler 2 (by decide) false).graph :=
    build_smallJobs
  have hwaiting : (smallScheduler 2 (by decide) false).waitingStates.map
      (fun busy => busy.inFlight.map Flight.id) = [[⟨"build", []⟩], [⟨"report", []⟩]] := by
    cbv
  obtain ⟨hoccupied, hwaits, -⟩ := never_idles_worker hbuild failingBuild_ownRecords
  obtain ⟨busy, rest, hfirst, hbusy, -⟩ := List.map_eq_cons_iff.mp hwaiting
  have hwait := hwaits busy (by rw [hfirst]; exact List.mem_cons_self)
  obtain ⟨hleft, -, -, hstop⟩ := hoccupied busy hwait
  have hroom : busy.inFlight.length ≠ 2 := by
    rw [← List.length_map Flight.id, hbusy]
    decide
  obtain ⟨hqueued, hpending⟩ := hleft.resolve_left hroom
  have hrunning : busy.stopped = false := by
    rw [Bool.eq_false_iff]
    intro hstopped
    cases (hstop.mp hstopped).1
  exact ⟨hbuild, failingBuild_ownRecords, busy, hwait, hbusy, hqueued, hpending hrunning⟩

end CiPipeline.Scheduler
