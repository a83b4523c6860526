import CiPipeline.Proofs.Schedule.Path
import Mathlib.Data.List.Permutation

/-!
The course of a run. The scheduler follows the steps: every wait ends one job at least, so the
rounds come to an end before their bound does, and then nothing is left that has not ended. Only an
interruption keeps a run from getting there, and then it stands where the steps before the
interruption have led.
-/

namespace CiPipeline.Scheduler

variable {scheduler : Scheduler} {state : RunState}

/-! ## Waiting -/

/-- Where an operation leads: to its goal, or to an interruption on the way there. -/
inductive Leads (scheduler : Scheduler) (state : RunState) (goal : RunState → Prop) :
    Except Halt RunState → Prop
  | arrives {last : RunState} (hsteps : scheduler.Steps state last) (hgoal : goal last) :
      Leads scheduler state goal (.ok last)
  | interrupted (last : RunState) {flight : Flight} (flights : List Flight)
      (hsteps : scheduler.Steps state last) (hflight : flight ∈ last.inFlight)
      (hrecord : scheduler.recordOf? flight = none) :
      Leads scheduler state goal (.error ⟨.interrupted, { last with inFlight := flights }⟩)

namespace Leads

variable {goal further : RunState → Prop} {result : Except Halt RunState} {next : RunState}

theorem head (hsteps : scheduler.Steps state next) (hnext : scheduler.Leads next goal result) :
    scheduler.Leads state goal result := by
  cases hnext with
  | arrives hmore hgoal => exact .arrives (hsteps.trans hmore) hgoal
  | interrupted last flights hmore hflight hrecord =>
      exact .interrupted last flights (hsteps.trans hmore) hflight hrecord

theorem mono (hresult : scheduler.Leads state goal result)
    (hgoal : ∀ last, scheduler.Steps state last → goal last → further last) :
    scheduler.Leads state further result := by
  cases hresult with
  | arrives hsteps hlast => exact .arrives hsteps (hgoal _ hsteps hlast)
  | interrupted last flights hsteps hflight hrecord =>
      exact .interrupted last flights hsteps hflight hrecord

theorem bind {rest : RunState → Except Halt RunState} (hresult : scheduler.Leads state goal result)
    (hrest : ∀ next, result = .ok next → scheduler.Steps state next → goal next →
      scheduler.Leads next further (rest next)) :
    scheduler.Leads state further (result >>= rest) := by
  cases hresult with
  | arrives hsteps hgoal => exact head hsteps (hrest _ rfl hsteps hgoal)
  | interrupted last flights hsteps hflight hrecord =>
      exact .interrupted last flights hsteps hflight hrecord

end Leads

/-- How many instances have not come to their end. -/
def openCount (scheduler : Scheduler) (state : RunState) : Nat :=
  scheduler.graph.countOf (fun current => !current.isTerminal) state.progress

theorem openCount_le_length (scheduler : Scheduler) (state : RunState) :
    scheduler.openCount state ≤ scheduler.graph.nodes.length := by
  rw [← Graph.length_ids]
  exact List.countP_le_length

theorem openCount_add_length_le (hgraph : scheduler.graph.WellFormed)
    (hown : OwnRecords scheduler.execute) {last : RunState} (hsteps : scheduler.Steps state last)
    (hstate : scheduler.Coherent state) {moved : List InstanceId} (hnodup : moved.Nodup)
    (hmoved : ∀ id ∈ moved, (∃ current, state.progress.get? id = some current ∧
        current.isTerminal = false) ∧
      ∃ outcome, last.progress.get? id = some (.ended outcome)) :
    scheduler.openCount last + moved.length ≤ scheduler.openCount state := by
  apply Graph.countOf_add_length_le hnodup
  · intro id hid
    obtain ⟨⟨current, hcurrent, hopen⟩, outcome, hended⟩ := hmoved id hid
    exact ⟨hstate.mem_keys hcurrent, by simp [hcurrent, hopen],
      by simp [hended, JobState.isTerminal, JobState.outcome?]⟩
  · intro id hid
    obtain ⟨later, hlater, hopen⟩ := (Option.any_eq_true _ _).mp hid
    have hmem := (Steps.coherent hgraph hown hsteps hstate).mem_keys hlater
    obtain ⟨current, hcurrent⟩ := Table.mem_keys_iff.mp (hstate.keys_eq ▸ hmem)
    cases current with
    | ended outcome =>
        have hended := Steps.ended hgraph hown hsteps hstate hcurrent
        rw [hlater] at hended
        cases hended
        simp [JobState.isTerminal, JobState.outcome?] at hopen
    | _ => simp [hcurrent, JobState.isTerminal, JobState.outcome?]

theorem openCount_le (hgraph : scheduler.graph.WellFormed) (hown : OwnRecords scheduler.execute)
    {last : RunState} (hsteps : scheduler.Steps state last)
    (hstate : scheduler.Coherent state) : scheduler.openCount last ≤ scheduler.openCount state :=
  openCount_add_length_le hgraph hown hsteps hstate List.nodup_nil (by simp)

theorem exists_finish_eq_firstFinish {flights : List Flight} (hbusy : flights ≠ []) :
    ∃ flight ∈ flights, flight.finish = firstFinish flights := by
  induction flights with
  | nil => exact absurd rfl hbusy
  | cons flight rest ih =>
      cases rest with
      | nil => exact ⟨flight, List.mem_cons_self, rfl⟩
      | cons second rest =>
          obtain ⟨first, hfirst, hfinish⟩ := ih (by simp)
          rcases Nat.le_total flight.finish (firstFinish (second :: rest)) with hle | hle
          · exact ⟨flight, List.mem_cons_self, (Nat.min_eq_left hle).symm⟩
          · exact ⟨first, List.mem_cons_of_mem flight hfirst,
              hfinish.trans (Nat.min_eq_right hle).symm⟩

/-- The jobs that are done are taken out at once, but their results are taken one after another: for
the steps those whose turn has not come are still with their workers. -/
theorem foldlM_collect_leads (hgraph : scheduler.graph.WellFormed)
    (hown : OwnRecords scheduler.execute) (state : RunState) (done : List Flight)
    (hstate : scheduler.Coherent { state with inFlight := done ++ state.inFlight }) :
    scheduler.Leads { state with inFlight := done ++ state.inFlight }
      (fun last => scheduler.openCount last + done.length ≤ scheduler.openCount state)
      (done.foldlM scheduler.collect state) := by
  induction done generalizing state with
  | nil => exact .arrives .refl (Nat.le_refl _)
  | cons flight done ih =>
      rw [List.foldlM_cons]
      cases hrecord : scheduler.recordOf? flight with
      | none =>
          have hcollect : scheduler.collect state flight = .error ⟨.interrupted, state⟩ := by
            unfold collect
            simp only [hrecord]
            rfl
          rw [hcollect]
          exact .interrupted { state with inFlight := flight :: done ++ state.inFlight }
            state.inFlight .refl List.mem_cons_self hrecord
      | some record =>
          have hid : record.id = flight.id := hstate.own_record hown (by simp) hrecord
          have hrunning : state.progress.get? record.id = some .running :=
            (hstate.mem_inFlight_iff record.id).mp (by simp [hid])
          have hstep : scheduler.Step { state with inFlight := flight :: done ++ state.inFlight }
              (scheduler.collected { state with inFlight := done ++ state.inFlight } record) :=
            .collect rfl hrecord
          rw [collected_withInFlight] at hstep
          have hnext := hstep.coherent hgraph hown hstate
          have hended : (scheduler.collected state record).progress.get? record.id =
              some (.ended record.outcome) :=
            ended_collected (get?_completed_self hgraph.nodup_ids)
          have hnodup : [record.id].Nodup := by simp
          have hless := openCount_add_length_le hgraph hown (.single hstep) hstate hnodup
            (by
              intro id hmem
              rw [List.mem_singleton] at hmem
              subst hmem
              exact ⟨⟨.running, hrunning, rfl⟩, record.outcome, hended⟩)
          rw [collect_ok hrecord hrunning rfl, ok_bind]
          have hrest := ih (scheduler.collected state record) (by simpa using hnext)
          rw [inFlight_collected] at hrest
          refine .head (.single hstep) (hrest.mono ?_)
          intro last _ hlast
          change scheduler.openCount (scheduler.collected state record) + 1 ≤
            scheduler.openCount state at hless
          rw [List.length_cons]
          omega

/-- Taking the results of some jobs ends one at least, whichever they are and in any order. -/
theorem batch_leads (hgraph : scheduler.graph.WellFormed) (hown : OwnRecords scheduler.execute)
    (hstate : scheduler.Coherent state) (time : Nat) {done running : List Flight}
    (hbatch : (done ++ running).Perm state.inFlight) (hdone : done ≠ []) :
    scheduler.Leads state (fun last => scheduler.openCount last < scheduler.openCount state)
      (done.foldlM scheduler.collect (state.elapse time running (done.map Flight.id))) := by
  have hstep : scheduler.Step state
      (state.elapse time (done ++ running) (done.map Flight.id)) :=
    .elapse time (done.map Flight.id) hbatch
  have hleads := foldlM_collect_leads hgraph hown
    (state.elapse time running (done.map Flight.id)) done (hstep.coherent hgraph hown hstate)
  refine .head (.single hstep) (hleads.mono ?_)
  intro last _ hlast
  have hpos := List.length_pos_iff.mpr hdone
  change scheduler.openCount last + done.length ≤ scheduler.openCount state at hlast
  omega

/-- A wait ends with the results of some jobs that workers had. -/
theorem exists_batch_of_await (scheduler : Scheduler) (hbusy : state.inFlight ≠ []) :
    ∃ time done running, (done ++ running).Perm state.inFlight ∧ done ≠ [] ∧
      scheduler.await state =
        done.foldlM scheduler.collect (state.elapse time running (done.map Flight.id)) := by
  let time := firstFinish state.inFlight
  let done := state.inFlight.filter fun flight => flight.finish == time
  let running := state.inFlight.filter fun flight => !(flight.finish == time)
  have hdone : done ≠ [] := by
    obtain ⟨flight, hflight, hfinish⟩ := exists_finish_eq_firstFinish hbusy
    exact List.ne_nil_of_mem (List.mem_filter.mpr ⟨hflight, by simpa using hfinish⟩)
  refine ⟨time, done, running, List.filter_append_perm _ state.inFlight, hdone, ?_⟩
  simp only [await, List.partition_eq_filter_filter, RunState.elapse, List.map_map,
    Function.comp_def, done, running, time]

theorem await_leads (hgraph : scheduler.graph.WellFormed) (hown : OwnRecords scheduler.execute)
    (hstate : scheduler.Coherent state) (hbusy : state.inFlight ≠ []) :
    scheduler.Leads state (fun last => scheduler.openCount last < scheduler.openCount state)
      (scheduler.await state) := by
  obtain ⟨time, done, running, hbatch, hdone, hawait⟩ := scheduler.exists_batch_of_await hbusy
  rw [hawait]
  exact batch_leads hgraph hown hstate time hbatch hdone

/-! ## The run -/

/-- The rounds of a run and how often they wait, without the bound on their number. -/
inductive Waits (scheduler : Scheduler) : Nat → RunState → RunState → Prop
  | idle {state last : RunState} (hprepares : scheduler.Prepares state last)
      (hidle : last.inFlight = []) : Waits scheduler 0 state last
  | wait {waits : Nat} {state busy next last : RunState}
      (hprepares : scheduler.Prepares state busy) (hbusy : busy.inFlight ≠ [])
      (hawait : scheduler.await busy = .ok next) (hrest : Waits scheduler waits next last) :
      Waits scheduler (waits + 1) state last

/-- When a round has nothing to wait for, everything has ended. -/
theorem Prepared.ended (hgraph : scheduler.graph.WellFormed) {last : RunState}
    (hprepared : scheduler.Prepared state last) (hlast : scheduler.Coherent last)
    (hidle : last.inFlight = []) :
    ∀ id ∈ scheduler.graph.ids, ∃ outcome, last.progress.get? id = some (.ended outcome) := by
  have hrunning : ∀ id, last.progress.get? id ≠ some .running := by
    intro id hstate
    have hmem := (hlast.mem_inFlight_iff id).mpr hstate
    rw [hidle] at hmem
    cases hmem
  have hqueue : last.queue = [] := by
    rcases hprepared.full with hempty | hfull
    · exact hempty
    · rw [hidle] at hfull
      exact absurd scheduler.maxWorkers_pos (Nat.not_lt.mpr hfull)
  have hdispatchable : ∀ id, last.progress.get? id ≠ some .dispatchable := by
    intro id hstate
    have hmem := (hlast.mem_queue_iff id).mpr hstate
    rw [hqueue] at hmem
    cases hmem
  cases hstopped : last.stopped with
  | false =>
      exact hgraph.ended_of_ready_eq_nil hlast.keys_eq
        (fun id => ⟨hdispatchable id, hrunning id⟩) (hprepared.ready hstopped)
  | true =>
      intro id hid
      obtain ⟨current, hcurrent⟩ := Table.mem_keys_iff.mp (hlast.keys_eq ▸ hid)
      cases current with
      | pending =>
          have hmem := Graph.mem_unstarted_iff.mpr (Or.inl hcurrent)
          rw [hlast.unstarted_of_stopped hstopped] at hmem
          cases hmem
      | dispatchable => exact absurd hcurrent (hdispatchable id)
      | running => exact absurd hcurrent (hrunning id)
      | ended outcome => exact ⟨outcome, hcurrent⟩

theorem loop_leads (hgraph : scheduler.graph.WellFormed) (hown : OwnRecords scheduler.execute)
    (hstate : scheduler.Coherent state) {rounds : Nat}
    (hrounds : scheduler.openCount state < rounds) :
    scheduler.Leads state
      (fun last => (∃ waits ≤ scheduler.openCount state, scheduler.Waits waits state last) ∧
        ∀ id ∈ scheduler.graph.ids, ∃ outcome, last.progress.get? id = some (.ended outcome))
      (scheduler.loop rounds state) := by
  induction rounds generalizing state with
  | zero => omega
  | succ rounds ih =>
      obtain ⟨middle, hprepare, hprepared⟩ := prepare_ok hgraph hown hstate
      have hmiddle := Steps.coherent hgraph hown hprepared.steps hstate
      simp only [loop, hprepare, ok_bind]
      by_cases hidle : middle.inFlight = []
      · rw [if_pos (by simp [hidle])]
        exact .arrives hprepared.steps ⟨⟨0, Nat.zero_le _, .idle hprepared.prepares hidle⟩,
          hprepared.ended hgraph hmiddle hidle⟩
      · rw [if_neg (by simpa using hidle)]
        refine .head hprepared.steps ((await_leads hgraph hown hmiddle hidle).bind ?_)
        intro next hawait hsteps hfewer
        have hopen := openCount_le hgraph hown hprepared.steps hstate
        refine (ih (Steps.coherent hgraph hown hsteps hmiddle) (by omega)).mono ?_
        rintro last _ ⟨⟨waits, hwaits, hrest⟩, hended⟩
        exact ⟨⟨waits + 1, by omega, .wait hprepared.prepares hidle hawait hrest⟩, hended⟩

theorem unfinished_eq_nil (hstate : scheduler.Coherent state)
    (hended : ∀ id ∈ scheduler.graph.ids, ∃ outcome,
      state.progress.get? id = some (.ended outcome)) :
    unfinished state.progress = [] := by
  rw [List.eq_nil_iff_forall_not_mem]
  intro id hid
  obtain ⟨current, hfiltered⟩ := Table.mem_keys_iff.mp hid
  rw [Table.get?_filter, Option.filter_eq_some_iff] at hfiltered
  obtain ⟨outcome, hend⟩ := hended id (hstate.mem_keys hfiltered.1)
  rw [hfiltered.1] at hend
  cases hend
  simp [JobState.isTerminal, JobState.outcome?] at hfiltered

/-- A run comes to an end, whatever the jobs make of it, unless it is interrupted. -/
theorem run_leads (hgraph : scheduler.graph.WellFormed) (hown : OwnRecords scheduler.execute) :
    scheduler.Leads scheduler.initial
      (fun last => (∃ waits ≤ scheduler.graph.ids.length,
          scheduler.Waits waits scheduler.initial last) ∧
        ∀ id ∈ scheduler.graph.ids, ∃ outcome, last.progress.get? id = some (.ended outcome))
      scheduler.run := by
  have hinitial := Coherent.initial hgraph
  have hopen := scheduler.openCount_le_length scheduler.initial
  refine (loop_leads hgraph hown hinitial (Nat.lt_succ_of_le hopen)).bind ?_
  rintro last _ hsteps ⟨⟨waits, hwaits, hcourse⟩, hended⟩
  rw [unfinished_eq_nil (Steps.coherent_of_initial hgraph hown hsteps) hended]
  rw [← Graph.length_ids] at hopen
  exact .arrives .refl ⟨⟨waits, Nat.le_trans hwaits hopen, hcourse⟩, hended⟩

/-- A run may end here: steps lead to the state, and everything has ended. The steps allow every
order in which jobs may be done, also among those that are done at the same time. -/
def Ends (scheduler : Scheduler) (last : RunState) : Prop :=
  scheduler.Steps scheduler.initial last ∧
    ∀ id ∈ scheduler.graph.ids, ∃ outcome, last.progress.get? id = some (.ended outcome)

theorem ends_of_run_eq_ok (hgraph : scheduler.graph.WellFormed)
    (hown : OwnRecords scheduler.execute) {last : RunState} (hrun : scheduler.run = .ok last) :
    scheduler.Ends last := by
  have hleads := run_leads hgraph hown
  rw [hrun] at hleads
  cases hleads with
  | arrives hsteps hgoal => exact ⟨hsteps, hgoal.2⟩

/-- A run that was broken off has the log of a moment to which steps lead. -/
theorem exists_steps_of_run_eq_error (hgraph : scheduler.graph.WellFormed)
    (hown : OwnRecords scheduler.execute) {halt : Halt} (hrun : scheduler.run = .error halt) :
    ∃ last, scheduler.Steps scheduler.initial last ∧ halt.state.log = last.log := by
  have hleads := run_leads hgraph hown
  rw [hrun] at hleads
  cases hleads with
  | interrupted last flights hsteps _ _ => exact ⟨last, hsteps, rfl⟩

/-- Without an interruption an operation arrives. -/
theorem Leads.exists_eq_ok (hgraph : scheduler.graph.WellFormed)
    (hown : OwnRecords scheduler.execute) (hcalm : Uninterrupted scheduler.execute)
    (hstate : scheduler.Coherent state) {goal : RunState → Prop} {result : Except Halt RunState}
    (hresult : scheduler.Leads state goal result) :
    ∃ last, result = .ok last ∧ scheduler.Steps state last ∧ goal last := by
  cases hresult with
  | arrives hsteps hgoal => exact ⟨_, rfl, hsteps, hgoal⟩
  | interrupted last flights hsteps hflight hrecord =>
      have hlast := Steps.coherent hgraph hown hsteps hstate
      obtain ⟨job, steps, _, hresult⟩ := hlast.flown _ hflight
      unfold recordOf? at hrecord
      split at hrecord
      · cases hrecord
      · cases hrecord
      · next hbroken => exact absurd (hresult.symm.trans hbroken) (hcalm job steps)

theorem exists_run_eq_ok (hgraph : scheduler.graph.WellFormed) (hown : OwnRecords scheduler.execute)
    (hcalm : Uninterrupted scheduler.execute) :
    ∃ waits last, waits ≤ scheduler.graph.ids.length ∧
      scheduler.Waits waits scheduler.initial last ∧ scheduler.run = .ok last := by
  obtain ⟨last, hrun, _, ⟨waits, hwaits, hcourse⟩, _⟩ :=
    (run_leads hgraph hown).exists_eq_ok hgraph hown hcalm (Coherent.initial hgraph)
  exact ⟨waits, last, hwaits, hcourse, hrun⟩

/-! ## A small run -/

/-- A job without steps. -/
def bareJob (name : String) (needs : List String) (condition : Option Condition) : JobInstance where
  id := ⟨name, []⟩
  template := { name := name, steps := [], needs := needs, condition := condition }
  steps := []
  env := .empty

/-- A build, a strict test behind it, and a report that is made in any case. -/
def smallJobs : List JobInstance :=
  [bareJob "build" [] none, bareJob "test" ["build"] none,
    bareJob "report" ["test"] (some (.status .always))]

/-- The graph of these jobs. -/
def smallGraph : Graph where
  nodes := [⟨bareJob "build" [] none, []⟩, ⟨bareJob "test" ["build"] none, [⟨"build", []⟩]⟩,
    ⟨bareJob "report" ["test"] (some (.status .always)), [⟨"test", []⟩]⟩]

theorem build_smallJobs : Graph.build smallJobs = .ok smallGraph := by
  cbv

/-- An execution in which the build fails and everything else succeeds. -/
def failingBuild (job : JobInstance) (_ : List Selection) : JobRun where
  begun := []
  calls := []
  result := .ok
    { id := job.id, outcome := if job.id.template = "build" then .failure else .success }

theorem failingBuild_ownRecords : OwnRecords failingBuild := by
  rintro job steps record hrecord
  cases hrecord
  rfl

theorem failingBuild_decided : Decided failingBuild := by
  rintro job steps record hrecord
  cases hrecord
  by_cases hname : job.id.template = "build"
  · exact Or.inr (if_pos hname)
  · exact Or.inl (if_neg hname)

theorem failingBuild_uninterrupted : Uninterrupted failingBuild := by
  intro job steps hresult
  cases hresult

/-- The run of these jobs in which the build fails. -/
def smallScheduler (maxWorkers : Nat) (hpos : 0 < maxWorkers) (failFast : Bool) : Scheduler where
  graph := smallGraph
  gate := ⟨{ kind := .manual, ref := "main" }, true⟩
  execute := failingBuild
  duration := fun _ => 1
  maxWorkers := maxWorkers
  failFast := failFast
  now := ⟨0⟩
  maxWorkers_pos := hpos

end CiPipeline.Scheduler
