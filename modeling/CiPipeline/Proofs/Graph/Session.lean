import CiPipeline.Graph.Session
import CiPipeline.Proofs.Graph.Cycle
import CiPipeline.Proofs.Graph.Transition
import Mathlib

/-!
What holds after any calls on the states of a graph. A call in place writes just what the transition
of its name computes, so what a transition keeps is kept in every session: states only move forward,
no strict instance is pending behind one that ended without success, and a failure has written
nothing. As needs have an order, there is always something to go on with until everything has ended.
-/

namespace CiPipeline

namespace JobState

/-- How far a job has come. -/
def stage : JobState → Nat
  | pending => 0
  | dispatchable => 1
  | running => 2
  | ended _ => 3

/-- A later state of a job: the same, or one further on. -/
def LeadsTo (state later : JobState) : Prop :=
  later = state ∨ state.stage < later.stage

theorem LeadsTo.trans {first second third : JobState} (hfirst : first.LeadsTo second)
    (hsecond : second.LeadsTo third) : first.LeadsTo third := by
  rcases hfirst with rfl | hless
  · exact hsecond
  · rcases hsecond with rfl | hmore
    · exact Or.inr hless
    · exact Or.inr (Nat.lt_trans hless hmore)

theorem leadsTo_ended {state : JobState} (hopen : state.isTerminal = false) (outcome : Outcome) :
    state.LeadsTo (.ended outcome) := by
  right
  cases state with
  | ended outcome => cases hopen
  | pending => simp [stage]
  | dispatchable => simp [stage]
  | running => simp [stage]

theorem LeadsTo.eq_of_terminal {state later : JobState} (hlater : state.LeadsTo later)
    (hterminal : state.isTerminal = true) : later = state := by
  rcases hlater with heq | hless
  · exact heq
  · cases state with
    | ended outcome => cases later <;> simp [stage] at hless
    | pending => cases hterminal
    | dispatchable => cases hterminal
    | running => cases hterminal

end JobState

namespace Graph

variable {graph : Graph} {progress : Progress} {id : InstanceId}

/-! ## Calls in place -/

/-- What a call comes to by the transitions. -/
def Call.result (graph : Graph) (progress : Progress) :
    Call → Except TransitionError (Progress × List InstanceId)
  | .markDispatchable id => do return (← Graph.markDispatchable progress id, [])
  | .markRunning id => do return (← Graph.markRunning progress id, [])
  | .markComplete id outcome => graph.markComplete progress id outcome
  | .cancelPending => .ok (Graph.cancelPending progress)

/-- What is left in place by something that the transitions compute: a failure changes nothing. -/
def placed {α : Type} (progress : Progress) :
    Except TransitionError (Progress × α) → EStateM.Result TransitionError Progress α
  | .ok (next, a) => .ok a next
  | .error error => .error error progress

theorem run_move (progress : Progress) (id : InstanceId) (expected new : JobState) :
    (Action.move id expected new).run progress =
      placed progress ((transition progress id expected new).map (·, ())) := by
  simp only [Action.move, transition, EStateM.run_bind, EStateM.run_get]
  cases progress.get? id with
  | none => rfl
  | some current =>
      by_cases hcurrent : current = expected
      · simp only [hcurrent, if_true]
        rfl
      · simp only [hcurrent, if_false]
        rfl

theorem run_cancelEach (ids : List InstanceId) (progress : Progress) :
    (Action.cancelEach ids).run progress = .ok () (cancelAll progress ids) := by
  induction ids generalizing progress with
  | nil => rfl
  | cons id rest ih => exact ih (progress.insert id (.ended .cancelled))

/-- Whether an instance is strict and pending. -/
def isStrictPending (graph : Graph) (progress : Progress) (id : InstanceId) : Bool :=
  progress.get? id == some .pending && graph.isStrict id

theorem cancelStrict_cons (graph : Graph) (child : InstanceId) (rest : List InstanceId) :
    Action.cancelStrict graph (child :: rest) = (do
      if graph.isStrictPending (← get) child then
        modify (·.insert child (.ended .cancelled))
        return child :: (← Action.cancelStrict graph rest)
      else Action.cancelStrict graph rest) := rfl

/-- Each instance is looked at once, so what was cancelled before it plays no part. -/
theorem run_cancelStrict (graph : Graph) {children : List InstanceId} (hnodup : children.Nodup)
    (progress : Progress) :
    (Action.cancelStrict graph children).run progress =
      .ok (children.filter (graph.isStrictPending progress))
        (cancelAll progress (children.filter (graph.isStrictPending progress))) := by
  induction children generalizing progress with
  | nil => rfl
  | cons child rest ih =>
      rw [List.nodup_cons] at hnodup
      have hsame : ∀ other ∈ rest,
          graph.isStrictPending (progress.insert child (.ended .cancelled)) other =
            graph.isStrictPending progress other := by
        intro other hother
        have hne : ¬ child = other := by
          rintro rfl
          exact hnodup.1 hother
        rw [isStrictPending, isStrictPending, Table.get?_insert, if_neg hne]
      rw [cancelStrict_cons, List.filter_cons, EStateM.run_bind, EStateM.run_get]
      by_cases hchild : graph.isStrictPending progress child = true
      · have hrest := ih hnodup.2 (progress.insert child (.ended .cancelled))
        rw [List.filter_congr hsame] at hrest
        simp only [hchild, if_true, EStateM.run_bind, EStateM.run_modify, hrest]
        rfl
      · simp only [hchild, Bool.false_eq_true, if_false]
        exact ih hnodup.2 progress

theorem run_cancelBehind (hnodup : graph.ids.Nodup) (rounds : Nat) (queue : List InstanceId)
    (progress : Progress) :
    (Action.cancelBehind graph rounds queue).run progress =
      .ok (graph.cascade rounds queue progress).2 (graph.cascade rounds queue progress).1 := by
  induction rounds generalizing queue progress with
  | zero => rfl
  | succ rounds ih =>
      cases queue with
      | nil => rfl
      | cons id queue =>
          have hchildren : (graph.dependents id).Nodup := nodup_dependents hnodup
          simp only [Action.cancelBehind, EStateM.run_bind, run_cancelStrict graph hchildren, ih]
          rfl

theorem run_complete (hnodup : graph.ids.Nodup) (progress : Progress) (id : InstanceId)
    (outcome : Outcome) :
    (Action.complete graph id outcome).run progress =
      placed progress (graph.markComplete progress id outcome) := by
  simp only [Action.complete, markComplete, EStateM.run_bind, EStateM.run_get]
  cases progress.get? id with
  | none => rfl
  | some state =>
      by_cases hterminal : state.isTerminal = true
      · simp only [hterminal, if_true]
        rfl
      · simp only [hterminal]
        by_cases hsuccess : outcome = .success
        · simp only [hsuccess, if_true]
          rfl
        · simp only [hsuccess, if_false]
          exact run_cancelBehind hnodup _ _ _

/-- A call in place writes what the transition of its name computes, and nothing when it fails. -/
theorem run_perform (hnodup : graph.ids.Nodup) (progress : Progress) (call : Call) :
    (graph.perform call).run progress = placed progress (call.result graph progress) := by
  cases call with
  | markDispatchable id =>
      simp only [perform, Call.result, markDispatchable, EStateM.run_bind, run_move]
      cases transition progress id .pending .dispatchable <;> rfl
  | markRunning id =>
      simp only [perform, Call.result, markRunning, EStateM.run_bind, run_move]
      cases transition progress id .dispatchable .running <;> rfl
  | markComplete id outcome => exact run_complete hnodup progress id outcome
  | cancelPending =>
      simp only [perform, Action.cancelUnstarted, EStateM.run_bind, EStateM.run_get,
        run_cancelEach]
      rfl

/-! ## What a call keeps -/

/-- The same instances have states, and none has gone back. -/
structure MovesOn (before after : Progress) : Prop where
  keys_eq : after.keys = before.keys
  later : ∀ id state, before.get? id = some state →
    ∃ later, after.get? id = some later ∧ state.LeadsTo later

theorem MovesOn.refl (progress : Progress) : MovesOn progress progress :=
  ⟨rfl, fun _ state hstate => ⟨state, hstate, Or.inl rfl⟩⟩

theorem MovesOn.trans {first second third : Progress} (hfirst : MovesOn first second)
    (hsecond : MovesOn second third) : MovesOn first third := by
  refine ⟨hsecond.keys_eq.trans hfirst.keys_eq, ?_⟩
  intro id state hstate
  obtain ⟨middle, hmiddle, hstep⟩ := hfirst.later id state hstate
  obtain ⟨last, hlast, hmore⟩ := hsecond.later id middle hmiddle
  exact ⟨last, hlast, hstep.trans hmore⟩

theorem movesOn_insert {state new : JobState} (hstate : progress.get? id = some state)
    (hnew : state.LeadsTo new) : MovesOn progress (progress.insert id new) := by
  refine ⟨Table.keys_insert_of_mem (Table.mem_keys_iff.mpr ⟨state, hstate⟩) new, ?_⟩
  intro other current hcurrent
  rw [Table.get?_insert]
  by_cases hother : id = other
  · subst hother
    cases hstate.symm.trans hcurrent
    exact ⟨new, if_pos rfl, hnew⟩
  · exact ⟨current, by rw [if_neg hother, hcurrent], Or.inl rfl⟩

theorem movesOn_end {state : JobState} (hstate : progress.get? id = some state)
    (hopen : state.isTerminal = false) (outcome : Outcome) :
    MovesOn progress (progress.insert id (.ended outcome)) :=
  movesOn_insert hstate (JobState.leadsTo_ended hopen outcome)

theorem movesOn_cancelAll {cancelled : List InstanceId} (hnodup : cancelled.Nodup)
    (hopen : ∀ id ∈ cancelled, ∃ state, progress.get? id = some state ∧
      state.isTerminal = false) : MovesOn progress (cancelAll progress cancelled) := by
  induction cancelled generalizing progress with
  | nil => exact MovesOn.refl progress
  | cons first rest ih =>
      rw [List.nodup_cons] at hnodup
      obtain ⟨state, hstate, hstill⟩ := hopen first List.mem_cons_self
      refine (movesOn_end hstate hstill .cancelled).trans (ih hnodup.2 ?_)
      intro id hid
      have hne : ¬ first = id := by
        rintro rfl
        exact hnodup.1 hid
      rw [Table.get?_insert, if_neg hne]
      exact hopen id (List.mem_cons_of_mem first hid)

/-- What the calls keep: the instances of the graph have states, and the strict ones that are pending
wait for nothing that ended without success. -/
structure Sound (graph : Graph) (progress : Progress) : Prop where
  keys_eq : progress.keys = graph.ids
  needs_succeeded : graph.NeedsSucceeded progress

theorem sound_fresh (hnodup : graph.ids.Nodup) : graph.Sound graph.fresh := by
  refine ⟨keys_fresh hnodup, ?_⟩
  intro id _ _ need _ outcome hended
  cases get?_fresh hnodup hended

theorem NeedsSucceeded.move {state new : JobState} (hneeds : graph.NeedsSucceeded progress)
    (hstate : progress.get? id = some state) (hopen : state.isTerminal = false)
    (hnew : new.isTerminal = false) (hstarted : new ≠ .pending) :
    graph.NeedsSucceeded (progress.insert id new) := by
  intro child hpending hstrict need hneed outcome hended
  have hstill : ∀ outcome, progress.get? id ≠ some (.ended outcome) := by
    intro outcome heq
    cases hstate.symm.trans heq
    cases hopen
  have hunended : ∀ outcome, new ≠ .ended outcome := by
    rintro outcome rfl
    cases hnew
  exact hneeds child (get?_of_insert hstarted.symm hpending) hstrict need hneed outcome
    ((ended_insert_iff hstill hunended need outcome).mp hended)

theorem needsSucceeded_stop (graph : Graph) (progress : Progress) :
    graph.NeedsSucceeded (cancelAll progress (unstarted progress)) := by
  intro id hpending
  rw [get?_cancelAll] at hpending
  split at hpending
  · cases hpending
  · next hstarted => exact absurd (mem_unstarted_iff.mpr (Or.inl hpending)) hstarted

/-- One step of a job towards its run. -/
theorem sound_transition {expected new : JobState} {next : Progress} (hsound : graph.Sound progress)
    (hok : transition progress id expected new = .ok next) (hstep : expected.stage < new.stage)
    (hnew : new.isTerminal = false) : MovesOn progress next ∧ graph.Sound next := by
  unfold transition at hok
  cases hstate : progress.get? id with
  | none =>
      rw [hstate] at hok
      cases hok
  | some current =>
      simp only [hstate] at hok
      by_cases hcurrent : current = expected
      · rw [if_pos hcurrent] at hok
        cases hok
        subst hcurrent
        have hmoves := movesOn_insert hstate (Or.inr hstep : current.LeadsTo new)
        have hopen : current.isTerminal = false := by
          cases current with
          | ended outcome => cases new <;> simp [JobState.stage] at hstep
          | pending => rfl
          | dispatchable => rfl
          | running => rfl
        have hstarted : new ≠ .pending := by
          rintro rfl
          exact absurd hstep (Nat.not_lt_zero _)
        exact ⟨hmoves, hmoves.keys_eq.trans hsound.keys_eq,
          hsound.needs_succeeded.move hstate hopen hnew hstarted⟩
      · rw [if_neg hcurrent] at hok
        cases hok

theorem sound_complete {outcome : Outcome} {next : Progress} {cancelled : List InstanceId}
    (hnodup : graph.ids.Nodup) (hsound : graph.Sound progress)
    (hok : graph.markComplete progress id outcome = .ok (next, cancelled)) :
    MovesOn progress next ∧ graph.Sound next := by
  cases hstate : progress.get? id with
  | none => simp [markComplete, hstate] at hok
  | some state =>
      cases hterminal : state.isTerminal with
      | true =>
          simp only [markComplete, hstate, hterminal, if_true] at hok
          cases hok
          exact ⟨MovesOn.refl _, hsound⟩
      | false =>
          rw [markComplete_ok graph hstate hterminal] at hok
          cases hok
          have hid : id ∈ graph.ids :=
            hsound.keys_eq ▸ Table.mem_keys_iff.mpr ⟨state, hstate⟩
          have hmoves : MovesOn progress (cancelAll (progress.insert id (.ended outcome))
              (graph.overtaken progress id outcome)) := by
            refine (movesOn_end hstate hterminal outcome).trans
              (movesOn_cancelAll (nodup_overtaken hnodup outcome) ?_)
            intro child hchild
            obtain ⟨_, hne, hpending, _⟩ := of_mem_overtaken hnodup hchild
            rw [Table.get?_insert, if_neg hne.symm]
            exact ⟨.pending, hpending, rfl⟩
          exact ⟨hmoves, hmoves.keys_eq.trans hsound.keys_eq,
            hsound.needs_succeeded.end hnodup hid outcome⟩

theorem sound_stop (hsound : graph.Sound progress) :
    MovesOn progress (cancelPending progress).1 ∧ graph.Sound (cancelPending progress).1 := by
  have hmoves : MovesOn progress (cancelAll progress (unstarted progress)) := by
    apply movesOn_cancelAll (nodup_unstarted progress)
    intro id hid
    rcases mem_unstarted_iff.mp hid with hpending | hqueued
    · exact ⟨.pending, hpending, rfl⟩
    · exact ⟨.dispatchable, hqueued, rfl⟩
  exact ⟨hmoves, hmoves.keys_eq.trans hsound.keys_eq, needsSucceeded_stop graph progress⟩

theorem sound_result {call : Call} {next : Progress} {cancelled : List InstanceId}
    (hnodup : graph.ids.Nodup) (hsound : graph.Sound progress)
    (hok : call.result graph progress = .ok (next, cancelled)) :
    MovesOn progress next ∧ graph.Sound next := by
  cases call with
  | markDispatchable id =>
      obtain ⟨moved, hmoved, heq⟩ := bind_eq_ok_iff.mp hok
      cases heq
      exact sound_transition hsound hmoved (by decide) rfl
  | markRunning id =>
      obtain ⟨moved, hmoved, heq⟩ := bind_eq_ok_iff.mp hok
      cases heq
      exact sound_transition hsound hmoved (by decide) rfl
  | markComplete id outcome => exact sound_complete hnodup hsound hok
  | cancelPending =>
      cases hok
      exact sound_stop hsound

/-! ## Sessions -/

theorem after_eq_of_error (hnodup : graph.ids.Nodup) {call : Call} {error : TransitionError}
    {left : Progress} (hfails : (graph.perform call).run progress = .error error left) :
    left = progress := by
  rw [run_perform hnodup] at hfails
  cases hresult : call.result graph progress with
  | ok result =>
      rw [hresult] at hfails
      cases hfails
  | error error =>
      rw [hresult] at hfails
      cases hfails
      rfl

theorem sound_after (hnodup : graph.ids.Nodup) (hsound : graph.Sound progress) (call : Call) :
    MovesOn progress (graph.after progress call) ∧ graph.Sound (graph.after progress call) := by
  unfold after
  rw [run_perform hnodup]
  cases hresult : call.result graph progress with
  | ok result => exact sound_result hnodup hsound hresult
  | error error => exact ⟨MovesOn.refl progress, hsound⟩

theorem sound_foldl_after (hnodup : graph.ids.Nodup) (calls : List Call)
    (hsound : graph.Sound progress) :
    MovesOn progress (calls.foldl graph.after progress) ∧
      graph.Sound (calls.foldl graph.after progress) := by
  induction calls generalizing progress with
  | nil => exact ⟨MovesOn.refl progress, hsound⟩
  | cons call rest ih =>
      obtain ⟨hmoves, hnext⟩ := sound_after hnodup hsound call
      obtain ⟨hmore, hlast⟩ := ih hnext
      exact ⟨hmoves.trans hmore, hlast⟩

theorem sound_session (hnodup : graph.ids.Nodup) (calls : List Call) :
    graph.Sound (graph.session calls) :=
  (sound_foldl_after hnodup calls (sound_fresh hnodup)).2

theorem movesOn_session_append (hnodup : graph.ids.Nodup) (calls more : List Call) :
    MovesOn (graph.session calls) (graph.session (calls ++ more)) := by
  have hmoves := (sound_foldl_after hnodup more (sound_session hnodup calls)).1
  rw [session, ← List.foldl_append] at hmoves
  exact hmoves

/-- The states of a graph that was built, after any calls, legal or not: every instance has one; calls
that follow move it forward only, and not at all once it is an end; no strict instance is pending
behind one that ended without success, so whatever strict instance is ready has needs that all
succeeded; and a call that fails leaves the states as they are. -/
theorem session_invariants {jobs : List JobInstance} {needs : Option (Table String (List String))}
    (hbuild : build jobs needs = .ok graph) (calls : List Call) :
    (∀ id, id ∈ graph.ids ↔ ∃ state, (graph.session calls).get? id = some state) ∧
    (∀ more id state, (graph.session calls).get? id = some state →
      ∃ later, (graph.session (calls ++ more)).get? id = some later ∧ state.LeadsTo later ∧
        (state.isTerminal = true → later = state)) ∧
    (∀ id, (graph.session calls).get? id = some .pending → graph.isStrict id = true →
      ∀ need ∈ graph.dependencies id, ∀ outcome,
        (graph.session calls).get? need = some (.ended outcome) → outcome = .success) ∧
    (∀ id ∈ graph.ready (graph.session calls), graph.isStrict id = true →
      ∀ need ∈ graph.dependencies id,
        (graph.session calls).get? need = some (.ended .success)) ∧
    (∀ call error left, (graph.perform call).run (graph.session calls) = .error error left →
      left = graph.session calls) := by
  have hnodup := (build_wellFormed hbuild).nodup_ids
  have hsound := sound_session hnodup calls
  refine ⟨?_, ?_, hsound.needs_succeeded, ?_, ?_⟩
  · intro id
    rw [← hsound.keys_eq, Table.mem_keys_iff]
  · intro more id state hstate
    obtain ⟨later, hlater, hleads⟩ :=
      (movesOn_session_append hnodup calls more).later id state hstate
    exact ⟨later, hlater, hleads, hleads.eq_of_terminal⟩
  · intro id hready hstrict need hneed
    obtain ⟨_, hpending, hended⟩ := (mem_ready_iff hnodup).mp hready
    obtain ⟨outcome, houtcome⟩ := hended need hneed
    cases hsound.needs_succeeded id hpending hstrict need hneed outcome houtcome
    exact houtcome
  · intro call error left hfails
    exact after_eq_of_error hnodup hfails

/-- A build and a strict test behind it. -/
def chainedJobs : List JobInstance :=
  [needyJob "build" [], needyJob "test" ["build"]]

/-- The graph of these jobs. -/
def chainedGraph : Graph where
  nodes := [⟨needyJob "build" [], []⟩, ⟨needyJob "test" ["build"], [⟨"build", []⟩]⟩]

theorem build_chainedJobs : build chainedJobs = .ok chainedGraph := by
  cbv

/-- The build fails, after it was started too early. -/
def failedChain : List Call :=
  [.markRunning ⟨"build", []⟩, .markComplete ⟨"build", []⟩ .failure]

theorem session_invariants_chained :
    build chainedJobs = .ok chainedGraph ∧ ∀ more,
      (chainedGraph.session (failedChain ++ more)).get? ⟨"test", []⟩ =
        some (.ended .cancelled) := by
  refine ⟨build_chainedJobs, ?_⟩
  intro more
  have htest : (chainedGraph.session failedChain).get? ⟨"test", []⟩ = some (.ended .cancelled) := by
    decide +kernel
  obtain ⟨_, hforward, _⟩ := session_invariants build_chainedJobs failedChain
  obtain ⟨later, hlater, _, hstays⟩ := hforward more _ _ htest
  rw [hlater, hstays rfl]

/-! ## Something is left to do until everything has ended -/

theorem isFinished_iff :
    isFinished progress = true ↔
      ∀ id ∈ progress.keys, ∃ outcome, progress.get? id = some (.ended outcome) := by
  rw [isFinished, List.all_eq_true]
  constructor
  · intro hall id hid
    obtain ⟨state, hstate⟩ := Table.mem_keys_iff.mp hid
    have hterminal := hall state (Table.mem_values_iff.mpr ⟨id, hstate⟩)
    exact isTerminal_eq_true_iff.mp (by rw [isTerminal, hstate]; exact hterminal)
  · intro hall state hvalue
    obtain ⟨id, hstate⟩ := Table.mem_values_iff.mp hvalue
    have hterminal := isTerminal_eq_true_iff.mpr (hall id (Table.mem_keys_iff.mpr ⟨state, hstate⟩))
    rw [isTerminal, hstate] at hterminal
    exact hterminal

/-- The states of a graph that was built, after any calls, legal or not: as long as not everything has
ended, either something is queued or running, or something is ready. In the latter case there is
something ready among what any instance that has not ended waits for, directly or not. -/
theorem session_never_deadlocks {jobs : List JobInstance}
    {needs : Option (Table String (List String))} (hbuild : build jobs needs = .ok graph)
    (calls : List Call)
    (hidle : ∀ id, (graph.session calls).get? id ≠ some .dispatchable ∧
      (graph.session calls).get? id ≠ some .running)
    (hopen : isFinished (graph.session calls) = false) :
    graph.ready (graph.session calls) ≠ [] ∧
      ∀ id ∈ graph.ids, (∀ outcome, (graph.session calls).get? id ≠ some (.ended outcome)) →
        ∃ other ∈ graph.ready (graph.session calls),
          Relation.ReflTransGen (fun a b => b ∈ graph.dependencies a) id other := by
  have hgraph := build_wellFormed hbuild
  have hsound := sound_session hgraph.nodup_ids calls
  constructor
  · intro hready
    have hended := hgraph.ended_of_ready_eq_nil hsound.keys_eq hidle hready
    rw [← hsound.keys_eq] at hended
    exact absurd (isFinished_iff.mpr hended) (by simp [hopen])
  · intro id hid hunended
    obtain ⟨other, hleads, hmem | hqueued | hrunning⟩ :=
      hgraph.exists_stirs hsound.keys_eq id hid hunended
    · exact ⟨other, hmem, hleads⟩
    · exact absurd hqueued (hidle other).1
    · exact absurd hrunning (hidle other).2

/-- The build succeeds. -/
def builtChain : List Call :=
  [.markDispatchable ⟨"build", []⟩, .markRunning ⟨"build", []⟩,
    .markComplete ⟨"build", []⟩ .success]

/-- Behind the build nothing is queued or running, and the test is ready. -/
theorem session_never_deadlocks_chained :
    build chainedJobs = .ok chainedGraph ∧
      (∀ id, (chainedGraph.session builtChain).get? id ≠ some .dispatchable ∧
        (chainedGraph.session builtChain).get? id ≠ some .running) ∧
      isFinished (chainedGraph.session builtChain) = false ∧
      chainedGraph.ready (chainedGraph.session builtChain) ≠ [] := by
  have hentries : (chainedGraph.session builtChain).entries =
      [(⟨"build", []⟩, .ended .success), (⟨"test", []⟩, .pending)] := by
    decide +kernel
  have hidle : ∀ id, (chainedGraph.session builtChain).get? id ≠ some .dispatchable ∧
      (chainedGraph.session builtChain).get? id ≠ some .running := by
    intro id
    simp [Table.get?_eq_some_iff, hentries]
  have hopen : isFinished (chainedGraph.session builtChain) = false := by
    decide +kernel
  exact ⟨build_chainedJobs, hidle, hopen,
    (session_never_deadlocks build_chainedJobs builtChain hidle hopen).1⟩

end Graph
end CiPipeline
