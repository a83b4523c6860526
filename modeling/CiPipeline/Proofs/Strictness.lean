import CiPipeline.Proofs.Condition.Status
import CiPipeline.Proofs.Gate
import CiPipeline.Proofs.Graph.Overtaken

/-!
Strict conditions. Strictness is read off the shape of a condition, and it is acted upon before the
condition is evaluated: by the gate, and by the graph, which cancels behind a failure what is strict.
Main statement: a strict condition is false wherever something waited for did not succeed, so neither
of them turns away a job that its condition would have let run.
-/

namespace CiPipeline

namespace Condition

variable {event : Event} {outcomes : List Outcome}

theorem holds_of_mem_conjuncts {condition part : Condition}
    (hholds : condition.holds event outcomes = true) (hpart : part ∈ condition.conjuncts) :
    part.holds event outcomes = true := by
  induction condition with
  | and left right hleft hright =>
      obtain ⟨hfirst, hsecond⟩ := Bool.and_eq_true_iff.mp hholds
      rcases List.mem_append.mp hpart with hpart | hpart
      · exact hleft hfirst hpart
      · exact hright hsecond hpart
  | status _ | isTag | isBranch | refMatches _ _ | startsWith _ | eventIs _ | or _ _ | not _ =>
      obtain rfl := List.mem_singleton.mp hpart
      exact hholds

variable {condition : Option Condition}

/-- A strict condition asks for success in its outermost conjunction, by itself or because it is
implied. -/
theorem success_mem_conjuncts_effective (hstrict : requiresSuccess condition = true) :
    status .success ∈ (effective condition).conjuncts := by
  cases condition with
  | none => exact List.mem_singleton_self _
  | some condition =>
      by_cases hnone : condition.statusFunctions.isEmpty = true
      · simp [effective, hnone, conjuncts]
      · simp only [requiresSuccess, hnone, Bool.false_or, List.contains_iff_mem] at hstrict
        rw [effective, if_neg hnone]
        exact hstrict

theorem holds_effective_eq_false {outcome : Outcome} (hstrict : requiresSuccess condition = true)
    (houtcome : outcome ∈ outcomes) (hfailed : outcome ≠ .success) :
    (effective condition).holds event outcomes = false := by
  by_contra hholds
  have hsuccess := holds_of_mem_conjuncts (eq_true_of_ne_false hholds)
    (success_mem_conjuncts_effective hstrict)
  apply hfailed
  exact eq_of_beq (List.all_eq_true.mp hsuccess outcome houtcome)

end Condition

namespace Gate

variable {gate : Gate} {job : JobInstance} {needs : NeedOutcomes}

theorem holds_effective_of_unsuccessful (hstrict : Condition.requiresSuccess job.condition = true)
    (hsome : unsuccessful needs ≠ []) (event : Event) :
    (Condition.effective job.condition).holds event needs.values = false := by
  obtain ⟨⟨id, outcome⟩, hmem⟩ := List.exists_mem_of_ne_nil _ hsome
  obtain ⟨hneed, hfailed⟩ := mem_unsuccessful_iff.mp hmem
  exact Condition.holds_effective_eq_false hstrict (Table.mem_values_iff.mpr ⟨id, hneed⟩) hfailed

/-- A job that is refused early, as a strict one, has a condition that is false. -/
theorem holds_effective_of_needsFailed {failed : List (InstanceId × Outcome)}
    (hrefused : gate.decide job needs = .refuse (.needsFailed failed)) :
    (Condition.effective job.condition).holds gate.event needs.values = false := by
  have hdecides := gate.decides_decide job needs
  rw [hrefused] at hdecides
  cases hdecides with
  | needsFailed hstrict hsome => exact holds_effective_of_unsuccessful hstrict hsome gate.event

/-- Strictness plays no part in what is permitted. -/
theorem isPermitted_decide_iff :
    (gate.decide job needs).isPermitted = true ↔ ¬ gate.Obstructs job needs ∧
      (Condition.effective job.condition).holds gate.event needs.values = true := by
  have hdecides := gate.decides_decide job needs
  generalize gate.decide job needs = verdict at hdecides
  cases hdecides with
  | needsFailed hstrict hsome =>
      simp [Verdict.isPermitted, holds_effective_of_unsuccessful hstrict hsome]
  | needsCancelled hobstructs => simp [Verdict.isPermitted, hobstructs]
  | run hclear hholds => simp [Verdict.isPermitted, hclear, hholds]
  | conditionFalse hfalse => simp [Verdict.isPermitted, hfalse]

end Gate

namespace Graph

variable {graph : Graph} {progress : Progress} {id child : InstanceId} {outcome : Outcome}

/-- A table of outcomes has those of the needs of an instance that have ended. -/
def Reports (graph : Graph) (progress : Progress) (child : InstanceId)
    (needs : Gate.NeedOutcomes) : Prop :=
  ∀ need ∈ graph.dependencies child, ∀ outcome,
    progress.get? need = some (.ended outcome) → needs.get? need = some outcome

/-- What is overtaken has a need that has ended without success: the one that ended, or one that was
overtaken before it. -/
theorem exists_failed_need (hnodup : graph.ids.Nodup)
    (hchild : child ∈ graph.overtaken progress id outcome) :
    ∃ need ∈ graph.dependencies child, ∃ failed, failed ≠ .success ∧
      (cancelAll (progress.insert id (.ended outcome))
        (graph.overtaken progress id outcome)).get? need = some (.ended failed) := by
  obtain ⟨hfailed, _, _, _, need, hneed, hfrom⟩ := of_mem_overtaken hnodup hchild
  by_cases hovertaken : need ∈ graph.overtaken progress id outcome
  · exact ⟨need, hneed, .cancelled, by decide, by rw [get?_end, if_pos hovertaken]⟩
  · have hself : id = need := (hfrom.resolve_right hovertaken).symm
    exact ⟨need, hneed, outcome, hfailed, by rw [get?_end, if_neg hovertaken, if_pos hself]⟩

/-- An instance that a call cancels is strict and has a need that ended without success. -/
theorem exists_failed_need_of_run {before after : Progress} {cancelled : List InstanceId}
    (hnodup : graph.ids.Nodup)
    (hrun : (graph.perform (.markComplete id outcome)).run before = .ok cancelled after)
    (hchild : child ∈ cancelled) :
    graph.isStrict child = true ∧ ∃ need ∈ graph.dependencies child, ∃ failed,
      failed ≠ .success ∧ after.get? need = some (.ended failed) := by
  rw [run_perform hnodup, Call.result] at hrun
  cases hstate : before.get? id with
  | none => simp [markComplete, hstate, placed] at hrun
  | some state =>
      cases hterminal : state.isTerminal with
      | true =>
          simp only [markComplete, hstate, hterminal, if_true, placed] at hrun
          cases hrun
          exact absurd hchild List.not_mem_nil
      | false =>
          rw [markComplete_ok graph hstate hterminal, placed] at hrun
          cases hrun
          obtain ⟨_, _, _, hstrict, _⟩ := of_mem_overtaken hnodup hchild
          exact ⟨hstrict, exists_failed_need hnodup hchild⟩

end Graph

/-- Strictness is sound. The condition of a strict job is false wherever something waited for did not
succeed. So the early refusal of the gate changes nothing about what it permits: that is what the
condition permits, unless cancelled needs stand against it. And what a call on a graph that was built
cancels behind an instance could not have run: its condition is false with whatever outcomes its needs
come to afterwards, on any event. -/
theorem strictness_is_sound :
    (∀ (condition : Option Condition) (event : Event) (outcomes : List Outcome),
      Condition.requiresSuccess condition = true → (∃ outcome ∈ outcomes, outcome ≠ .success) →
      (Condition.effective condition).holds event outcomes = false) ∧
    (∀ (gate : Gate) (job : JobInstance) (needs : Gate.NeedOutcomes),
      (∀ failed, gate.decide job needs = .refuse (.needsFailed failed) →
        (Condition.effective job.condition).holds gate.event needs.values = false) ∧
      ((gate.decide job needs).isPermitted = true ↔ ¬ gate.Obstructs job needs ∧
        (Condition.effective job.condition).holds gate.event needs.values = true)) ∧
    (∀ (jobs : List JobInstance) (declared : Option (Table String (List String))) (graph : Graph),
      Graph.build jobs declared = .ok graph → ∀ calls id outcome cancelled after,
      (graph.perform (.markComplete id outcome)).run (graph.session calls) =
        .ok cancelled after →
      ∀ child ∈ cancelled, ∃ job, graph.job? child = some job ∧ ∀ more event needs,
        graph.Reports (graph.session (calls ++ .markComplete id outcome :: more)) child needs →
        (Condition.effective job.condition).holds event needs.values = false) := by
  refine ⟨?_, ?_, ?_⟩
  · rintro condition event outcomes hstrict ⟨outcome, houtcome, hfailed⟩
    exact Condition.holds_effective_eq_false hstrict houtcome hfailed
  · intro gate job needs
    exact ⟨fun _ => Gate.holds_effective_of_needsFailed, Gate.isPermitted_decide_iff⟩
  · intro jobs declared graph hbuild calls id outcome cancelled after hrun child hchild
    have hnodup := (Graph.build_wellFormed hbuild).nodup_ids
    obtain ⟨hstrict, need, hneed, failed, hfailed, hended⟩ :=
      Graph.exists_failed_need_of_run hnodup hrun hchild
    obtain ⟨job, hjob⟩ := Graph.mem_ids_iff.mp (Graph.mem_ids_of_mem_dependencies hneed)
    rw [Graph.isStrict, hjob] at hstrict
    refine ⟨job, hjob, ?_⟩
    intro more event needs hreports
    have hlater : (graph.session (calls ++ .markComplete id outcome :: more)).get? need =
        some (.ended failed) := by
      have hafter : graph.session (calls ++ [.markComplete id outcome]) = after := by
        rw [Graph.session, List.foldl_concat, ← Graph.session, Graph.after, hrun]
      have hmoves := Graph.movesOn_session_append hnodup (calls ++ [.markComplete id outcome]) more
      rw [List.append_assoc, hafter] at hmoves
      obtain ⟨later, hlater, hleads⟩ := hmoves.later need _ hended
      rw [hleads.eq_of_terminal rfl] at hlater
      exact hlater
    have hneeded := hreports need hneed failed hlater
    exact Condition.holds_effective_eq_false hstrict
      (Table.mem_values_iff.mpr ⟨need, hneeded⟩) hfailed

/-- A push to the main branch. -/
def mainPush : Event where
  kind := .push
  ref := "refs/heads/main"

/-- A build that failed and a check that was cancelled with it. -/
def brokenBuild : Gate.NeedOutcomes :=
  .ofList [(⟨"build", []⟩, .failure), (⟨"check", []⟩, .cancelled)]

/-- The deployment that waits for the build and for the check. -/
def deployJob : JobInstance :=
  Graph.needyJob "deploy" ["build", "check"]

/-- The build fails. The graph cancels the deployment, the gate would refuse it early, and its
condition is false. -/
theorem strictness_is_sound_forked :
    (Condition.effective none).holds mainPush [.success, .skipped] = false ∧
      Gate.decide ⟨mainPush, false⟩ deployJob brokenBuild =
        .refuse (.needsFailed brokenBuild.entries) ∧
      (Condition.effective deployJob.condition).holds mainPush brokenBuild.values = false ∧
      ∃ after, (Graph.forkedGraph.perform (.markComplete ⟨"build", []⟩ .failure)).run
          (Graph.forkedGraph.session []) = .ok [⟨"check", []⟩, ⟨"deploy", []⟩] after ∧
        ∀ event,
          (Condition.effective deployJob.condition).holds event brokenBuild.values = false := by
  obtain ⟨hcondition, hgate, hgraph⟩ := strictness_is_sound
  have hrefused : Gate.decide ⟨mainPush, false⟩ deployJob brokenBuild =
      .refuse (.needsFailed brokenBuild.entries) := by
    cbv
  have hrun : ∃ after, (Graph.forkedGraph.perform (.markComplete ⟨"build", []⟩ .failure)).run
      (Graph.forkedGraph.session []) = .ok [⟨"check", []⟩, ⟨"deploy", []⟩] after :=
    ⟨_, by cbv⟩
  obtain ⟨after, hrun⟩ := hrun
  have hreports : Graph.forkedGraph.Reports
      (Graph.forkedGraph.session [.markComplete ⟨"build", []⟩ .failure]) ⟨"deploy", []⟩
      brokenBuild := by
    have hbuild : (Graph.forkedGraph.session [.markComplete ⟨"build", []⟩ .failure]).get?
        ⟨"build", []⟩ = some (.ended .failure) := by cbv
    have hcheck : (Graph.forkedGraph.session [.markComplete ⟨"build", []⟩ .failure]).get?
        ⟨"check", []⟩ = some (.ended .cancelled) := by cbv
    intro need hneed outcome hended
    rcases List.mem_pair.mp hneed with rfl | rfl
    · cases hbuild.symm.trans hended
      rfl
    · cases hcheck.symm.trans hended
      rfl
  refine ⟨hcondition none mainPush _ rfl ⟨.skipped, by decide, by decide⟩, hrefused,
    (hgate _ _ _).1 _ hrefused, after, hrun, ?_⟩
  intro event
  obtain ⟨job, hjob, hfalse⟩ := hgraph _ none _ Graph.build_forkedJobs [] _ _ _ _ hrun
    ⟨"deploy", []⟩ (by decide)
  cases hjob
  exact hfalse [] event brokenBuild hreports

end CiPipeline
