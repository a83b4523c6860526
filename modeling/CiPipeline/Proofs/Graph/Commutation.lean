import CiPipeline.Proofs.Graph.Overtaken

/-!
Ends of running instances in different orders. Each end that is no success cancels what lies behind
it in states that the ends before it have changed already, so nothing is shown by looking at two ends
at a time; instead the states after some ends are described without their order. Main statement:
ending the same running instances in any two orders leaves the same states, and cancels the same
instances, each once.
-/

namespace CiPipeline.Graph

variable {graph : Graph} {before middle after : Progress} {id child : InstanceId}
  {outcome : Outcome} {ends : List (InstanceId × Outcome)} {cancelled : List InstanceId}

/-- The calls that end some instances. -/
def completions (ends : List (InstanceId × Outcome)) : List Call :=
  ends.map fun ending => .markComplete ending.1 ending.2

/-- Makes some calls one after the other; the answer is all that they have cancelled. -/
def performAll (graph : Graph) : List Call → Action (List InstanceId)
  | [] => return []
  | call :: rest => do
    let cancelled ← graph.perform call
    return cancelled ++ (← performAll graph rest)

/-! ## What one end leaves pending -/

namespace EndsWith

variable (hends : graph.EndsWith before middle id outcome cancelled)

include hends

theorem get?_eq (hne : child ≠ id) (hkept : child ∉ cancelled) :
    middle.get? child = before.get? child :=
  Decidable.not_not.mp fun hchanged => hkept ((hends.changed_iff child hne).mp hchanged)

/-- Whatever is still pending was pending before and is not cancelled. -/
theorem of_pending (hpending : middle.get? child = some .pending) :
    before.get? child = some .pending ∧ child ∉ cancelled := by
  have hkept : child ∉ cancelled := by
    intro hmem
    rw [hends.ended_cancelled child hmem] at hpending
    cases hpending
  have hne : child ≠ id := by
    rintro rfl
    rw [hends.ended] at hpending
    cases hpending
  rw [← hends.get?_eq hne hkept]
  exact ⟨hpending, hkept⟩

/-- The chains after an end were chains before it. -/
theorem onChainBehind {other : InstanceId} (hchain : graph.OnChainBehind middle other child) :
    graph.OnChainBehind before other child := by
  refine Relation.TransGen.mono ?_ _ _ hchain
  intro a b hstep
  exact ⟨hstep.1, (hends.of_pending hstep.2.1).1, hstep.2.2⟩

/-- A chain behind another instance is left as it is up to the first instance on it that is
cancelled. From there on all of it is cancelled, for it lies behind the instance that ended too. -/
theorem mem_or_onChainBehind (hrunning : before.get? id = some .running) {other : InstanceId}
    (hchain : graph.OnChainBehind before other child) :
    child ∈ cancelled ∨ graph.OnChainBehind middle other child := by
  have hstays : ∀ {a b : InstanceId}, graph.FallsBehind before a b → b ∉ cancelled →
      graph.FallsBehind middle a b := by
    intro a b hstep hkept
    have hne : b ≠ id := by
      rintro rfl
      rw [hstep.2.1] at hrunning
      cases hrunning
    exact ⟨hstep.1, (hends.get?_eq hne hkept).trans hstep.2.1, hstep.2.2⟩
  induction hchain with
  | @single child hstep =>
      by_cases hkept : child ∈ cancelled
      · exact Or.inl hkept
      · exact Or.inr (.single (hstays hstep hkept))
  | @tail need child _ hstep ih =>
      by_cases hkept : child ∈ cancelled
      · exact Or.inl hkept
      · refine Or.inr ?_
        rcases ih with hneed | hchain
        · obtain ⟨hfailed, hbehind⟩ := (hends.mem_iff need).mp hneed
          exact absurd ((hends.mem_iff child).mpr ⟨hfailed, hbehind.tail hstep⟩) hkept
        · exact hchain.tail (hstays hstep hkept)

end EndsWith

/-! ## Some ends one after the other -/

/-- The states before and after some running instances came to their ends, with all that was cancelled
by that. The order of the ends plays no part. -/
structure EndTogether (graph : Graph) (before after : Progress)
    (ends : List (InstanceId × Outcome)) (cancelled : List InstanceId) : Prop where
  keys_eq : after.keys = before.keys
  nodup : cancelled.Nodup
  /-- What is cancelled lay behind one of the instances that did not succeed. -/
  mem_iff : ∀ child, child ∈ cancelled ↔
    ∃ ending ∈ ends, ending.2 ≠ .success ∧ graph.OnChainBehind before ending.1 child
  ended : ∀ ending ∈ ends, after.get? ending.1 = some (.ended ending.2)
  ended_cancelled : ∀ child ∈ cancelled, after.get? child = some (.ended .cancelled)
  get?_eq : ∀ child, child ∉ ends.map Prod.fst → child ∉ cancelled →
    after.get? child = before.get? child

namespace EndTogether

theorem nil (graph : Graph) (progress : Progress) : graph.EndTogether progress progress [] [] where
  keys_eq := rfl
  nodup := List.nodup_nil
  mem_iff := by simp
  ended := by simp
  ended_cancelled := by simp
  get?_eq _ _ _ := rfl

/-- One end more in front of some ends. -/
theorem cons {more : List InstanceId} (hfirst : graph.EndsWith before middle id outcome cancelled)
    (hkeys : middle.keys = before.keys) (hrunning : before.get? id = some .running)
    (hnew : id ∉ ends.map Prod.fst)
    (hrest : ∀ ending ∈ ends, before.get? ending.1 = some .running)
    (hends : graph.EndTogether middle after ends more) :
    graph.EndTogether before after ((id, outcome) :: ends) (cancelled ++ more) := by
  have hlater : ∀ child ∈ more, middle.get? child = some .pending := by
    intro child hchild
    obtain ⟨_, _, _, hchain⟩ := (hends.mem_iff child).mp hchild
    exact hchain.pending
  have hkept : ∀ child ∈ cancelled, after.get? child = middle.get? child := by
    intro child hchild
    apply hends.get?_eq
    · intro hmem
      obtain ⟨ending, hending, rfl⟩ := List.mem_map.mp hmem
      have hpending := ((hfirst.mem_iff ending.1).mp hchild).2.pending
      rw [hrest ending hending] at hpending
      cases hpending
    · intro hmem
      have hended := hfirst.ended_cancelled child hchild
      rw [hlater child hmem] at hended
      cases hended
  refine
    { keys_eq := hends.keys_eq.trans hkeys
      nodup := ?_
      mem_iff := ?_
      ended := ?_
      ended_cancelled := ?_
      get?_eq := ?_ }
  · refine List.nodup_append.mpr ⟨hfirst.nodup, hends.nodup, ?_⟩
    rintro child hchild _ hmem rfl
    exact (hfirst.of_pending (hlater child hmem)).2 hchild
  · intro child
    rw [List.mem_append, hfirst.mem_iff, hends.mem_iff]
    simp only [List.mem_cons, exists_eq_or_imp]
    constructor
    · rintro (hchild | ⟨ending, hending, hfailed, hchain⟩)
      · exact Or.inl hchild
      · exact Or.inr ⟨ending, hending, hfailed, hfirst.onChainBehind hchain⟩
    · rintro (hchild | ⟨ending, hending, hfailed, hchain⟩)
      · exact Or.inl hchild
      · rcases hfirst.mem_or_onChainBehind hrunning hchain with hcancelled | hchain
        · exact Or.inl ((hfirst.mem_iff child).mp hcancelled)
        · exact Or.inr ⟨ending, hending, hfailed, hchain⟩
  · intro ending hending
    rcases List.mem_cons.mp hending with rfl | hending
    · have hunharmed : id ∉ more := by
        intro hmem
        have hended := hfirst.ended
        rw [hlater id hmem] at hended
        cases hended
      rw [hends.get?_eq id hnew hunharmed]
      exact hfirst.ended
    · exact hends.ended ending hending
  · intro child hchild
    rcases List.mem_append.mp hchild with hchild | hchild
    · rw [hkept child hchild]
      exact hfirst.ended_cancelled child hchild
    · exact hends.ended_cancelled child hchild
  · intro child hnone hleft
    rw [List.map_cons, List.mem_cons, not_or] at hnone
    rw [List.mem_append, not_or] at hleft
    rw [hends.get?_eq child hnone.2 hleft.2, hfirst.get?_eq hnone.1 hleft.1]

/-- The description leaves nothing open, and does not tell the order of the ends. -/
theorem unique {ends' : List (InstanceId × Outcome)} {after' : Progress}
    {cancelled' : List InstanceId} (hends : graph.EndTogether before after ends cancelled)
    (hends' : graph.EndTogether before after' ends' cancelled') (hperm : ends.Perm ends') :
    after = after' ∧ cancelled.Perm cancelled' := by
  have hmem : ∀ child, child ∈ cancelled ↔ child ∈ cancelled' := by
    intro child
    rw [hends.mem_iff, hends'.mem_iff]
    simp only [hperm.mem_iff]
  refine ⟨?_, (List.perm_ext_iff_of_nodup hends.nodup hends'.nodup).mpr hmem⟩
  refine Table.ext_of_get? (hends.keys_eq.trans hends'.keys_eq.symm) ?_
  intro child
  by_cases hchild : child ∈ cancelled
  · rw [hends.ended_cancelled child hchild, hends'.ended_cancelled child ((hmem child).mp hchild)]
  · by_cases hended : child ∈ ends.map Prod.fst
    · obtain ⟨ending, hending, rfl⟩ := List.mem_map.mp hended
      rw [hends.ended ending hending, hends'.ended ending (hperm.mem_iff.mp hending)]
    · have hended' : child ∉ ends'.map Prod.fst := fun hmem' =>
        hended ((hperm.map Prod.fst).mem_iff.mpr hmem')
      rw [hends.get?_eq child hended hchild,
        hends'.get?_eq child hended' fun hmem' => hchild ((hmem child).mpr hmem')]

end EndTogether

theorem performAll_completions_cons (id : InstanceId) (outcome : Outcome)
    (rest : List (InstanceId × Outcome)) :
    performAll graph (completions ((id, outcome) :: rest)) = (do
      let cancelled ← graph.perform (.markComplete id outcome)
      return cancelled ++ (← performAll graph (completions rest))) := rfl

/-- Running instances can be ended one after the other, and this ends them together. -/
theorem run_completions (hgraph : graph.WellFormed) (hsound : graph.Sound before)
    (hdistinct : (ends.map Prod.fst).Nodup)
    (hrunning : ∀ ending ∈ ends, before.get? ending.1 = some .running) :
    ∃ cancelled after, (graph.performAll (completions ends)).run before = .ok cancelled after ∧
      graph.EndTogether before after ends cancelled := by
  induction ends generalizing before with
  | nil => exact ⟨[], before, rfl, .nil graph before⟩
  | cons ending rest ih =>
      obtain ⟨id, outcome⟩ := ending
      rw [List.map_cons, List.nodup_cons] at hdistinct
      have hfirst : before.get? id = some .running := hrunning (id, outcome) List.mem_cons_self
      have hrest : ∀ ending ∈ rest, before.get? ending.1 = some .running :=
        fun ending hending => hrunning ending (List.mem_cons_of_mem _ hending)
      have hid : id ∈ graph.ids := hsound.keys_eq ▸ Table.mem_keys_iff.mpr ⟨.running, hfirst⟩
      have hmark := graph.markComplete_ok hfirst rfl outcome
      have hends := endsWith_overtaken hgraph before hid outcome
      obtain ⟨hmoves, hnext⟩ := sound_complete hgraph.nodup_ids hsound hmark
      have hstill : ∀ ending ∈ rest, (cancelAll (before.insert id (.ended outcome))
          (graph.overtaken before id outcome)).get? ending.1 = some .running := by
        intro ending hending
        rw [hends.get?_eq]
        · exact hrest ending hending
        · intro heq
          exact hdistinct.1 (List.mem_map.mpr ⟨ending, hending, heq⟩)
        · intro hmem
          have hpending := ((hends.mem_iff ending.1).mp hmem).2.pending
          rw [hrest ending hending] at hpending
          cases hpending
      obtain ⟨more, after, hmore, htogether⟩ := ih hnext hdistinct.2 hstill
      refine ⟨_, after, ?_, htogether.cons hends hmoves.keys_eq hfirst hdistinct.1 hrest⟩
      simp only [performAll_completions_cons, EStateM.run_bind, run_perform hgraph.nodup_ids,
        Call.result, hmark, placed, hmore]
      rfl

/-- The states of a graph that was built, after any calls: when some of the instances that are running
then come to their ends, the order in which these are recorded is not to be seen in what comes of it.
Each end is recorded, the states are the same, and the same instances are cancelled, each once. -/
theorem completions_commute {jobs : List JobInstance}
    {needs : Option (Table String (List String))} (hbuild : build jobs needs = .ok graph)
    (calls : List Call) {reordered : List (InstanceId × Outcome)}
    (hdistinct : (ends.map Prod.fst).Nodup)
    (hrunning : ∀ ending ∈ ends, (graph.session calls).get? ending.1 = some .running)
    (hperm : ends.Perm reordered) :
    ∃ after cancelled cancelled',
      (graph.performAll (completions ends)).run (graph.session calls) = .ok cancelled after ∧
      (graph.performAll (completions reordered)).run (graph.session calls) =
        .ok cancelled' after ∧
      cancelled.Nodup ∧ cancelled.Perm cancelled' ∧
      graph.EndTogether (graph.session calls) after ends cancelled := by
  have hgraph := build_wellFormed hbuild
  have hsound := sound_session hgraph.nodup_ids calls
  obtain ⟨cancelled, after, hrun, hends⟩ := run_completions hgraph hsound hdistinct hrunning
  obtain ⟨cancelled', after', hrun', hends'⟩ := run_completions hgraph hsound
    ((hperm.map Prod.fst).nodup_iff.mp hdistinct)
    fun ending hending => hrunning ending (hperm.mem_iff.mpr hending)
  obtain ⟨rfl, hsame⟩ := hends.unique hends' hperm
  exact ⟨after, cancelled, cancelled', hrun, hrun', hends.nodup, hsame, hends⟩

/-- A build and a check, and a deployment that waits for both. -/
def mergingJobs : List JobInstance :=
  [needyJob "build" [], needyJob "check" [], needyJob "deploy" ["build", "check"]]

/-- The graph of these jobs. -/
def mergingGraph : Graph where
  nodes := [
    ⟨needyJob "build" [], []⟩,
    ⟨needyJob "check" [], []⟩,
    ⟨needyJob "deploy" ["build", "check"], [⟨"build", []⟩, ⟨"check", []⟩]⟩]

theorem build_mergingJobs : build mergingJobs = .ok mergingGraph := by
  cbv

/-- The build and the check are started. -/
def startBoth : List Call :=
  [.markDispatchable ⟨"build", []⟩, .markDispatchable ⟨"check", []⟩, .markRunning ⟨"build", []⟩,
    .markRunning ⟨"check", []⟩]

/-- Both fail, the build first. -/
def bothFail : List (InstanceId × Outcome) :=
  [(⟨"build", []⟩, .failure), (⟨"check", []⟩, .failure)]

/-- The deployment lies behind the build and behind the check, and is cancelled once in either order. -/
theorem completions_commute_merging :
    build mergingJobs = .ok mergingGraph ∧ (bothFail.map Prod.fst).Nodup ∧
      (∀ ending ∈ bothFail,
        (mergingGraph.session startBoth).get? ending.1 = some .running) ∧
      ∃ after cancelled cancelled',
        (mergingGraph.performAll (completions bothFail)).run (mergingGraph.session startBoth) =
          .ok cancelled after ∧
        (mergingGraph.performAll (completions bothFail.reverse)).run
          (mergingGraph.session startBoth) = .ok cancelled' after ∧
        cancelled.Nodup ∧ cancelled.Perm cancelled' ∧ ⟨"deploy", []⟩ ∈ cancelled := by
  have hnodup := (build_wellFormed build_mergingJobs).nodup_ids
  have hdistinct : (bothFail.map Prod.fst).Nodup := by decide
  have hrunning : ∀ ending ∈ bothFail,
      (mergingGraph.session startBoth).get? ending.1 = some .running := by
    decide +kernel
  obtain ⟨after, cancelled, cancelled', hrun, hrun', honce, hsame, hends⟩ :=
    completions_commute build_mergingJobs startBoth hdistinct hrunning
      (List.reverse_perm bothFail).symm
  refine ⟨build_mergingJobs, hdistinct, hrunning, after, cancelled, cancelled', hrun, hrun', honce,
    hsame, ?_⟩
  have hdeploy : mergingGraph.FallsBehind (mergingGraph.session startBoth) ⟨"build", []⟩
      ⟨"deploy", []⟩ := ⟨(mem_dependents_iff hnodup).mpr (by decide), by decide +kernel, by decide⟩
  exact (hends.mem_iff _).mpr
    ⟨(⟨"build", []⟩, .failure), List.mem_cons_self, by decide, .single hdeploy⟩

end CiPipeline.Graph
