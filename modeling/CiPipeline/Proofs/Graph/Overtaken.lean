import CiPipeline.Proofs.Graph.Session

/-!
Which instances are cancelled by the end of another one. Behind an instance that ended without success
run chains of dependents, each of them strict and still pending. Main statement: a call that ends an
instance cancels what lies on these chains, each instance once, and touches nothing else.
-/

namespace CiPipeline.Graph

variable {graph : Graph} {progress : Progress} {id child : InstanceId} {outcome : Outcome}

/-- An instance waits for another one, is strict and is still pending. -/
def FallsBehind (graph : Graph) (progress : Progress) (id child : InstanceId) : Prop :=
  child ∈ graph.dependents id ∧ progress.get? child = some .pending ∧ graph.isStrict child = true

/-- A chain of dependents leads from an instance to another one, and all behind the first of them are
strict and still pending. -/
def OnChainBehind (graph : Graph) (progress : Progress) : InstanceId → InstanceId → Prop :=
  Relation.TransGen (graph.FallsBehind progress)

namespace OnChainBehind

theorem pending (hchain : graph.OnChainBehind progress id child) :
    progress.get? child = some .pending := by
  obtain ⟨_, _, hlast⟩ := Relation.TransGen.tail'_iff.mp hchain
  exact hlast.2.1

theorem isStrict (hchain : graph.OnChainBehind progress id child) :
    graph.isStrict child = true := by
  obtain ⟨_, _, hlast⟩ := Relation.TransGen.tail'_iff.mp hchain
  exact hlast.2.2

theorem ne (hgraph : graph.WellFormed) (hchain : graph.OnChainBehind progress id child)
    (hid : id ∈ graph.ids) : child ≠ id := by
  rintro rfl
  obtain ⟨order, hperm, hbehind⟩ := hgraph.order
  apply hbehind.not_transGen child (hperm.mem_iff.mpr hid)
  apply Relation.TransGen.swap
  exact Relation.TransGen.mono
    (fun _ _ hstep => (mem_dependents_iff hgraph.nodup_ids).mp hstep.1) _ _ hchain

end OnChainBehind

/-- What is overtaken is found on the chains: as needs come before what needs them, going back from
one overtaken instance to the next ends at the one that ended. -/
theorem onChainBehind_of_mem_overtaken (hgraph : graph.WellFormed)
    (hchild : child ∈ graph.overtaken progress id outcome) :
    graph.OnChainBehind progress id child := by
  have hall : ∀ child ∈ graph.ids, child ∈ graph.overtaken progress id outcome →
      graph.OnChainBehind progress id child := by
    refine hgraph.induction ?_
    intro child _ hneeds hchild
    obtain ⟨_, _, hpending, hstrict, need, hneed, hfrom⟩ :=
      of_mem_overtaken hgraph.nodup_ids hchild
    have hstep : graph.FallsBehind progress need child :=
      ⟨(mem_dependents_iff hgraph.nodup_ids).mpr hneed, hpending, hstrict⟩
    rcases hfrom with rfl | hovertaken
    · exact .single hstep
    · exact .tail (hneeds need hneed hovertaken) hstep
  obtain ⟨_, _, _, _, need, hneed, _⟩ := of_mem_overtaken hgraph.nodup_ids hchild
  exact hall child (mem_ids_of_mem_dependencies hneed) hchild

/-- A strict instance that was pending behind an overtaken one, or behind the one that ended, is not
left pending, so it is overtaken too. -/
theorem mem_overtaken_of_fallsBehind (hgraph : graph.WellFormed) (hid : id ∈ graph.ids)
    (hfailed : outcome ≠ .success) {need : InstanceId} (hne : child ≠ id)
    (hneed : need = id ∨ need ∈ graph.overtaken progress id outcome)
    (hstep : graph.FallsBehind progress need child) :
    child ∈ graph.overtaken progress id outcome := by
  obtain ⟨hdependent, hpending, hstrict⟩ := hstep
  have hdep := (mem_dependents_iff hgraph.nodup_ids).mp hdependent
  have hleft := overtaken_closed hgraph.nodup_ids progress hid hfailed hneed hdep hstrict
  rw [get?_end, if_neg hne.symm] at hleft
  by_contra hnot
  rw [if_neg hnot] at hleft
  exact hleft hpending

theorem mem_overtaken_iff (hgraph : graph.WellFormed) (hid : id ∈ graph.ids)
    (hfailed : outcome ≠ .success) :
    child ∈ graph.overtaken progress id outcome ↔ graph.OnChainBehind progress id child := by
  constructor
  · exact onChainBehind_of_mem_overtaken hgraph
  · intro hchain
    induction hchain with
    | single hstep =>
        have hne := OnChainBehind.ne hgraph (.single hstep) hid
        exact mem_overtaken_of_fallsBehind hgraph hid hfailed hne (Or.inl rfl) hstep
    | tail hchain hstep ih =>
        have hne := OnChainBehind.ne hgraph (hchain.tail hstep) hid
        exact mem_overtaken_of_fallsBehind hgraph hid hfailed hne (Or.inr ih) hstep

/-- The states before and after an instance came to its end, with what was cancelled by it. -/
structure EndsWith (graph : Graph) (before after : Progress) (id : InstanceId) (outcome : Outcome)
    (cancelled : List InstanceId) : Prop where
  ended : after.get? id = some (.ended outcome)
  nodup : cancelled.Nodup
  /-- What is cancelled lies on the chains; behind a success there is nothing. -/
  mem_iff : ∀ child, child ∈ cancelled ↔
    outcome ≠ .success ∧ graph.OnChainBehind before id child
  /-- Besides the instance itself just these have another state than before. -/
  changed_iff : ∀ child, child ≠ id → (after.get? child ≠ before.get? child ↔ child ∈ cancelled)
  ended_cancelled : ∀ child ∈ cancelled, after.get? child = some (.ended .cancelled)

theorem endsWith_overtaken (hgraph : graph.WellFormed) (progress : Progress) (hid : id ∈ graph.ids)
    (outcome : Outcome) :
    graph.EndsWith progress
      (cancelAll (progress.insert id (.ended outcome)) (graph.overtaken progress id outcome)) id
      outcome (graph.overtaken progress id outcome) := by
  have hself : id ∉ graph.overtaken progress id outcome := fun hmem =>
    (of_mem_overtaken hgraph.nodup_ids hmem).2.1 rfl
  refine
    { ended := by rw [get?_end, if_neg hself, if_pos rfl]
      nodup := nodup_overtaken hgraph.nodup_ids outcome
      mem_iff := ?_
      changed_iff := ?_
      ended_cancelled := fun child hchild => by rw [get?_end, if_pos hchild] }
  · intro child
    constructor
    · intro hchild
      have hfailed := (of_mem_overtaken hgraph.nodup_ids hchild).1
      exact ⟨hfailed, (mem_overtaken_iff hgraph hid hfailed).mp hchild⟩
    · rintro ⟨hfailed, hchain⟩
      exact (mem_overtaken_iff hgraph hid hfailed).mpr hchain
  · intro child hne
    rw [get?_end]
    by_cases hchild : child ∈ graph.overtaken progress id outcome
    · rw [if_pos hchild, (of_mem_overtaken hgraph.nodup_ids hchild).2.2.1]
      simp [hchild]
    · rw [if_neg hchild, if_neg hne.symm]
      simp [hchild]

/-- Ending an instance of a graph that was built, after any calls: an instance that has ended already
leaves all states as they are. Otherwise it ends as is said, and what is cancelled with it is, each
once, whatever lies behind it on chains of dependents that are strict and still pending; there is no
such thing behind a success, and no other state changes. -/
theorem markComplete_cancels_chains {jobs : List JobInstance}
    {needs : Option (Table String (List String))} (hbuild : build jobs needs = .ok graph)
    (calls : List Call) {state : JobState} (hstate : (graph.session calls).get? id = some state)
    (outcome : Outcome) :
    ∃ cancelled after, (graph.perform (.markComplete id outcome)).run (graph.session calls) =
        .ok cancelled after ∧
      (state.isTerminal = true → cancelled = [] ∧ after = graph.session calls) ∧
      (state.isTerminal = false →
        graph.EndsWith (graph.session calls) after id outcome cancelled) := by
  have hgraph := build_wellFormed hbuild
  have hsound := sound_session hgraph.nodup_ids calls
  rw [run_perform hgraph.nodup_ids]
  cases hterminal : state.isTerminal with
  | true =>
      have hkept : graph.markComplete (graph.session calls) id outcome =
          .ok (graph.session calls, []) := by
        simp only [markComplete, hstate, hterminal, if_true]
      rw [Call.result, hkept]
      exact ⟨[], _, rfl, fun _ => ⟨rfl, rfl⟩, fun hopen => absurd hopen (by decide)⟩
  | false =>
      have hid : id ∈ graph.ids := hsound.keys_eq ▸ Table.mem_keys_iff.mpr ⟨state, hstate⟩
      rw [Call.result, markComplete_ok graph hstate hterminal]
      exact ⟨_, _, rfl, fun hended => absurd hended (by decide),
        fun _ => endsWith_overtaken hgraph _ hid outcome⟩

/-- A note on how a build ended, which does not ask for its success. -/
def noteJob : JobInstance where
  id := ⟨"note", []⟩
  template := {
    name := "note", steps := [], needs := ["build"], condition := some (.status .always) }
  steps := []
  env := .empty

/-- A build, a check of it, a deployment of what was built and checked, and the note. -/
def forkedJobs : List JobInstance :=
  [needyJob "build" [], needyJob "check" ["build"], needyJob "deploy" ["build", "check"], noteJob]

/-- The graph of these jobs. -/
def forkedGraph : Graph where
  nodes := [
    ⟨needyJob "build" [], []⟩,
    ⟨needyJob "check" ["build"], [⟨"build", []⟩]⟩,
    ⟨needyJob "deploy" ["build", "check"], [⟨"build", []⟩, ⟨"check", []⟩]⟩,
    ⟨noteJob, [⟨"build", []⟩]⟩]

theorem build_forkedJobs : build forkedJobs = .ok forkedGraph := by
  cbv

/-- The build fails. It takes the deployment with it, to which two chains lead, but not the note. -/
theorem markComplete_cancels_chains_forked :
    build forkedJobs = .ok forkedGraph ∧
      (forkedGraph.session []).get? ⟨"build", []⟩ = some .pending ∧
      ∃ cancelled after,
        (forkedGraph.perform (.markComplete ⟨"build", []⟩ .failure)).run (forkedGraph.session []) =
          .ok cancelled after ∧
        ⟨"deploy", []⟩ ∈ cancelled ∧ ⟨"note", []⟩ ∉ cancelled := by
  have hnodup := (build_wellFormed build_forkedJobs).nodup_ids
  have hstate : (forkedGraph.session []).get? ⟨"build", []⟩ = some .pending := by
    decide +kernel
  obtain ⟨cancelled, after, hrun, _, hends⟩ :=
    markComplete_cancels_chains build_forkedJobs [] hstate .failure
  have hmem := (hends rfl).mem_iff
  refine ⟨build_forkedJobs, hstate, cancelled, after, hrun, ?_, ?_⟩
  · have hcheck : forkedGraph.FallsBehind (forkedGraph.session []) ⟨"build", []⟩ ⟨"check", []⟩ :=
      ⟨(mem_dependents_iff hnodup).mpr (by decide), by decide +kernel, by decide⟩
    have hdeploy : forkedGraph.FallsBehind (forkedGraph.session []) ⟨"check", []⟩ ⟨"deploy", []⟩ :=
      ⟨(mem_dependents_iff hnodup).mpr (by decide), by decide +kernel, by decide⟩
    exact (hmem _).mpr ⟨by decide, .tail (.single hcheck) hdeploy⟩
  · intro hnote
    have hstrict : forkedGraph.isStrict ⟨"note", []⟩ = false := by
      decide
    rw [((hmem _).mp hnote).2.isStrict] at hstrict
    cases hstrict

end CiPipeline.Graph
