import CiPipeline.Proofs.Graph.WellFormed
import Mathlib.Data.List.Chain
import Mathlib.Data.List.Nodup
import Mathlib.Logic.Relation

/-!
Cycles among instances. The path of a search follows the needs and repeats nothing, so what lies
behind an instance that comes up again is a cycle; and where the search ends without one, the order
that it leaves shows that there is none. Main statement: building a graph fails exactly if instances
wait in a circle, with such a circle as the reason, and otherwise gives every instance just the
instances of the templates that it needs.
-/

namespace CiPipeline.Graph

/-- A path that ends where it began, passes nothing twice on its way and follows a relation. -/
structure IsCycle {α : Type} (follows : α → α → Prop) (cycle : List α) : Prop where
  two_le : 2 ≤ cycle.length
  closed : cycle.getLast? = cycle.head?
  nodup : cycle.dropLast.Nodup
  chain : cycle.IsChain follows

section Relations

variable {α : Type} {follows : α → α → Prop}

theorem IsCycle.exists_transGen {cycle : List α} (hcycle : IsCycle follows cycle) :
    ∃ a, Relation.TransGen follows a a := by
  obtain ⟨hlength, hclosed, _, hchain⟩ := hcycle
  match cycle, hlength, hclosed, hchain with
  | first :: second :: rest, _, hclosed, hchain =>
      rw [List.isChain_cons_cons] at hchain
      have hlast : (second :: rest).getLast (by simp) = first := by
        simpa [List.getLast?_eq_some_getLast] using hclosed
      have hback := List.relationReflTransGen_of_exists_isChain_cons rest hchain.2 hlast
      exact ⟨first, Relation.TransGen.head' hchain.1 hback⟩

end Relations

variable {needs : InstanceId → List InstanceId} {ids path : List InstanceId}

/-- Going round in a circle would lead from the first need on it back to that need. -/
theorem NeedsBehind.not_transGen {order : List InstanceId} (horder : NeedsBehind needs order) :
    ∀ id ∈ order, ¬ Relation.TransGen (fun a b => b ∈ needs a) id id := by
  refine horder.induction ?_
  intro id _ hneeds hcircle
  obtain ⟨need, hneed, hback⟩ := Relation.TransGen.head'_iff.mp hcircle
  exact hneeds need hneed (Relation.TransGen.tail' hback hneed)

/-! ## The cycle that a search reports -/

theorem closeCycle_isCycle {follows : InstanceId → InstanceId → Prop} {id : InstanceId}
    (hnodup : path.Nodup) (hchain : (path ++ [id]).IsChain follows) (hid : id ∈ path) :
    IsCycle follows (closeCycle path id) := by
  obtain ⟨before, after, rfl, hbefore⟩ := List.eq_append_cons_of_mem hid
  have hclose : closeCycle (before ++ id :: after) id = id :: after ++ [id] := by
    have hskip : ∀ other ∈ before, decide (other ≠ id) = true := by
      intro other hother
      have hne : other ≠ id := by
        rintro rfl
        exact hbefore hother
      simpa using hne
    rw [closeCycle, List.dropWhile_append_of_pos hskip]
    simp
  rw [hclose]
  refine
    { two_le := by simp
      closed := by rw [List.getLast?_concat]; rfl
      nodup := ?_
      chain := ?_ }
  · rw [List.dropLast_concat]
    exact hnodup.sublist (List.sublist_append_right before (id :: after))
  · refine hchain.suffix ⟨before, ?_⟩
    rw [List.append_assoc]

/-- From the end of a path that follows the needs any failure is a cycle. -/
def ReportsCycles (needs : InstanceId → List InstanceId) (path : List InstanceId)
    (next : List InstanceId → InstanceId → Search) : Prop :=
  ∀ done id cycle, id ∉ path → (path ++ [id]).IsChain (fun a b => b ∈ needs a) →
    next done id = .error cycle → IsCycle (fun a b => b ∈ needs a) cycle

theorem enter_error {next : List InstanceId → InstanceId → Search}
    (hnext : ReportsCycles needs path next) (hnodup : path.Nodup) {done cycle : List InstanceId}
    {id : InstanceId} (hchain : (path ++ [id]).IsChain fun a b => b ∈ needs a)
    (herror : enter next path done id = .error cycle) :
    IsCycle (fun a b => b ∈ needs a) cycle := by
  unfold enter at herror
  split at herror
  · next hpath =>
      cases herror
      exact closeCycle_isCycle hnodup hchain (by simpa using hpath)
  · next hpath =>
      split at herror
      · cases herror
      · exact hnext done id cycle (by simpa using hpath) hchain herror

theorem foldlM_enter_error {next : List InstanceId → InstanceId → Search}
    (hnext : ReportsCycles needs path next) (hnodup : path.Nodup)
    {list done cycle : List InstanceId}
    (hlist : ∀ id ∈ list, (path ++ [id]).IsChain fun a b => b ∈ needs a)
    (herror : list.foldlM (enter next path) done = .error cycle) :
    IsCycle (fun a b => b ∈ needs a) cycle := by
  induction list generalizing done with
  | nil => cases herror
  | cons id list ih =>
      rw [List.foldlM_cons] at herror
      cases hfirst : enter next path done id with
      | error reported =>
          rw [hfirst] at herror
          cases herror
          exact enter_error hnext hnodup (hlist id List.mem_cons_self) hfirst
      | ok middle =>
          rw [hfirst] at herror
          exact ih (fun x hx => hlist x (List.mem_cons_of_mem id hx)) herror

theorem visit_reportsCycles (fuel : Nat) (hnodup : path.Nodup) :
    ReportsCycles needs path (visit needs fuel path) := by
  induction fuel generalizing path with
  | zero =>
      intro done id cycle _ _ herror
      cases herror
  | succ fuel ih =>
      intro done id cycle hnot hchain herror
      have hlonger : (path ++ [id]).Nodup := by
        rw [← List.concat_eq_append]
        exact List.Nodup.concat hnot hnodup
      have hneeds : ∀ need ∈ needs id,
          (path ++ [id] ++ [need]).IsChain fun a b => b ∈ needs a := by
        intro need hneed
        refine List.isChain_append.mpr ⟨hchain, .singleton need, ?_⟩
        simpa using hneed
      simp only [visit] at herror
      cases hfold : (needs id).foldlM (enter (visit needs fuel (path ++ [id])) (path ++ [id]))
          done with
      | error reported =>
          rw [hfold] at herror
          cases herror
          exact foldlM_enter_error (ih hlonger) hlonger hneeds hfold
      | ok last =>
          rw [hfold] at herror
          cases herror

theorem findCycle_isCycle {cycle : List InstanceId} (hfound : findCycle ids needs = some cycle) :
    IsCycle (fun a b => b ∈ needs a) cycle := by
  unfold findCycle at hfound
  split at hfound
  · next reported herror =>
      cases hfound
      exact foldlM_enter_error (visit_reportsCycles ids.length List.nodup_nil) List.nodup_nil
        (fun id _ => .singleton id) herror
  · cases hfound

/-- The search finds a cycle exactly if there is one. -/
theorem exists_findCycle_eq_some_iff (hnodup : ids.Nodup)
    (hneeds : ∀ id, ∀ need ∈ needs id, id ∈ ids ∧ need ∈ ids) :
    (∃ cycle, findCycle ids needs = some cycle) ↔
      ∃ id, Relation.TransGen (fun a b => b ∈ needs a) id id := by
  constructor
  · rintro ⟨cycle, hfound⟩
    exact (findCycle_isCycle hfound).exists_transGen
  · rintro ⟨id, hcircle⟩
    cases hfound : findCycle ids needs with
    | some cycle => exact ⟨cycle, rfl⟩
    | none =>
        obtain ⟨order, hperm, horder⟩ := exists_order_of_findCycle_eq_none hnodup
          (fun id _ need hneed => (hneeds id need hneed).2) hfound
        obtain ⟨need, hneed, _⟩ := Relation.TransGen.head'_iff.mp hcircle
        exact absurd hcircle
          (horder.not_transGen id (hperm.mem_iff.mpr (hneeds id need hneed).1))

/-! ## Building a graph -/

section Build

variable {jobs : List JobInstance} {needsOf : JobInstance → List String}
  {needs : Option (Table String (List String))}

/-- Every need names the template of one of the jobs. -/
def NeedsKnown (jobs : List JobInstance) (needsOf : JobInstance → List String) : Prop :=
  ∀ job ∈ jobs, ∀ need ∈ needsOf job, ∃ peer ∈ jobs, peer.id.template = need

theorem mem_templateNames_iff {name : String} :
    name ∈ templateNames jobs ↔ ∃ peer ∈ jobs, peer.id.template = name := by
  simp [templateNames]

/-- The needs of a job are resolved up to the first one that is not known. -/
theorem resolveNeeds_cases (jobs : List JobInstance) (template : String) (names : List String) :
    ((∃ resolved, resolveNeeds jobs template names = .ok resolved) ∧
      ∀ need ∈ names, need ∈ templateNames jobs) ∨
    ∃ need ∈ names, need ∉ templateNames jobs ∧
      resolveNeeds jobs template names = .error (.unknownNeed template need (templateNames jobs)) := by
  induction names with
  | nil => exact Or.inl ⟨⟨[], rfl⟩, by simp⟩
  | cons need rest ih =>
      by_cases hneed : need ∈ templateNames jobs
      · rcases ih with ⟨⟨more, hmore⟩, hrest⟩ | ⟨other, hother, hunknown, herror⟩
        · refine Or.inl ⟨⟨instancesOf jobs need ++ more, ?_⟩, ?_⟩
          · simp [resolveNeeds, hneed, hmore]
          · exact List.forall_mem_cons.mpr ⟨hneed, hrest⟩
        · refine Or.inr ⟨other, List.mem_cons_of_mem need hother, hunknown, ?_⟩
          simp [resolveNeeds, hneed, herror, bind, Except.bind]
      · refine Or.inr ⟨need, List.mem_cons_self, hneed, ?_⟩
        simp [resolveNeeds, hneed, throw, throwThe, MonadExceptOf.throw, bind, Except.bind]

/-- The needs of some jobs are resolved up to the first job with one that is not known. -/
theorem resolveNodes_cases (jobs : List JobInstance) (needsOf : JobInstance → List String)
    (list : List JobInstance) :
    ((∃ nodes, resolveNodes jobs needsOf list = .ok nodes) ∧
      ∀ job ∈ list, ∀ need ∈ needsOf job, need ∈ templateNames jobs) ∨
    ∃ job ∈ list, ∃ need ∈ needsOf job, need ∉ templateNames jobs ∧
      resolveNodes jobs needsOf list =
        .error (.unknownNeed job.id.template need (templateNames jobs)) := by
  induction list with
  | nil => exact Or.inl ⟨⟨[], rfl⟩, by simp⟩
  | cons job rest ih =>
      rcases resolveNeeds_cases jobs job.id.template (needsOf job) with
        ⟨⟨resolved, hresolved⟩, hneeds⟩ | ⟨need, hneed, hunknown, herror⟩
      · rcases ih with ⟨⟨nodes, hnodes⟩, hrest⟩ | ⟨other, hother, need, hneed, hunknown, herror⟩
        · refine Or.inl ⟨⟨⟨job, InstanceId.sorted resolved.eraseDups⟩ :: nodes, ?_⟩, ?_⟩
          · simp only [resolveNodes, hresolved, hnodes, ok_bind]
            rfl
          · exact List.forall_mem_cons.mpr ⟨hneeds, hrest⟩
        · refine Or.inr ⟨other, List.mem_cons_of_mem job hother, need, hneed, hunknown, ?_⟩
          simp only [resolveNodes, hresolved, herror, ok_bind]
          rfl
      · refine Or.inr ⟨job, List.mem_cons_self, need, hneed, hunknown, ?_⟩
        simp only [resolveNodes, herror]
        rfl

theorem exists_resolveNodes_eq_ok {list : List JobInstance}
    (hknown : ∀ job ∈ list, ∀ need ∈ needsOf job, ∃ peer ∈ jobs, peer.id.template = need) :
    ∃ nodes, resolveNodes jobs needsOf list = .ok nodes := by
  rcases resolveNodes_cases jobs needsOf list with ⟨hok, _⟩ | ⟨job, hjob, need, hneed, hunknown, _⟩
  · exact hok
  · exact absurd (mem_templateNames_iff.mpr (hknown job hjob need hneed)) hunknown

/-- Once all needs are resolved the search for a cycle decides. -/
theorem build_eq (hdistinct : (jobs.map JobInstance.id).Nodup) {nodes : List GraphNode}
    (hnodes : resolveNodes jobs (declaredNeeds needs) jobs = .ok nodes) :
    build jobs needs =
      match findCycle (jobs.map JobInstance.id) (dependencies ⟨nodes⟩) with
      | some cycle => .error (.cycle cycle)
      | none => .ok ⟨nodes⟩ := by
  simp only [build, hdistinct, decide_true, Bool.not_true, Bool.false_eq_true, if_false, hnodes,
    ok_bind]
  rfl

theorem build_eq_duplicateJobs (hrepeated : ¬ (jobs.map JobInstance.id).Nodup) :
    ∃ names, build jobs needs = .error (.duplicateJobs names) := by
  simp only [build, hrepeated, decide_false, Bool.not_false, if_true]
  exact ⟨_, rfl⟩

theorem build_eq_unknownNeed (hdistinct : (jobs.map JobInstance.id).Nodup)
    (hunknown : ¬ NeedsKnown jobs (declaredNeeds needs)) :
    ∃ job ∈ jobs, ∃ need ∈ declaredNeeds needs job, need ∉ templateNames jobs ∧
      build jobs needs = .error (.unknownNeed job.id.template need (templateNames jobs)) := by
  rcases resolveNodes_cases jobs (declaredNeeds needs) jobs with
    ⟨_, hknown⟩ | ⟨job, hjob, need, hneed, hnot, herror⟩
  · exact absurd (fun job hjob need hneed =>
      mem_templateNames_iff.mp (hknown job hjob need hneed)) hunknown
  · refine ⟨job, hjob, need, hneed, hnot, ?_⟩
    simp only [build, hdistinct, decide_true, Bool.not_true, Bool.false_eq_true, if_false, herror]
    rfl

/-- With distinct identities and known needs there is a graph, or a circle in which instances wait. -/
theorem build_ok_or_cycle (hdistinct : (jobs.map JobInstance.id).Nodup)
    (hknown : NeedsKnown jobs (declaredNeeds needs)) :
    ((∃ graph, build jobs needs = .ok graph) ∧
      ∀ id, ¬ Relation.TransGen (WaitsFor jobs (declaredNeeds needs)) id id) ∨
    ((∃ cycle, build jobs needs = .error (.cycle cycle)) ∧
      ∃ id, Relation.TransGen (WaitsFor jobs (declaredNeeds needs)) id id) := by
  obtain ⟨nodes, hnodes⟩ := exists_resolveNodes_eq_ok hknown
  have hwaits : (fun a b => b ∈ dependencies ⟨nodes⟩ a) = WaitsFor jobs (declaredNeeds needs) := by
    funext id other
    exact propext (mem_dependencies_iff hnodes hdistinct)
  rw [← hwaits, build_eq hdistinct hnodes]
  cases hfound : findCycle (jobs.map JobInstance.id) (dependencies ⟨nodes⟩) with
  | some cycle => exact Or.inr ⟨⟨cycle, rfl⟩, (findCycle_isCycle hfound).exists_transGen⟩
  | none =>
      have hbuild : build jobs needs = .ok ⟨nodes⟩ := by rw [build_eq hdistinct hnodes, hfound]
      have hgraph : (⟨nodes⟩ : Graph).WellFormed := build_wellFormed hbuild
      obtain ⟨order, hperm, hbehind⟩ := hgraph.order
      refine Or.inl ⟨⟨_, rfl⟩, fun id hcircle => ?_⟩
      obtain ⟨need, hneed, _⟩ := Relation.TransGen.head'_iff.mp hcircle
      have hid : id ∈ order := hperm.mem_iff.mpr (mem_ids_of_mem_dependencies hneed)
      exact hbehind.not_transGen id hid hcircle

/-- With distinct identities and known needs a graph is built unless some instances wait in a circle.
Then the failure names such a circle; else every instance waits for all instances of the templates that
it needs, and for nothing else. -/
theorem build_detects_cycles (hdistinct : (jobs.map JobInstance.id).Nodup)
    (hknown : NeedsKnown jobs (declaredNeeds needs)) :
    ((∃ cycle, build jobs needs = .error (.cycle cycle)) ↔
      ∃ id, Relation.TransGen (WaitsFor jobs (declaredNeeds needs)) id id) ∧
    (∀ error, build jobs needs = .error error →
      ∃ cycle, error = .cycle cycle ∧ IsCycle (WaitsFor jobs (declaredNeeds needs)) cycle) ∧
    ∀ graph, build jobs needs = .ok graph → graph.ids = jobs.map JobInstance.id ∧
      ∀ id other,
        (other ∈ graph.dependencies id ↔ WaitsFor jobs (declaredNeeds needs) id other) ∧
        (other ∈ graph.dependents id ↔ WaitsFor jobs (declaredNeeds needs) other id) := by
  obtain ⟨nodes, hnodes⟩ := exists_resolveNodes_eq_ok hknown
  have hbuild := build_eq hdistinct hnodes
  have hids := ids_of_resolveNodes hnodes
  have hwaits : (fun a b => b ∈ dependencies ⟨nodes⟩ a) = WaitsFor jobs (declaredNeeds needs) := by
    funext id other
    exact propext (mem_dependencies_iff hnodes hdistinct)
  have hneeds : ∀ id, ∀ need ∈ dependencies ⟨nodes⟩ id,
      id ∈ jobs.map JobInstance.id ∧ need ∈ jobs.map JobInstance.id := by
    intro id need hneed
    obtain ⟨job, hjob, rfl, peer, hpeer, rfl, _⟩ :=
      (mem_dependencies_iff hnodes hdistinct).mp hneed
    exact ⟨List.mem_map_of_mem hjob, List.mem_map_of_mem hpeer⟩
  have hsearch := exists_findCycle_eq_some_iff hdistinct hneeds
  rw [hwaits] at hsearch
  rw [hbuild]
  cases hfound : findCycle (jobs.map JobInstance.id) (dependencies ⟨nodes⟩) with
  | some cycle =>
      have hcycle := findCycle_isCycle hfound
      rw [hwaits] at hcycle
      refine ⟨⟨fun _ => hsearch.mp ⟨cycle, hfound⟩, fun _ => ⟨cycle, rfl⟩⟩, ?_, ?_⟩
      · rintro error ⟨⟩
        exact ⟨cycle, rfl, hcycle⟩
      · rintro graph ⟨⟩
  | none =>
      rw [hfound] at hsearch
      refine ⟨⟨?_, ?_⟩, ?_, ?_⟩
      · rintro ⟨cycle, ⟨⟩⟩
      · intro hcircle
        obtain ⟨cycle, ⟨⟩⟩ := hsearch.mpr hcircle
      · rintro error ⟨⟩
      · rintro graph ⟨⟩
        refine ⟨hids, fun id other => ⟨mem_dependencies_iff hnodes hdistinct, ?_⟩⟩
        have hnodup : (ids ⟨nodes⟩).Nodup := hids.symm ▸ hdistinct
        exact (mem_dependents_iff hnodup).trans (mem_dependencies_iff hnodes hdistinct)

/-- A job without steps that needs others. -/
def needyJob (name : String) (needs : List String) : JobInstance where
  id := ⟨name, []⟩
  template := { name := name, steps := [], needs := needs }
  steps := []
  env := .empty

/-- Three jobs, two of which need each other. -/
def entangledJobs : List JobInstance :=
  [needyJob "lint" [], needyJob "build" ["lint", "test"], needyJob "test" ["build"]]

theorem build_detects_cycles_entangled :
    (entangledJobs.map JobInstance.id).Nodup ∧ NeedsKnown entangledJobs (declaredNeeds none) ∧
      ∃ cycle, build entangledJobs = .error (.cycle cycle) ∧
        IsCycle (WaitsFor entangledJobs (declaredNeeds none)) cycle := by
  have hdistinct : (entangledJobs.map JobInstance.id).Nodup := by decide
  have hknown : NeedsKnown entangledJobs (declaredNeeds none) := by
    simp [NeedsKnown, entangledJobs, needyJob, declaredNeeds]
  have hforth : WaitsFor entangledJobs (declaredNeeds none) ⟨"build", []⟩ ⟨"test", []⟩ := by
    simp [WaitsFor, entangledJobs, needyJob, declaredNeeds]
  have hback : WaitsFor entangledJobs (declaredNeeds none) ⟨"test", []⟩ ⟨"build", []⟩ := by
    simp [WaitsFor, entangledJobs, needyJob, declaredNeeds]
  obtain ⟨hfails, htells, _⟩ := build_detects_cycles hdistinct hknown
  obtain ⟨cycle, hcycle⟩ := hfails.mpr ⟨⟨"build", []⟩, .tail (.single hforth) hback⟩
  obtain ⟨_, ⟨⟩, hcircle⟩ := htells _ hcycle
  exact ⟨hdistinct, hknown, cycle, hcycle, hcircle⟩

end Build
end CiPipeline.Graph
