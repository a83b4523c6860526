import CiPipeline.Graph.Build
import CiPipeline.Proofs.Graph.Order

/-!
A graph that was built is well formed: its identities are distinct, its needs are instances of the
graph, and they can be ordered. Everything later asks for a well-formed graph only.
-/

namespace CiPipeline.Graph

/-- What building a graph makes sure of. -/
structure WellFormed (graph : Graph) : Prop where
  nodup_ids : graph.ids.Nodup
  needs_mem : ∀ id ∈ graph.ids, ∀ need ∈ graph.dependencies id, need ∈ graph.ids
  nodup_needs : ∀ id, (graph.dependencies id).Nodup
  order : ∃ order, order.Perm graph.ids ∧ NeedsBehind graph.dependencies order

section Lookup

variable {graph : Graph} {id : InstanceId}

theorem length_ids (graph : Graph) : graph.ids.length = graph.nodes.length :=
  List.length_map _

theorem node?_eq_some {node : GraphNode} (hnode : graph.node? id = some node) :
    node ∈ graph.nodes ∧ node.id = id :=
  ⟨List.mem_of_find?_eq_some hnode, by simpa using List.find?_some hnode⟩

theorem node?_of_mem (hnodup : graph.ids.Nodup) {node : GraphNode} (hnode : node ∈ graph.nodes) :
    graph.node? node.id = some node := by
  obtain ⟨nodes⟩ := graph
  induction nodes with
  | nil => simp at hnode
  | cons first rest ih =>
      simp only [ids, List.map_cons, List.nodup_cons] at hnodup
      rcases List.mem_cons.mp hnode with rfl | hnode
      · simp [node?]
      · have hne : ¬ first.id = node.id := by
          intro heq
          exact hnodup.1 (heq ▸ List.mem_map_of_mem hnode)
        simp only [node?, List.find?_cons, beq_eq_false_iff_ne.mpr hne]
        exact ih hnodup.2 hnode

theorem mem_ids_iff : id ∈ graph.ids ↔ ∃ job, graph.job? id = some job := by
  constructor
  · intro hid
    obtain ⟨node, hnode, heq⟩ := List.mem_map.mp hid
    have hsome : (graph.node? id).isSome := by
      rw [node?, List.find?_isSome]
      exact ⟨node, hnode, by simpa using heq⟩
    obtain ⟨found, hfound⟩ := Option.isSome_iff_exists.mp hsome
    exact ⟨found.job, by simp [job?, hfound]⟩
  · rintro ⟨job, hjob⟩
    obtain ⟨node, hnode, _⟩ := Option.map_eq_some_iff.mp hjob
    obtain ⟨hmem, heq⟩ := node?_eq_some hnode
    exact heq ▸ List.mem_map_of_mem hmem

theorem mem_jobs_of_job? {job : JobInstance} (hjob : graph.job? id = some job) :
    job ∈ graph.nodes.map GraphNode.job := by
  obtain ⟨node, hnode, rfl⟩ := Option.map_eq_some_iff.mp hjob
  exact List.mem_map_of_mem (node?_eq_some hnode).1

theorem id_of_job? {job : JobInstance} (hjob : graph.job? id = some job) : job.id = id := by
  obtain ⟨node, hnode, rfl⟩ := Option.map_eq_some_iff.mp hjob
  exact (node?_eq_some hnode).2

/-- An instance is among those that wait for another exactly if it waits for it. -/
theorem mem_dependents_iff (hnodup : graph.ids.Nodup) {child : InstanceId} :
    child ∈ graph.dependents id ↔ id ∈ graph.dependencies child := by
  simp only [dependents, InstanceId.sorted, List.mem_mergeSort, List.mem_map, List.mem_filter,
    List.contains_iff_mem]
  constructor
  · rintro ⟨node, ⟨hnode, hneeds⟩, rfl⟩
    simpa [dependencies, node?_of_mem hnodup hnode] using hneeds
  · intro hid
    unfold dependencies at hid
    cases hnode : graph.node? child with
    | none => simp [hnode] at hid
    | some node =>
        obtain ⟨hmem, heq⟩ := node?_eq_some hnode
        exact ⟨node, ⟨hmem, by simpa [hnode] using hid⟩, heq⟩

theorem nodup_dependents (hnodup : graph.ids.Nodup) : (graph.dependents id).Nodup := by
  unfold dependents InstanceId.sorted
  rw [(List.mergeSort_perm _ _).nodup_iff]
  exact hnodup.sublist (List.filter_sublist.map GraphNode.id)

theorem mem_ids_of_mem_dependencies {need : InstanceId} (hneed : need ∈ graph.dependencies id) :
    id ∈ graph.ids := by
  unfold dependencies at hneed
  cases hnode : graph.node? id with
  | none => simp [hnode] at hneed
  | some node =>
      obtain ⟨hmem, heq⟩ := node?_eq_some hnode
      exact heq ▸ List.mem_map_of_mem hmem

end Lookup

/-- What passes from the needs of an instance to the instance holds of every instance. -/
theorem WellFormed.induction {graph : Graph} (hgraph : graph.WellFormed)
    {motive : InstanceId → Prop}
    (step : ∀ id ∈ graph.ids, (∀ need ∈ graph.dependencies id, motive need) → motive id) :
    ∀ id ∈ graph.ids, motive id := by
  obtain ⟨order, hperm, hbehind⟩ := hgraph.order
  intro id hid
  refine hbehind.induction ?_ id (hperm.mem_iff.mpr hid)
  intro x hx
  exact step x (hperm.mem_iff.mp hx)

section Build

theorem nodup_eraseDups {α : Type} [BEq α] [LawfulBEq α] : ∀ list : List α, list.eraseDups.Nodup
  | [] => by simp
  | a :: rest => by
      rw [List.eraseDups_cons, List.nodup_cons]
      refine ⟨?_, nodup_eraseDups _⟩
      rw [List.mem_eraseDups]
      simp
termination_by list => list.length
decreasing_by
  exact Nat.lt_succ_of_le (List.length_filter_le _ _)

variable {jobs : List JobInstance}

/-- Needs are resolved to the instances of the templates that they name. -/
theorem mem_resolveNeeds_iff {template : String} {names : List String} {resolved : List InstanceId}
    (hok : resolveNeeds jobs template names = .ok resolved) (id : InstanceId) :
    id ∈ resolved ↔ id ∈ jobs.map JobInstance.id ∧ id.template ∈ names := by
  induction names generalizing resolved with
  | nil =>
      cases hok
      simp
  | cons need rest ih =>
      simp only [resolveNeeds] at hok
      split at hok
      · cases hok
      · obtain ⟨more, hmore, hreturn⟩ := bind_eq_ok_iff.mp hok
        cases hreturn
        rw [List.mem_append, ih hmore, instancesOf, List.mem_filter, beq_iff_eq, List.mem_cons]
        exact and_or_left.symm

/-- Every job gets one node, whose needs are what the job's needs are resolved to, listed once. -/
theorem resolveNodes_ok {needsOf : JobInstance → List String} {list : List JobInstance}
    {nodes : List GraphNode} (hok : resolveNodes jobs needsOf list = .ok nodes) :
    nodes.map GraphNode.job = list ∧ ∀ node ∈ nodes, node.needs.Nodup ∧
      ∀ need, need ∈ node.needs ↔
        need ∈ jobs.map JobInstance.id ∧ need.template ∈ needsOf node.job := by
  induction list generalizing nodes with
  | nil =>
      cases hok
      simp
  | cons job rest ih =>
      simp only [resolveNodes] at hok
      obtain ⟨needs, hneeds, hok⟩ := bind_eq_ok_iff.mp hok
      obtain ⟨more, hmore, hreturn⟩ := bind_eq_ok_iff.mp hok
      cases hreturn
      obtain ⟨hjobs, hall⟩ := ih hmore
      refine ⟨by simp [hjobs], ?_⟩
      intro node hnode
      rcases List.mem_cons.mp hnode with rfl | hnode
      · refine ⟨?_, ?_⟩
        · exact (List.mergeSort_perm _ _).nodup_iff.mpr (nodup_eraseDups needs)
        · intro need
          simp only [InstanceId.sorted, List.mem_mergeSort, List.mem_eraseDups]
          exact mem_resolveNeeds_iff hneeds need
      · exact hall node hnode

/-- An instance waits for another one if it needs the template of that one. -/
def WaitsFor (jobs : List JobInstance) (needsOf : JobInstance → List String)
    (id other : InstanceId) : Prop :=
  ∃ job ∈ jobs, job.id = id ∧ ∃ peer ∈ jobs, peer.id = other ∧ other.template ∈ needsOf job

section Nodes

variable {needsOf : JobInstance → List String} {nodes : List GraphNode}
  (hnodes : resolveNodes jobs needsOf jobs = .ok nodes)

include hnodes

theorem ids_of_resolveNodes : ids ⟨nodes⟩ = jobs.map JobInstance.id := by
  rw [← (resolveNodes_ok hnodes).1, List.map_map]
  rfl

theorem nodup_dependencies (id : InstanceId) : (dependencies ⟨nodes⟩ id).Nodup := by
  unfold dependencies
  cases hnode : node? ⟨nodes⟩ id with
  | none => simp
  | some node => exact ((resolveNodes_ok hnodes).2 node (node?_eq_some hnode).1).1

theorem mem_dependencies_iff (hdistinct : (jobs.map JobInstance.id).Nodup)
    {id other : InstanceId} :
    other ∈ dependencies ⟨nodes⟩ id ↔ WaitsFor jobs needsOf id other := by
  obtain ⟨hjobs, hall⟩ := resolveNodes_ok hnodes
  constructor
  · intro hother
    unfold dependencies at hother
    cases hnode : node? ⟨nodes⟩ id with
    | none => simp [hnode] at hother
    | some node =>
        obtain ⟨hmem, hid⟩ := node?_eq_some hnode
        obtain ⟨hpeer, hneeded⟩ := ((hall node hmem).2 other).mp (by simpa [hnode] using hother)
        obtain ⟨peer, hpeer, heq⟩ := List.mem_map.mp hpeer
        exact ⟨node.job, hjobs ▸ List.mem_map_of_mem hmem, hid, peer, hpeer, heq, hneeded⟩
  · rintro ⟨job, hjob, rfl, peer, hpeer, rfl, hneeded⟩
    rw [← hjobs] at hjob
    obtain ⟨node, hmem, rfl⟩ := List.mem_map.mp hjob
    have hnodup : (ids ⟨nodes⟩).Nodup := (ids_of_resolveNodes hnodes).symm ▸ hdistinct
    have hnode : node? ⟨nodes⟩ node.job.id = some node := node?_of_mem hnodup hmem
    have hresolved := ((hall node hmem).2 peer.id).mpr ⟨List.mem_map_of_mem hpeer, hneeded⟩
    simpa [dependencies, hnode] using hresolved

end Nodes

theorem build_wellFormed {needs : Option (Table String (List String))} {graph : Graph}
    (hbuild : build jobs needs = .ok graph) : graph.WellFormed := by
  simp only [build] at hbuild
  split at hbuild
  · cases hbuild
  · next hdistinct =>
      obtain ⟨nodes, hnodes, hbuild⟩ := bind_eq_ok_iff.mp hbuild
      have hdistinct : (jobs.map JobInstance.id).Nodup := by simpa using hdistinct
      have hids := ids_of_resolveNodes hnodes
      have hneeds : ∀ id need, need ∈ dependencies ⟨nodes⟩ id → need ∈ ids ⟨nodes⟩ := by
        intro id need hneed
        obtain ⟨_, _, _, peer, hpeer, rfl, _⟩ := (mem_dependencies_iff hnodes hdistinct).mp hneed
        rw [hids]
        exact List.mem_map_of_mem hpeer
      split at hbuild
      · cases hbuild
      · next hcycle =>
          cases hbuild
          have hnodup : (ids ⟨nodes⟩).Nodup := hids ▸ hdistinct
          refine ⟨hnodup, fun id _ => hneeds id, nodup_dependencies hnodes, ?_⟩
          apply exists_order_of_findCycle_eq_none hnodup fun id _ => hneeds id
          rw [hids]
          exact hcycle

/-- A graph has one node for each instance, in the order of the instances. -/
theorem jobs_of_build {needs : Option (Table String (List String))} {graph : Graph}
    (hbuild : build jobs needs = .ok graph) : graph.nodes.map GraphNode.job = jobs := by
  simp only [build] at hbuild
  split at hbuild
  · cases hbuild
  · obtain ⟨nodes, hnodes, hbuild⟩ := bind_eq_ok_iff.mp hbuild
    split at hbuild
    · cases hbuild
    · cases hbuild
      exact (resolveNodes_ok hnodes).1

end Build
end CiPipeline.Graph
