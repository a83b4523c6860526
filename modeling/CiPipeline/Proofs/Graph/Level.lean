import CiPipeline.Graph.Level
import CiPipeline.Proofs.Graph.WellFormed
import Mathlib.Data.List.Perm.Subperm

/-!
The stages of a graph hold every instance, each once. Between two stages stands a frontier: what has
been passed, and in front of it whatever waits for nothing but that. Passing one instance of the front
moves the frontier, and it cannot come to rest before everything has been passed.
-/

namespace CiPipeline.Graph

variable {graph : Graph} {passed front : List InstanceId} {id : InstanceId}

/-- Some instances have been passed, and in front of them are those that wait for nothing else. -/
structure Frontier (graph : Graph) (passed front : List InstanceId) : Prop where
  nodup : (passed ++ front).Nodup
  mem_iff : ∀ id, id ∈ passed ++ front ↔
    id ∈ graph.ids ∧ ∀ need ∈ graph.dependencies id, need ∈ passed

theorem mem_roots_iff (hnodup : graph.ids.Nodup) :
    id ∈ graph.roots ↔ id ∈ graph.ids ∧ graph.dependencies id = [] := by
  simp only [roots, List.mem_map, List.mem_filter, List.isEmpty_iff]
  constructor
  · rintro ⟨node, ⟨hnode, hneeds⟩, rfl⟩
    refine ⟨List.mem_map_of_mem hnode, ?_⟩
    rw [dependencies, node?_of_mem hnodup hnode]
    exact hneeds
  · rintro ⟨hid, hneeds⟩
    obtain ⟨node, hnode, rfl⟩ := List.mem_map.mp hid
    rw [dependencies, node?_of_mem hnodup hnode] at hneeds
    exact ⟨node, ⟨hnode, hneeds⟩, rfl⟩

theorem frontier_roots (hnodup : graph.ids.Nodup) : graph.Frontier [] graph.roots where
  nodup := hnodup.sublist (List.filter_sublist.map GraphNode.id)
  mem_iff id := by
    rw [List.nil_append, mem_roots_iff hnodup, List.eq_nil_iff_forall_not_mem]
    simp

/-- The instances that come in front of the frontier when an instance is passed. -/
def opened (graph : Graph) (passed : List InstanceId) (id : InstanceId) : List InstanceId :=
  (graph.dependents id).filter fun child => (graph.dependencies child).all passed.contains

theorem mem_opened_iff (hnodup : graph.ids.Nodup) {child : InstanceId} :
    child ∈ graph.opened passed id ↔
      id ∈ graph.dependencies child ∧ ∀ need ∈ graph.dependencies child, need ∈ passed := by
  simp [opened, mem_dependents_iff hnodup]

/-- Passing one instance moves the frontier. -/
theorem Frontier.pass (hnodup : graph.ids.Nodup)
    (hfrontier : graph.Frontier passed (id :: front)) :
    graph.Frontier (id :: passed) (front ++ graph.opened (id :: passed) id) := by
  have hperm : (passed ++ id :: front).Perm (id :: passed ++ front) := List.perm_middle
  have hold : (id :: passed ++ front).Nodup := hperm.nodup_iff.mp hfrontier.nodup
  have hfresh : id ∉ passed := fun hmem =>
    (List.nodup_cons.mp hold).1 (List.mem_append_left front hmem)
  have hmem : ∀ child, child ∈ id :: passed ++ front ↔
      child ∈ graph.ids ∧ ∀ need ∈ graph.dependencies child, need ∈ passed := by
    intro child
    rw [← hperm.mem_iff]
    exact hfrontier.mem_iff child
  constructor
  · rw [← List.append_assoc, List.nodup_append]
    refine ⟨hold, (nodup_dependents hnodup).sublist List.filter_sublist, ?_⟩
    rintro child hchild _ hopened rfl
    -- what was in front before waits for nothing that was not passed then
    have hneeds := ((hmem child).mp hchild).2
    exact hfresh (hneeds id ((mem_opened_iff hnodup).mp hopened).1)
  · intro child
    rw [← List.append_assoc, List.mem_append, hmem, mem_opened_iff hnodup]
    constructor
    · rintro (⟨hid, hneeds⟩ | ⟨hwaits, hneeds⟩)
      · exact ⟨hid, fun need hneed => List.mem_cons_of_mem id (hneeds need hneed)⟩
      · exact ⟨mem_ids_of_mem_dependencies hwaits, hneeds⟩
    · rintro ⟨hid, hneeds⟩
      by_cases hwaits : id ∈ graph.dependencies child
      · exact Or.inr ⟨hwaits, hneeds⟩
      · refine Or.inl ⟨hid, fun need hneed => ?_⟩
        refine (List.mem_cons.mp (hneeds need hneed)).resolve_left ?_
        rintro rfl
        exact hwaits hneed

/-- Passing a stage leaves the frontier behind it, with the next stage in front. -/
theorem Frontier.nextLevel (hnodup : graph.ids.Nodup) {level found : List InstanceId}
    (hfrontier : graph.Frontier passed (level ++ found)) :
    (graph.nextLevel passed level).1 = level.reverse ++ passed ∧
      graph.Frontier (graph.nextLevel passed level).1
        (found ++ (graph.nextLevel passed level).2) := by
  induction level generalizing passed found with
  | nil => exact ⟨rfl, by simpa [Graph.nextLevel] using hfrontier⟩
  | cons id rest ih =>
      rw [List.cons_append] at hfrontier
      have hpassed := hfrontier.pass hnodup
      rw [List.append_assoc] at hpassed
      obtain ⟨hlast, hnext⟩ := ih hpassed
      constructor
      · rw [List.reverse_cons, List.append_assoc]
        exact hlast
      · rw [List.append_assoc] at hnext
        exact hnext

/-- Passing all that is in front leaves the next stage in front. -/
theorem Frontier.nextLevel_front (hnodup : graph.ids.Nodup)
    (hfrontier : graph.Frontier passed front) :
    (graph.nextLevel passed front).1 = front.reverse ++ passed ∧
      graph.Frontier (graph.nextLevel passed front).1 (graph.nextLevel passed front).2 := by
  rw [← List.append_nil front] at hfrontier
  exact hfrontier.nextLevel hnodup

/-- When as many have been passed as there are, nothing is in front. -/
theorem Frontier.eq_nil_of_length_le (hfrontier : graph.Frontier passed front)
    (hlength : graph.ids.length ≤ passed.length) : front = [] := by
  have hsubperm : (passed ++ front).Subperm graph.ids :=
    List.subperm_of_subset hfrontier.nodup fun id hid => ((hfrontier.mem_iff id).mp hid).1
  have hboth := hsubperm.length_le
  rw [List.length_append] at hboth
  exact List.eq_nil_of_length_eq_zero (by omega)

/-- A frontier with nothing in front of it has been drawn behind everything. -/
theorem Frontier.perm_of_nil (hgraph : graph.WellFormed) (hfrontier : graph.Frontier passed []) :
    passed.Perm graph.ids := by
  have hmem := hfrontier.mem_iff
  have hnodup := hfrontier.nodup
  rw [List.append_nil] at hnodup
  simp only [List.append_nil] at hmem
  refine (List.perm_ext_iff_of_nodup hnodup hgraph.nodup_ids).mpr fun id => ?_
  refine ⟨fun hid => ((hmem id).mp hid).1, fun hid => ?_⟩
  refine hgraph.induction ?_ id hid
  intro id hid hneeds
  exact (hmem id).mpr ⟨hid, hneeds⟩

/-- The stages in front of a frontier hold all that has not been passed. Each of them takes a round,
and moves the frontier behind one instance at least. -/
theorem Frontier.levelsFrom_perm (hgraph : graph.WellFormed) {rounds : Nat}
    (hfrontier : graph.Frontier passed front)
    (hrounds : graph.ids.length ≤ passed.length + rounds) :
    (passed ++ (graph.levelsFrom rounds passed front).flatten).Perm graph.ids := by
  induction rounds generalizing passed front with
  | zero =>
      obtain rfl := hfrontier.eq_nil_of_length_le hrounds
      simpa [levelsFrom] using hfrontier.perm_of_nil hgraph
  | succ rounds ih =>
      cases front with
      | nil => simpa [levelsFrom] using hfrontier.perm_of_nil hgraph
      | cons id rest =>
          obtain ⟨hpassed, hnext⟩ := hfrontier.nextLevel_front hgraph.nodup_ids
          have hmore := ih hnext (by rw [hpassed]; simp; omega)
          rw [hpassed] at hmore
          refine List.Perm.trans ?_ hmore
          simp only [levelsFrom, List.flatten_cons, hpassed]
          rw [← List.append_assoc]
          refine List.Perm.append_right _ ?_
          exact List.perm_append_comm.trans ((List.reverse_perm _).symm.append_right passed)

/-- The stages hold every instance of the graph, each once. -/
theorem levels_flatten_perm (hgraph : graph.WellFormed) :
    graph.levels.flatten.Perm graph.ids := by
  have hrounds : graph.ids.length ≤ ([] : List InstanceId).length + graph.nodes.length := by
    simp [length_ids]
  exact (frontier_roots hgraph.nodup_ids).levelsFrom_perm hgraph hrounds

end CiPipeline.Graph
