import CiPipeline.Graph.Countdown
import CiPipeline.Proofs.Graph.Level
import CiPipeline.Proofs.Table

/-!
Counting finds the stages. The count of an instance is always how much of what it waits for has not
been passed, so it reaches zero just when the last of that is passed, and the queue grows by just what
is opened then.
-/

namespace CiPipeline.Graph

variable {graph : Graph} {passed front : List InstanceId} {id : InstanceId} {counts : Countdown}

namespace Countdown

/-! ## Counting off -/

theorem get?_release (counts : Countdown) (id other : InstanceId) :
    (counts.release id).left.get? other =
      if id = other then some ((counts.left.get? id).getD 0 - 1) else counts.left.get? other :=
  Table.get?_insert counts.left id other _

/-- Counting off for different instances: each count goes down by one, and those that come to zero
join the queue in their order. -/
theorem foldl_release {children : List InstanceId} (hnodup : children.Nodup)
    (counts : Countdown) :
    (∀ id, (children.foldl release counts).left.get? id =
      if id ∈ children then some ((counts.left.get? id).getD 0 - 1) else counts.left.get? id) ∧
    (children.foldl release counts).queue =
      counts.queue ++ children.filter fun child => (counts.left.get? child).getD 0 - 1 = 0 := by
  induction children generalizing counts with
  | nil => simp
  | cons child rest ih =>
      rw [List.nodup_cons] at hnodup
      obtain ⟨hleft, hqueue⟩ := ih hnodup.2 (counts.release child)
      rw [List.foldl_cons]
      constructor
      · intro id
        rw [hleft id, get?_release]
        by_cases hid : child = id
        · subst hid
          simp [hnodup.1]
        · simp [hid, Ne.symm hid]
      · have hothers : ∀ other ∈ rest,
            (counts.release child).left.get? other = counts.left.get? other := by
          intro other hother
          have hne : ¬ child = other := by
            rintro rfl
            exact hnodup.1 hother
          rw [get?_release, if_neg hne]
        have hfilter : (rest.filter fun other =>
            ((counts.release child).left.get? other).getD 0 - 1 = 0) =
            rest.filter fun other => (counts.left.get? other).getD 0 - 1 = 0 := by
          apply List.filter_congr
          intro other hother
          rw [hothers other hother]
        rw [hqueue, hfilter, List.filter_cons]
        by_cases hlast : (counts.left.get? child).getD 0 - 1 = 0
        · simp [release, hlast]
        · simp [release, hlast]

end Countdown

/-- How much of what an instance waits for has not been passed. -/
def leftOf (graph : Graph) (passed : List InstanceId) (id : InstanceId) : Nat :=
  (graph.dependencies id).countP fun need => !passed.contains need

theorem leftOf_eq_zero_iff :
    graph.leftOf passed id = 0 ↔ ∀ need ∈ graph.dependencies id, need ∈ passed := by
  simp [leftOf, List.countP_eq_zero]

/-- Passing an instance takes it from what is left for those that wait for it. -/
theorem leftOf_pass (hgraph : graph.WellFormed) (hnew : id ∉ passed) (child : InstanceId) :
    graph.leftOf passed child =
      graph.leftOf (id :: passed) child + if id ∈ graph.dependencies child then 1 else 0 := by
  have hcount : ∀ needs : List InstanceId,
      (needs.countP fun need => !passed.contains need) =
        (needs.countP fun need => !(id :: passed).contains need) + needs.count id := by
    intro needs
    induction needs with
    | nil => rfl
    | cons need rest ih =>
        rw [List.countP_cons, List.countP_cons, List.count_cons, ih]
        by_cases hneed : need = id
        · subst hneed
          simp [hnew]
          omega
        · simp [hneed]
          omega
  rw [leftOf, leftOf, hcount, (hgraph.nodup_needs child).count]

/-- The counts tell how much is left for each instance. -/
def Countdown.Tells (graph : Graph) (passed : List InstanceId) (counts : Countdown) : Prop :=
  ∀ id ∈ graph.ids, counts.left.get? id = some (graph.leftOf passed id : Int)

namespace Countdown

/-- Passing one instance keeps the counts right and puts what it opens into the queue. -/
theorem Tells.pass (hgraph : graph.WellFormed) (hnew : id ∉ passed)
    (htells : Tells graph passed counts) :
    Tells graph (id :: passed) ((graph.dependents id).foldl release counts) ∧
      ((graph.dependents id).foldl release counts).queue =
        counts.queue ++ graph.opened (id :: passed) id := by
  obtain ⟨hleft, hqueue⟩ := foldl_release (nodup_dependents hgraph.nodup_ids) counts
  have hpass := leftOf_pass hgraph hnew
  constructor
  · intro child hchild
    have hmem : child ∈ graph.dependents id ↔ id ∈ graph.dependencies child :=
      mem_dependents_iff hgraph.nodup_ids
    rw [hleft, htells child hchild, hpass child]
    by_cases hwaits : child ∈ graph.dependents id
    · rw [if_pos hwaits, if_pos (hmem.mp hwaits)]
      simp
    · rw [if_neg hwaits, if_neg (mt hmem.mpr hwaits), Nat.add_zero]
  · rw [hqueue, opened]
    congr 1
    apply List.filter_congr
    intro child hchild
    have hwaits := (mem_dependents_iff hgraph.nodup_ids).mp hchild
    have hzero : graph.leftOf (id :: passed) child = 0 ↔
        ∀ need ∈ graph.dependencies child, need ∈ id :: passed := leftOf_eq_zero_iff
    rw [htells child (mem_ids_of_mem_dependencies hwaits), hpass child, if_pos hwaits]
    rw [Bool.eq_iff_iff, decide_eq_true_iff, List.all_eq_true]
    simp only [List.contains_iff_mem, ← hzero, Option.getD_some]
    omega

/-- Passing the instances of a stage one by one leads to the next stage. -/
theorem Tells.pass_level (hgraph : graph.WellFormed) {level found : List InstanceId}
    (hfrontier : graph.Frontier passed (level ++ found)) (htells : Tells graph passed counts)
    (hqueue : counts.queue = level ++ found) :
    ∃ next, Countdown.pass graph level.length counts = (level, next) ∧
      Tells graph (graph.nextLevel passed level).1 next ∧
      next.queue = found ++ (graph.nextLevel passed level).2 := by
  induction level generalizing passed found counts with
  | nil => exact ⟨counts, rfl, htells, by simpa [nextLevel] using hqueue⟩
  | cons id rest ih =>
      rw [List.cons_append] at hfrontier hqueue
      have hnew : id ∉ passed := fun hmem =>
        (List.nodup_append.mp hfrontier.nodup).2.2 id hmem id List.mem_cons_self rfl
      have hpopped : Tells graph passed { counts with queue := rest ++ found } := htells
      obtain ⟨hcounted, hgrown⟩ := hpopped.pass hgraph hnew
      have hfront := hfrontier.pass hgraph.nodup_ids
      rw [List.append_assoc] at hfront hgrown
      obtain ⟨next, hpass, hnext, hlast⟩ := ih hfront hcounted hgrown
      refine ⟨next, ?_, hnext, ?_⟩
      · simp only [List.length_cons, Countdown.pass, hqueue, hpass]
      · rw [List.append_assoc] at hlast
        exact hlast

/-- Stage after stage the queue holds what stands in front of the frontier. -/
theorem Tells.stages_eq (hgraph : graph.WellFormed) (rounds : Nat)
    (hfrontier : graph.Frontier passed front) (htells : Tells graph passed counts)
    (hqueue : counts.queue = front) :
    counts.stages graph rounds = graph.levelsFrom rounds passed front := by
  induction rounds generalizing passed front counts with
  | zero => rfl
  | succ rounds ih =>
      cases front with
      | nil => simp [stages, levelsFrom, hqueue]
      | cons id rest =>
          have hfront := hfrontier
          rw [← List.append_nil (id :: rest)] at hfront
          obtain ⟨next, hpass, hnext, hlast⟩ :=
            htells.pass_level hgraph hfront (by rw [hqueue, List.append_nil])
          have hmore := ih (hfrontier.nextLevel_front hgraph.nodup_ids).2 hnext hlast
          simp only [stages, levelsFrom, hqueue, List.isEmpty_cons, Bool.false_eq_true, if_false,
            hpass, hmore]

end Countdown

theorem countdown_tells (hnodup : graph.ids.Nodup) :
    Countdown.Tells graph [] graph.countdown := by
  intro id hid
  have hkeys : ((graph.ids.map fun id =>
      (id, ((graph.dependencies id).length : Int))).map Prod.fst).Nodup := by
    rw [List.map_map]
    simpa [Function.comp_def] using hnodup
  have hall : graph.leftOf [] id = (graph.dependencies id).length := by
    simp [leftOf]
  rw [hall, countdown, Table.get?_eq_some_iff, Table.entries_ofList_of_nodup hkeys]
  exact List.mem_map_of_mem hid

theorem queue_countdown (hnodup : graph.ids.Nodup) : graph.countdown.queue = graph.roots := by
  have hqueue : graph.countdown.queue =
      graph.ids.filter fun id => graph.countdown.left.get? id == some 0 := rfl
  rw [hqueue, ids, List.filter_map, roots]
  congr 1
  apply List.filter_congr
  intro node hnode
  have hid : node.id ∈ graph.ids := List.mem_map_of_mem hnode
  rw [Function.comp_apply, countdown_tells hnodup _ hid, Bool.eq_iff_iff]
  simp [leftOf, dependencies, node?_of_mem hnodup hnode]

/-- Counting finds the stages, however many rounds it is given. -/
theorem stages_countdown (hgraph : graph.WellFormed) (rounds : Nat) :
    graph.countdown.stages graph rounds = graph.levelsFrom rounds [] graph.roots :=
  (countdown_tells hgraph.nodup_ids).stages_eq hgraph rounds (frontier_roots hgraph.nodup_ids)
    (queue_countdown hgraph.nodup_ids)

end CiPipeline.Graph
