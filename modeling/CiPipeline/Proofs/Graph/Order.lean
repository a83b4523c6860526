import CiPipeline.Graph.Cycle
import CiPipeline.Proofs.Except

/-!
What the search for a cycle leaves behind when it finds none: the instances it is done with, each
with all that it waits for further back. So a graph without a cycle has an order in which whatever
is true of an instance as soon as it is true of its needs is true of every instance.
-/

namespace CiPipeline.Graph

/-- Each instance of a list waits only for instances further back in it. -/
def NeedsBehind (needs : InstanceId → List InstanceId) : List InstanceId → Prop
  | [] => True
  | id :: rest => (∀ need ∈ needs id, need ∈ rest) ∧ NeedsBehind needs rest

/-- What is known of the finished instances while the search is on a path. -/
structure Searched (needs : InstanceId → List InstanceId) (ids path done : List InstanceId) :
    Prop where
  behind : NeedsBehind needs done
  nodup : done.Nodup
  subset : ∀ id ∈ done, id ∈ ids
  /-- What the path leads through is not finished. -/
  open_path : ∀ id ∈ path, id ∉ done

/-- Going on from an instance keeps what is known, and finishes the instance. -/
def Advances (needs : InstanceId → List InstanceId) (ids path : List InstanceId)
    (next : List InstanceId → InstanceId → Search) : Prop :=
  ∀ done id done', Searched needs ids path done → id ∈ ids → id ∉ path → id ∉ done →
    next done id = .ok done' →
    Searched needs ids path done' ∧ (∀ x ∈ done, x ∈ done') ∧ id ∈ done'

variable {needs : InstanceId → List InstanceId} {ids path : List InstanceId}

theorem enter_ok {next : List InstanceId → InstanceId → Search}
    (hnext : Advances needs ids path next) {done done' : List InstanceId} {id : InstanceId}
    (hdone : Searched needs ids path done) (hid : id ∈ ids)
    (hok : enter next path done id = .ok done') :
    Searched needs ids path done' ∧ (∀ x ∈ done, x ∈ done') ∧ id ∈ done' := by
  unfold enter at hok
  split at hok
  · cases hok
  · next hpath =>
      split at hok
      · next hmem =>
          cases hok
          exact ⟨hdone, fun x hx => hx, by simpa using hmem⟩
      · next hmem =>
          exact hnext done id done' hdone hid (by simpa using hpath) (by simpa using hmem) hok

theorem foldlM_enter_ok {next : List InstanceId → InstanceId → Search}
    (hnext : Advances needs ids path next) {list done done' : List InstanceId}
    (hlist : ∀ id ∈ list, id ∈ ids) (hdone : Searched needs ids path done)
    (hok : list.foldlM (enter next path) done = .ok done') :
    Searched needs ids path done' ∧ (∀ x ∈ done, x ∈ done') ∧ ∀ id ∈ list, id ∈ done' := by
  induction list generalizing done with
  | nil =>
      cases hok
      exact ⟨hdone, fun x hx => hx, by simp⟩
  | cons id list ih =>
      rw [List.foldlM_cons, bind_eq_ok_iff] at hok
      obtain ⟨middle, hfirst, hrest⟩ := hok
      obtain ⟨hmiddle, hkeep, hid⟩ := enter_ok hnext hdone (hlist id List.mem_cons_self) hfirst
      obtain ⟨hdone', hkeep', hall⟩ :=
        ih (fun x hx => hlist x (List.mem_cons_of_mem id hx)) hmiddle hrest
      refine ⟨hdone', fun x hx => hkeep' x (hkeep x hx), ?_⟩
      intro x hx
      rcases List.mem_cons.mp hx with rfl | hx
      · exact hkeep' x hid
      · exact hall x hx

/-- The fuel of a visit never runs out: a path cannot be longer than there are instances. -/
theorem visit_ok (hclosed : ∀ id ∈ ids, ∀ need ∈ needs id, need ∈ ids) (fuel : Nat)
    (hnodup : path.Nodup) (hpath : path ⊆ ids) (hfuel : ids.length ≤ fuel + path.length) :
    Advances needs ids path (visit needs fuel path) := by
  induction fuel generalizing path with
  | zero =>
      -- the path would hold every instance, and the one that is visited besides
      intro done id done' _ hid hnot _ _
      have hlength : (id :: path).length ≤ ids.length :=
        List.Nodup.length_le_of_subset (List.nodup_cons.mpr ⟨hnot, hnodup⟩)
          (List.cons_subset.mpr ⟨hid, hpath⟩)
      simp only [List.length_cons] at hlength
      omega
  | succ fuel ih =>
      intro done id done' hdone hid hnot hnew hok
      have hlonger : Advances needs ids (path ++ [id]) (visit needs fuel (path ++ [id])) := by
        apply ih
        · rw [List.nodup_append]
          refine ⟨hnodup, by simp, ?_⟩
          intro a ha b hb heq
          rw [List.mem_singleton] at hb
          exact hnot (hb ▸ heq ▸ ha)
        · exact List.append_subset.mpr ⟨hpath, by simpa using hid⟩
        · simp only [List.length_append, List.length_singleton]
          omega
      have hstart : Searched needs ids (path ++ [id]) done := by
        refine ⟨hdone.behind, hdone.nodup, hdone.subset, ?_⟩
        intro x hx
        rcases List.mem_append.mp hx with hx | hx
        · exact hdone.open_path x hx
        · rw [List.mem_singleton] at hx
          exact hx ▸ hnew
      simp only [visit] at hok
      rw [bind_eq_ok_iff] at hok
      obtain ⟨last, hfold, hreturn⟩ := hok
      cases hreturn
      obtain ⟨hlast, hkeep, hneeds⟩ := foldlM_enter_ok hlonger (hclosed id hid) hstart hfold
      have hid' : id ∉ last := hlast.open_path id (by simp)
      refine ⟨⟨⟨hneeds, hlast.behind⟩, List.nodup_cons.mpr ⟨hid', hlast.nodup⟩, ?_, ?_⟩,
        fun x hx => List.mem_cons_of_mem id (hkeep x hx), List.mem_cons_self⟩
      · intro x hx
        rcases List.mem_cons.mp hx with rfl | hx
        · exact hid
        · exact hlast.subset x hx
      · intro x hx hmem
        rcases List.mem_cons.mp hmem with rfl | hmem
        · exact hnot hx
        · exact hlast.open_path x (List.mem_append_left _ hx) hmem

/-- Without a cycle the instances can be ordered so that needs come after what needs them. -/
theorem exists_order_of_findCycle_eq_none (hnodup : ids.Nodup)
    (hclosed : ∀ id ∈ ids, ∀ need ∈ needs id, need ∈ ids)
    (hnone : findCycle ids needs = none) :
    ∃ order, order.Perm ids ∧ NeedsBehind needs order := by
  have hvisit : Advances needs ids [] (visit needs ids.length []) :=
    visit_ok hclosed ids.length List.nodup_nil (List.nil_subset ids) (Nat.le_add_right _ _)
  have hstart : Searched needs ids [] [] := ⟨trivial, List.nodup_nil, by simp, by simp⟩
  unfold findCycle at hnone
  split at hnone
  · cases hnone
  · next done hok =>
      have hsorted : ∀ id ∈ InstanceId.sorted ids, id ∈ ids := by
        intro id hid
        simpa [InstanceId.sorted] using hid
      obtain ⟨hdone, _, hall⟩ := foldlM_enter_ok hvisit hsorted hstart hok
      refine ⟨done, ?_, hdone.behind⟩
      rw [List.perm_ext_iff_of_nodup hdone.nodup hnodup]
      intro id
      constructor
      · exact hdone.subset id
      · intro hid
        exact hall id (by simpa [InstanceId.sorted] using hid)

/-- What passes from the needs of an instance to the instance holds along such an order. -/
theorem NeedsBehind.induction {order : List InstanceId} (horder : NeedsBehind needs order)
    {motive : InstanceId → Prop}
    (step : ∀ id ∈ order, (∀ need ∈ needs id, motive need) → motive id) :
    ∀ id ∈ order, motive id := by
  induction order with
  | nil => simp
  | cons first rest ih =>
      have hrest : ∀ id ∈ rest, motive id :=
        ih horder.2 fun id hid => step id (List.mem_cons_of_mem first hid)
      intro id hid
      rcases List.mem_cons.mp hid with rfl | hid
      · exact step id List.mem_cons_self fun need hneed => hrest need (horder.1 need hneed)
      · exact hrest id hid

end CiPipeline.Graph
