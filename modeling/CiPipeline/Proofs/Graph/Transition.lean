import CiPipeline.Graph.Progress
import CiPipeline.Proofs.Graph.WellFormed
import CiPipeline.Proofs.Table
import Mathlib.Logic.Relation
import Mathlib.Tactic.Push

/-!
What each transition does to the states of the instances. The cascade behind an instance that ended
without success is described by what it reaches: every instance in it was pending, is strict and
waits for one that is in it or started it, and once it is over nothing strict is left pending behind
it.
-/

namespace CiPipeline.Graph

variable {graph : Graph} {progress : Progress} {id : InstanceId}

/-! ## Counting instances by their state -/

/-- How many instances are in a state of some kind. -/
def countOf (graph : Graph) (kind : JobState → Bool) (progress : Progress) : Nat :=
  graph.ids.countP fun id => (progress.get? id).any kind

theorem countP_add_countP_le {α : Type} {p q : α → Bool} (hle : ∀ a, q a → p a) (list : List α) :
    list.countP q + list.countP (fun a => p a && !q a) ≤ list.countP p := by
  induction list with
  | nil => simp
  | cons a rest ih =>
      have ha := hle a
      simp only [List.countP_cons]
      cases hp : p a <;> cases hq : q a <;> simp_all <;> omega

/-- Each instance that leaves the kind, while none enters it, lowers the count by one. -/
theorem countOf_add_length_le {kind : JobState → Bool} {before after : Progress}
    {moved : List InstanceId} (hnodup : moved.Nodup)
    (hmoved : ∀ id ∈ moved, id ∈ graph.ids ∧ (before.get? id).any kind = true ∧
      (after.get? id).any kind = false)
    (hrest : ∀ id, (after.get? id).any kind = true → (before.get? id).any kind = true) :
    graph.countOf kind after + moved.length ≤ graph.countOf kind before := by
  have hsubset : moved ⊆ graph.ids.filter fun id =>
      (before.get? id).any kind && !(after.get? id).any kind := by
    intro id hid
    obtain ⟨hmem, hbefore, hafter⟩ := hmoved id hid
    simp [hmem, hbefore, hafter]
  have hlength := hnodup.length_le_of_subset hsubset
  rw [← List.countP_eq_length_filter] at hlength
  have hcount := countP_add_countP_le hrest graph.ids
  unfold countOf
  omega

theorem countOf_lt_length {kind : JobState → Bool} (hid : id ∈ graph.ids)
    (hout : (progress.get? id).any kind = false) :
    graph.countOf kind progress < graph.nodes.length := by
  rw [← List.length_map GraphNode.id, ← ids]
  apply Nat.lt_of_le_of_ne List.countP_le_length
  intro heq
  have hin := List.countP_eq_length.mp heq id hid
  rw [hout] at hin
  cases hin

/-! ## Single transitions -/

@[simp] theorem isTerminal_eq_true_iff :
    isTerminal progress id = true ↔ ∃ outcome, progress.get? id = some (.ended outcome) := by
  unfold isTerminal
  cases hstate : progress.get? id with
  | none => simp
  | some state => cases state <;> simp [JobState.isTerminal, JobState.outcome?]

theorem transition_ok {expected : JobState} (hstate : progress.get? id = some expected)
    (new : JobState) : transition progress id expected new = .ok (progress.insert id new) := by
  simp [transition, hstate]

/-- A move to one state leaves alone what is in any other. -/
theorem get?_of_insert {new current : JobState} {other : InstanceId} (hne : current ≠ new)
    (hcurrent : (progress.insert id new).get? other = some current) :
    progress.get? other = some current := by
  rw [Table.get?_insert] at hcurrent
  split at hcurrent
  · exact absurd (Option.some.inj hcurrent).symm hne
  · exact hcurrent

/-- Moving an instance that has not ended, and does not end by it, touches no end. -/
theorem ended_insert_iff {new : JobState}
    (hopen : ∀ outcome, progress.get? id ≠ some (.ended outcome))
    (hnew : ∀ outcome, new ≠ .ended outcome) (other : InstanceId) (outcome : Outcome) :
    (progress.insert id new).get? other = some (.ended outcome) ↔
      progress.get? other = some (.ended outcome) := by
  constructor
  · exact get?_of_insert (hnew outcome).symm
  · intro hended
    rw [Table.get?_insert, if_neg]
    · exact hended
    · rintro rfl
      exact hopen outcome hended

theorem mem_ready_iff (hnodup : graph.ids.Nodup) :
    id ∈ graph.ready progress ↔ id ∈ graph.ids ∧ progress.get? id = some .pending ∧
      ∀ need ∈ graph.dependencies id, ∃ outcome, progress.get? need = some (.ended outcome) := by
  simp only [ready, ids, List.mem_map, List.mem_filter, Bool.and_eq_true, beq_iff_eq,
    List.all_eq_true, isTerminal_eq_true_iff]
  constructor
  · rintro ⟨node, ⟨hnode, hpending, hneeds⟩, rfl⟩
    refine ⟨⟨node, hnode, rfl⟩, hpending, ?_⟩
    simpa [dependencies, node?_of_mem hnodup hnode] using hneeds
  · rintro ⟨⟨node, hnode, rfl⟩, hpending, hneeds⟩
    refine ⟨node, ⟨hnode, hpending, ?_⟩, rfl⟩
    simpa [dependencies, node?_of_mem hnodup hnode] using hneeds

theorem nodup_ready (hnodup : graph.ids.Nodup) : (graph.ready progress).Nodup :=
  hnodup.sublist (List.filter_sublist.map GraphNode.id)

/-- Something is still to happen to an instance that does not wait for others: it is ready, queued or
running. -/
def Stirs (graph : Graph) (progress : Progress) (id : InstanceId) : Prop :=
  id ∈ graph.ready progress ∨ progress.get? id = some .dispatchable ∨
    progress.get? id = some .running

/-- An instance that has not ended stirs, or going from it to a need that has not ended either, and
on to a need of that one, leads to one that does. -/
theorem WellFormed.exists_stirs (hgraph : graph.WellFormed) (hkeys : progress.keys = graph.ids) :
    ∀ id ∈ graph.ids, (∀ outcome, progress.get? id ≠ some (.ended outcome)) →
      ∃ other, Relation.ReflTransGen (fun a b => b ∈ graph.dependencies a) id other ∧
        graph.Stirs progress other := by
  refine hgraph.induction ?_
  intro id hid hneeds hopen
  obtain ⟨state, hstate⟩ := Table.mem_keys_iff.mp (hkeys ▸ hid)
  cases state with
  | pending =>
      by_cases hready : id ∈ graph.ready progress
      · exact ⟨id, .refl, Or.inl hready⟩
      · have hwaits : ∃ need ∈ graph.dependencies id,
            ∀ outcome, progress.get? need ≠ some (.ended outcome) := by
          by_contra hnone
          push Not at hnone
          exact hready ((mem_ready_iff hgraph.nodup_ids).mpr ⟨hid, hstate, hnone⟩)
        obtain ⟨need, hneed, hunended⟩ := hwaits
        obtain ⟨other, hleads, hstirs⟩ := hneeds need hneed hunended
        exact ⟨other, hleads.head hneed, hstirs⟩
  | dispatchable => exact ⟨id, .refl, Or.inr (Or.inl hstate)⟩
  | running => exact ⟨id, .refl, Or.inr (Or.inr hstate)⟩
  | ended outcome => exact absurd hstate (hopen outcome)

/-- Where nothing is queued or running and nothing is ready, nothing stirs, so everything has
ended. -/
theorem WellFormed.ended_of_ready_eq_nil (hgraph : graph.WellFormed)
    (hkeys : progress.keys = graph.ids)
    (hidle : ∀ id, progress.get? id ≠ some .dispatchable ∧ progress.get? id ≠ some .running)
    (hready : graph.ready progress = []) :
    ∀ id ∈ graph.ids, ∃ outcome, progress.get? id = some (.ended outcome) := by
  intro id hid
  by_contra hopen
  push Not at hopen
  obtain ⟨other, _, hmem | hqueued | hrunning⟩ := hgraph.exists_stirs hkeys id hid hopen
  · rw [hready] at hmem
    exact absurd hmem List.not_mem_nil
  · exact (hidle other).1 hqueued
  · exact (hidle other).2 hrunning

/-! ## Cancelling -/

theorem get?_cancelAll (progress : Progress) (cancelled : List InstanceId) (id : InstanceId) :
    (cancelAll progress cancelled).get? id =
      if id ∈ cancelled then some (.ended .cancelled) else progress.get? id := by
  induction cancelled generalizing progress with
  | nil => simp [cancelAll]
  | cons first rest ih =>
      change (cancelAll (progress.insert first (.ended .cancelled)) rest).get? id = _
      rw [ih, Table.get?_insert]
      by_cases hrest : id ∈ rest
      · simp [hrest]
      · by_cases hfirst : first = id
        · simp [hfirst]
        · simp [hrest, hfirst, Ne.symm hfirst]

theorem cancelAll_append (progress : Progress) (first second : List InstanceId) :
    cancelAll progress (first ++ second) = cancelAll (cancelAll progress first) second :=
  List.foldl_append

theorem mem_strictPending_iff (hnodup : graph.ids.Nodup) {child : InstanceId} :
    child ∈ graph.strictPending progress id ↔ id ∈ graph.dependencies child ∧
      progress.get? child = some .pending ∧ graph.isStrict child = true := by
  simp only [strictPending, List.mem_filter, mem_dependents_iff hnodup, Bool.and_eq_true,
    beq_iff_eq]

theorem nodup_strictPending (hnodup : graph.ids.Nodup) : (graph.strictPending progress id).Nodup :=
  (nodup_dependents hnodup).sublist List.filter_sublist

/-! ## The cascade -/

theorem cascade_fst (rounds : Nat) (queue : List InstanceId) (progress : Progress) :
    (graph.cascade rounds queue progress).1 =
      cancelAll progress (graph.cascade rounds queue progress).2 := by
  induction rounds generalizing queue progress with
  | zero => rfl
  | succ rounds ih =>
      cases queue with
      | nil => rfl
      | cons first queue =>
          simp only [cascade]
          rw [ih, cancelAll_append]

/-- What a cascade cancels was pending, is strict, and waits for something of the queue or of the
cascade itself. -/
theorem of_mem_cascade (hnodup : graph.ids.Nodup) {rounds : Nat} {queue : List InstanceId}
    (hid : id ∈ (graph.cascade rounds queue progress).2) :
    progress.get? id = some .pending ∧ graph.isStrict id = true ∧
      ∃ need ∈ graph.dependencies id,
        need ∈ queue ∨ need ∈ (graph.cascade rounds queue progress).2 := by
  induction rounds generalizing queue progress with
  | zero => simp [cascade] at hid
  | succ rounds ih =>
      cases queue with
      | nil => simp [cascade] at hid
      | cons first queue =>
          simp only [cascade, List.mem_append] at hid ⊢
          rcases hid with hreached | hmore
          · obtain ⟨hneed, hpending, hstrict⟩ := (mem_strictPending_iff hnodup).mp hreached
            exact ⟨hpending, hstrict, first, hneed, Or.inl List.mem_cons_self⟩
          · obtain ⟨hpending, hstrict, need, hneed, hfrom⟩ := ih hmore
            rw [get?_cancelAll] at hpending
            split at hpending
            · cases hpending
            · refine ⟨hpending, hstrict, need, hneed, ?_⟩
              rcases hfrom with hqueue | hlater
              · rcases List.mem_append.mp hqueue with hqueue | hreached
                · exact Or.inl (List.mem_cons_of_mem first hqueue)
                · exact Or.inr (Or.inl hreached)
              · exact Or.inr (Or.inr hlater)

theorem nodup_cascade (hnodup : graph.ids.Nodup) (rounds : Nat) (queue : List InstanceId)
    (progress : Progress) : (graph.cascade rounds queue progress).2.Nodup := by
  induction rounds generalizing queue progress with
  | zero => simp [cascade]
  | succ rounds ih =>
      cases queue with
      | nil => simp [cascade]
      | cons first queue =>
          simp only [cascade]
          rw [List.nodup_append]
          refine ⟨nodup_strictPending hnodup, ih _ _, ?_⟩
          intro a ha b hb heq
          have hpending := (of_mem_cascade hnodup hb).1
          rw [get?_cancelAll, if_pos (heq ▸ ha)] at hpending
          cases hpending

/-- With fuel for the queue and for every pending instance a cascade leaves nothing strict pending
behind the queue, nor behind what it has cancelled. -/
theorem cascade_closed (hnodup : graph.ids.Nodup) {rounds : Nat} {queue : List InstanceId}
    (hfuel : queue.length + graph.countOf (· == .pending) progress ≤ rounds) {need : InstanceId}
    (hneed : need ∈ queue ∨ need ∈ (graph.cascade rounds queue progress).2)
    (hid : need ∈ graph.dependencies id) (hstrict : graph.isStrict id = true) :
    (graph.cascade rounds queue progress).1.get? id ≠ some .pending := by
  induction rounds generalizing queue progress with
  | zero =>
      have hqueue : queue = [] := List.length_eq_zero_iff.mp (by omega)
      simp [cascade, hqueue] at hneed
  | succ rounds ih =>
      cases queue with
      | nil => simp [cascade] at hneed
      | cons first queue =>
          -- whatever is reached enters the queue, and pays for it by being pending no more
          have hcount : graph.countOf (· == .pending)
              (cancelAll progress (graph.strictPending progress first)) +
              (graph.strictPending progress first).length ≤
              graph.countOf (· == .pending) progress := by
            apply countOf_add_length_le (nodup_strictPending hnodup)
            · intro child hchild
              obtain ⟨hdep, hpending, _⟩ := (mem_strictPending_iff hnodup).mp hchild
              refine ⟨mem_ids_of_mem_dependencies hdep, by simp [hpending], ?_⟩
              simp [get?_cancelAll, hchild]
            · intro child hchild
              rw [get?_cancelAll] at hchild
              split at hchild
              · simp at hchild
              · exact hchild
          have hrest : (queue ++ graph.strictPending progress first).length +
              graph.countOf (· == .pending)
                (cancelAll progress (graph.strictPending progress first)) ≤ rounds := by
            simp only [List.length_cons] at hfuel
            rw [List.length_append]
            omega
          simp only [cascade] at hneed ⊢
          rcases hneed with hqueue | hcascade
          · rcases List.mem_cons.mp hqueue with rfl | hqueue
            · rw [cascade_fst, get?_cancelAll, get?_cancelAll]
              split
              · simp
              · split
                · simp
                · next hnot =>
                    intro hpending
                    exact hnot ((mem_strictPending_iff hnodup).mpr ⟨hid, hpending, hstrict⟩)
            · exact ih hrest (Or.inl (List.mem_append_left _ hqueue))
          · rcases List.mem_append.mp hcascade with hreached | hmore
            · exact ih hrest (Or.inl (List.mem_append_right _ hreached))
            · exact ih hrest (Or.inr hmore)

/-! ## The end of an instance -/

/-- The instances that the end of one takes with it. -/
def overtaken (graph : Graph) (progress : Progress) (id : InstanceId) (outcome : Outcome) :
    List InstanceId :=
  if outcome = .success then []
  else (graph.cascade graph.nodes.length [id] (progress.insert id (.ended outcome))).2

theorem markComplete_ok (graph : Graph) {state : JobState} (hstate : progress.get? id = some state)
    (hopen : state.isTerminal = false) (outcome : Outcome) :
    graph.markComplete progress id outcome =
      .ok (cancelAll (progress.insert id (.ended outcome)) (graph.overtaken progress id outcome),
        graph.overtaken progress id outcome) := by
  unfold markComplete overtaken
  simp only [hstate, hopen, Bool.false_eq_true, if_false]
  split
  · rfl
  · rw [← cascade_fst]

theorem nodup_overtaken (hnodup : graph.ids.Nodup) (outcome : Outcome) :
    (graph.overtaken progress id outcome).Nodup := by
  unfold overtaken
  split
  · exact List.nodup_nil
  · exact nodup_cascade hnodup _ _ _

/-- What is overtaken was pending beside the instance that ended, is strict, and waits for that
instance or for another overtaken one. -/
theorem of_mem_overtaken (hnodup : graph.ids.Nodup) {outcome : Outcome} {child : InstanceId}
    (hchild : child ∈ graph.overtaken progress id outcome) :
    outcome ≠ .success ∧ child ≠ id ∧ progress.get? child = some .pending ∧
      graph.isStrict child = true ∧
      ∃ need ∈ graph.dependencies child,
        need = id ∨ need ∈ graph.overtaken progress id outcome := by
  unfold overtaken at hchild ⊢
  split at hchild
  · simp at hchild
  · next hfailed =>
      obtain ⟨hpending, hstrict, need, hneed, hfrom⟩ := of_mem_cascade hnodup hchild
      rw [Table.get?_insert] at hpending
      split at hpending
      · cases hpending
      · next hne =>
          rw [if_neg hfailed]
          refine ⟨hfailed, Ne.symm hne, hpending, hstrict, need, hneed, ?_⟩
          simpa using hfrom

/-- Behind an instance that ended without success, and behind whatever it took with it, nothing
strict is left pending. -/
theorem overtaken_closed (hnodup : graph.ids.Nodup) (progress : Progress) (hid : id ∈ graph.ids)
    {outcome : Outcome} (hfailed : outcome ≠ .success) {need child : InstanceId}
    (hneed : need = id ∨ need ∈ graph.overtaken progress id outcome)
    (hchild : need ∈ graph.dependencies child) (hstrict : graph.isStrict child = true) :
    (cancelAll (progress.insert id (.ended outcome))
      (graph.overtaken progress id outcome)).get? child ≠ some .pending := by
  have hfuel : [id].length + graph.countOf (· == .pending) (progress.insert id (.ended outcome)) ≤
      graph.nodes.length := by
    have hcount : graph.countOf (· == .pending) (progress.insert id (.ended outcome)) <
        graph.nodes.length := countOf_lt_length hid (by simp [Table.get?_insert])
    rw [List.length_singleton]
    omega
  unfold overtaken at hneed ⊢
  rw [if_neg hfailed] at hneed ⊢
  rw [← cascade_fst]
  exact cascade_closed hnodup hfuel (by simpa using hneed) hchild hstrict

/-- The instances that have not been started. -/
def unstarted (progress : Progress) : List InstanceId :=
  (progress.filter fun _ state => isUnstarted state).keys

theorem mem_unstarted_iff :
    id ∈ unstarted progress ↔
      progress.get? id = some .pending ∨ progress.get? id = some .dispatchable := by
  unfold unstarted
  rw [Table.mem_keys_iff]
  simp only [Table.get?_filter, Option.filter_eq_some_iff, isUnstarted, Bool.or_eq_true,
    beq_iff_eq]
  constructor
  · rintro ⟨state, hstate, rfl | rfl⟩
    · exact Or.inl hstate
    · exact Or.inr hstate
  · rintro (hstate | hstate)
    · exact ⟨.pending, hstate, Or.inl rfl⟩
    · exact ⟨.dispatchable, hstate, Or.inr rfl⟩

theorem nodup_unstarted (progress : Progress) : (unstarted progress).Nodup :=
  Table.nodup_keys _

/-! ## Before anything has happened -/

theorem nodup_map_fst_fresh (hnodup : graph.ids.Nodup) :
    ((graph.ids.map fun id => (id, JobState.pending)).map Prod.fst).Nodup := by
  simpa [Function.comp_def] using hnodup

theorem get?_fresh (hnodup : graph.ids.Nodup) {state : JobState}
    (hstate : graph.fresh.get? id = some state) : state = .pending := by
  rw [Table.get?_eq_some_iff, fresh,
    Table.entries_ofList_of_nodup (nodup_map_fst_fresh hnodup)] at hstate
  obtain ⟨_, _, heq⟩ := List.mem_map.mp hstate
  exact (Prod.mk.inj heq).2.symm

theorem keys_fresh (hnodup : graph.ids.Nodup) : graph.fresh.keys = graph.ids := by
  rw [fresh, Table.keys, Table.entries_ofList_of_nodup (nodup_map_fst_fresh hnodup)]
  simp [Function.comp_def]

/-! ## Needs of what is pending -/

/-- No strict instance is pending behind one that ended without success. -/
def NeedsSucceeded (graph : Graph) (progress : Progress) : Prop :=
  ∀ id, progress.get? id = some .pending → graph.isStrict id = true →
    ∀ need ∈ graph.dependencies id, ∀ outcome,
      progress.get? need = some (.ended outcome) → outcome = .success

theorem get?_end (graph : Graph) (progress : Progress) (id : InstanceId) (outcome : Outcome)
    (child : InstanceId) :
    (cancelAll (progress.insert id (.ended outcome))
      (graph.overtaken progress id outcome)).get? child =
      if child ∈ graph.overtaken progress id outcome then some (.ended .cancelled)
      else if id = child then some (.ended outcome) else progress.get? child := by
  rw [get?_cancelAll, Table.get?_insert]

/-- An end keeps the needs of what is pending in order: what would be left behind is overtaken. -/
theorem NeedsSucceeded.end (hneeds : graph.NeedsSucceeded progress) (hnodup : graph.ids.Nodup)
    (hid : id ∈ graph.ids) (outcome : Outcome) :
    graph.NeedsSucceeded (cancelAll (progress.insert id (.ended outcome))
      (graph.overtaken progress id outcome)) := by
  intro child hpending hstrict need hneed ended hneeded
  have hwas : progress.get? child = some .pending := by
    rw [get?_end] at hpending
    split at hpending
    · cases hpending
    · split at hpending
      · cases hpending
      · exact hpending
  by_cases hfrom : need = id ∨ need ∈ graph.overtaken progress id outcome
  · by_cases hsuccess : outcome = .success
    · have hnot : need ∉ graph.overtaken progress id outcome :=
        fun hmem => (of_mem_overtaken hnodup hmem).1 hsuccess
      rw [get?_end, if_neg hnot, if_pos (hfrom.resolve_right hnot).symm] at hneeded
      rw [hsuccess] at hneeded
      simpa using hneeded.symm
    · exact absurd hpending (overtaken_closed hnodup progress hid hsuccess hfrom hneed hstrict)
  · rw [not_or] at hfrom
    rw [get?_end, if_neg hfrom.2, if_neg (Ne.symm hfrom.1)] at hneeded
    exact hneeds child hwas hstrict need hneed ended hneeded

end CiPipeline.Graph
