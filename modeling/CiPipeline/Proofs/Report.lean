import CiPipeline.Proofs.Table
import CiPipeline.Report

/-!
The report of a run in terms of its records: their order changes none of them, and the verdict
depends on nothing but whether a job failed.
-/

namespace CiPipeline

/-- An order changes no record: each of them is in the order or comes behind it. -/
theorem Records.get?_ordered (records : Records) (order : List InstanceId) (id : InstanceId) :
    (records.ordered order).get? id = records.get? id := by
  let inOrder := order.filterMap fun id => (records.get? id).map (id, ·)
  let others := records.filter fun id _ => !order.contains id
  have hinOrder : ∀ entry ∈ inOrder, records.get? entry.1 = some entry.2 := by
    intro entry hentry
    obtain ⟨id, _, hmap⟩ := List.mem_filterMap.mp hentry
    obtain ⟨record, hrecord, rfl⟩ := Option.map_eq_some_iff.mp hmap
    exact hrecord
  have hothers : ∀ entry ∈ others.entries, records.get? entry.1 = some entry.2 := by
    intro entry hentry
    exact Table.get?_eq_some_iff.mpr (List.mem_filter.mp hentry).1
  change ((Table.empty.insertAll inOrder).insertAll others.entries).get? id = _
  rw [Table.get?_insertAll_of_forall hothers, Table.get?_insertAll_of_forall hinOrder]
  split
  · rfl
  · next hlater =>
      split
      · rfl
      · next hfirst =>
          rw [Table.get?_empty, eq_comm, Option.eq_none_iff_forall_ne_some]
          intro record hrecord
          by_cases hid : id ∈ order
          · apply hfirst
            have hmem : (id, record) ∈ inOrder :=
              List.mem_filterMap.mpr ⟨id, hid, by rw [hrecord]; rfl⟩
            exact List.mem_map_of_mem hmem
          · apply hlater
            have hmem : (id, record) ∈ others.entries :=
              List.mem_filter.mpr ⟨Table.get?_eq_some_iff.mp hrecord, by simpa using hid⟩
            exact List.mem_map_of_mem hmem

theorem Records.map_fst_filterMap {records : Records} {order : List InstanceId}
    (hknown : ∀ id ∈ order, ∃ record, records.get? id = some record) :
    (order.filterMap fun id => (records.get? id).map (id, ·)).map Prod.fst = order := by
  induction order with
  | nil => rfl
  | cons id rest ih =>
      obtain ⟨⟨record, hrecord⟩, hrest⟩ := List.forall_mem_cons.mp hknown
      simp only [List.filterMap_cons, hrecord, Option.map_some, List.map_cons]
      exact congrArg (List.cons id) (ih hrest)

/-- An order that lists the jobs of the records is the order of the report. -/
theorem Records.keys_ordered {records : Records} {order : List InstanceId}
    (hperm : records.keys.Perm order) : (records.ordered order).keys = order := by
  let inOrder := order.filterMap fun id => (records.get? id).map (id, ·)
  let others := records.filter fun id _ => !order.contains id
  have hinOrder : inOrder.map Prod.fst = order :=
    map_fst_filterMap fun id hid => Table.mem_keys_iff.mp (hperm.mem_iff.mpr hid)
  have hothers : others.entries = [] := by
    refine List.filter_eq_nil_iff.mpr ?_
    intro entry hentry
    have hmem : entry.1 ∈ order := hperm.mem_iff.mp (List.mem_map_of_mem hentry)
    simpa using hmem
  have hnodup : (inOrder.map Prod.fst).Nodup := hinOrder ▸ hperm.nodup_iff.mp records.nodup_keys
  change ((Table.ofList inOrder).insertAll others.entries).keys = order
  rw [hothers, Table.insertAll, List.foldl_nil, Table.keys,
    Table.entries_ofList_of_nodup hnodup, hinOrder]

namespace RunReport

theorem failed_iff_exists (jobs : Records) :
    (jobs.values.any fun record => record.outcome == .failure) = true ↔
      ∃ id record, jobs.get? id = some record ∧ record.outcome = .failure := by
  simp only [List.any_eq_true, beq_iff_eq, Table.mem_values_iff]
  constructor
  · rintro ⟨record, ⟨id, hrecord⟩, hfailed⟩
    exact ⟨id, record, hrecord, hfailed⟩
  · rintro ⟨id, record, hrecord, hfailed⟩
    exact ⟨record, ⟨id, hrecord⟩, hfailed⟩

variable {report : RunReport}

/-- A run fails exactly if one of its jobs does. -/
theorem outcome_eq_failure_iff (htriggered : report.triggered = true) :
    report.outcome = .failure ↔
      ∃ id record, report.jobs.get? id = some record ∧ record.outcome = .failure := by
  rw [← failed_iff_exists]
  unfold outcome
  simp [htriggered]

/-- Two runs with the same jobs failing or none come to the same verdict. -/
theorem outcome_eq_of_failure_iff {report' : RunReport} (htriggered : report.triggered = true)
    (htriggered' : report'.triggered = true)
    (hiff : report.outcome = .failure ↔ report'.outcome = .failure) :
    report.outcome = report'.outcome := by
  have hcases : ∀ other : RunReport, other.triggered = true →
      other.outcome = .failure ∨ other.outcome = .success := by
    intro other hother
    unfold outcome
    rw [hother]
    cases other.jobs.values.any fun record => record.outcome == .failure
    · exact Or.inr rfl
    · exact Or.inl rfl
  rcases hcases report htriggered with h | h <;> rcases hcases report' htriggered' with h' | h'
  · rw [h, h']
  · exact h.trans (hiff.mp h).symm
  · exact (hiff.mpr h').trans h'.symm
  · rw [h, h']

/-- The status of a run that was started is that of its records. -/
theorem exitCode_of_triggered (htriggered : report.triggered = true) :
    report.exitCode = if ∃ record ∈ report.jobs.values, record.outcome = .failure then 1 else 0 := by
  have hiff : report.outcome = .failure ↔
      ∃ record ∈ report.jobs.values, record.outcome = .failure := by
    rw [outcome_eq_failure_iff htriggered, ← failed_iff_exists]
    simp only [List.any_eq_true, beq_iff_eq]
  unfold exitCode
  simp only [hiff]

theorem exitCode_of_not_triggered (hidle : report.triggered = false) : report.exitCode = 0 := by
  have houtcome : report.outcome = .skipped := by
    unfold outcome
    rw [hidle]
    rfl
  rw [exitCode, houtcome, if_neg (by decide)]

theorem exitCode_eq_one_iff : report.exitCode = 1 ↔ report.outcome = .failure := by
  unfold exitCode
  split <;> simp_all

end RunReport
end CiPipeline
