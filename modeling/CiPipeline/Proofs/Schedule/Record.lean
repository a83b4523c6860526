import CiPipeline.Proofs.Table
import CiPipeline.Schedule

/-!
Records and the log of a run. Jobs end in groups: one comes to its end and takes others with it, or
a stop cancels whatever was not started. Ending a group keeps the books in order, which means that
the states, the records and the log tell the same ends, each of them once.
-/

namespace CiPipeline

/-- The job that a notice says was started. -/
def Notice.started? : Notice → Option InstanceId
  | .started id _ => some id
  | _ => none

/-- The record that a notice says was made. -/
def Notice.record? : Notice → Option JobRecord
  | .recorded record => some record
  | _ => none

namespace RunState

/-- The jobs that were started, in order. -/
def started (state : RunState) : List InstanceId :=
  state.log.filterMap Notice.started?

/-- The records as they were noted; the console shows one result for each. -/
def results (state : RunState) : List JobRecord :=
  state.log.filterMap Notice.record?

/-- The states after some jobs have ended, each as its record says. -/
def endStates (progress : Graph.Progress) (records : List JobRecord) : Graph.Progress :=
  records.foldl (fun progress (record : JobRecord) =>
    progress.insert record.id (.ended record.outcome)) progress

/-- Ends some jobs, each as its record says. -/
def settle (state : RunState) (records : List JobRecord) : RunState :=
  { state with progress := endStates state.progress records }.recordAll records

theorem recordAll_eq (state : RunState) (records : List JobRecord) :
    state.recordAll records =
      { state with
        records := records.foldl Records.add state.records
        log := state.log ++ records.map .recorded } := by
  induction records generalizing state with
  | nil => simp [recordAll]
  | cons record rest ih =>
      change (state.record record).recordAll rest = _
      rw [ih]
      simp [RunState.record, note]

theorem settle_eq (state : RunState) (records : List JobRecord) :
    state.settle records =
      { state with
        progress := endStates state.progress records
        records := records.foldl Records.add state.records
        log := state.log ++ records.map .recorded } := by
  rw [settle, recordAll_eq]

section Views

variable (state : RunState) (records : List JobRecord)

@[simp] theorem queue_settle : (state.settle records).queue = state.queue := by
  rw [settle_eq]

@[simp] theorem inFlight_settle : (state.settle records).inFlight = state.inFlight := by
  rw [settle_eq]

@[simp] theorem stopped_settle : (state.settle records).stopped = state.stopped := by
  rw [settle_eq]

@[simp] theorem log_settle :
    (state.settle records).log = state.log ++ records.map .recorded := by
  rw [settle_eq]

@[simp] theorem started_settle : (state.settle records).started = state.started := by
  simp [started, List.filterMap_append, List.filterMap_map, Function.comp_def, Notice.started?]

@[simp] theorem results_settle : (state.settle records).results = state.results ++ records := by
  simp [results, List.filterMap_append, List.filterMap_map, Function.comp_def, Notice.record?]

/-- Whether workers are busy plays no part in ending jobs. -/
theorem settle_withInFlight (flights : List Flight) :
    { state with inFlight := flights }.settle records =
      { state.settle records with inFlight := flights } := by
  rw [settle_eq, settle_eq]

end Views

/-! ## Looking an instance up after a group has ended -/

theorem get?_foldl_add (table : Records) (records : List JobRecord) (id : InstanceId) :
    (records.foldl Records.add table).get? id =
      (table.get? id).or (records.find? fun record => record.id == id) := by
  induction records generalizing table with
  | nil => simp
  | cons record rest ih =>
      rw [List.foldl_cons, ih, Records.add, Table.get?_insertNew]
      by_cases hid : record.id = id
      · subst hid
        cases table.get? record.id <;> simp
      · cases table.get? id <;> simp [hid]

theorem get?_records_settle (state : RunState) (records : List JobRecord) (id : InstanceId) :
    (state.settle records).records.get? id =
      (state.records.get? id).or (records.find? fun record => record.id == id) := by
  rw [settle_eq]
  exact get?_foldl_add state.records records id

theorem get?_endStates (progress : Graph.Progress) {records : List JobRecord}
    (hnodup : (records.map JobRecord.id).Nodup) (id : InstanceId) :
    (endStates progress records).get? id =
      ((records.find? fun record => record.id == id).map fun record =>
        .ended record.outcome).or (progress.get? id) := by
  induction records generalizing progress with
  | nil => simp [endStates]
  | cons record rest ih =>
      simp only [List.map_cons, List.nodup_cons] at hnodup
      change (endStates (progress.insert record.id (.ended record.outcome)) rest).get? id = _
      rw [ih _ hnodup.2, Table.get?_insert]
      by_cases hid : record.id = id
      · subst hid
        have hrest : rest.find? (fun other => other.id == record.id) = none := by
          rw [List.find?_eq_none]
          intro other hother heq
          have heq : other.id = record.id := by simpa using heq
          exact hnodup.1 (heq ▸ List.mem_map_of_mem hother)
        simp [hrest]
      · simp [hid]

theorem get?_progress_settle (state : RunState) {records : List JobRecord}
    (hnodup : (records.map JobRecord.id).Nodup) (id : InstanceId) :
    (state.settle records).progress.get? id =
      ((records.find? fun record => record.id == id).map fun record =>
        .ended record.outcome).or (state.progress.get? id) := by
  rw [settle_eq]
  exact get?_endStates state.progress hnodup id

theorem keys_settle {state : RunState} {records : List JobRecord}
    (hknown : ∀ record ∈ records, record.id ∈ state.progress.keys) :
    (state.settle records).progress.keys = state.progress.keys := by
  have hkeys : ∀ progress : Graph.Progress, (∀ record ∈ records, record.id ∈ progress.keys) →
      (endStates progress records).keys = progress.keys := by
    clear hknown
    induction records with
    | nil => exact fun _ _ => rfl
    | cons record rest ih =>
        intro progress hmem
        have hinsert := Table.keys_insert_of_mem (hmem record List.mem_cons_self)
          (.ended record.outcome)
        change (endStates (progress.insert record.id (.ended record.outcome)) rest).keys = _
        rw [ih, hinsert]
        intro other hother
        rw [hinsert]
        exact hmem other (List.mem_cons_of_mem record hother)
  rw [settle_eq]
  exact hkeys state.progress hknown

theorem values_foldl_add {table : Records} {records : List JobRecord}
    (hnodup : (records.map JobRecord.id).Nodup)
    (hnew : ∀ record ∈ records, table.get? record.id = none) :
    (records.foldl Records.add table).values = table.values ++ records := by
  induction records generalizing table with
  | nil => simp
  | cons record rest ih =>
      simp only [List.map_cons, List.nodup_cons] at hnodup
      rw [List.foldl_cons, ih hnodup.2, Records.add,
        Table.values_insertNew_of_none record (hnew record List.mem_cons_self)]
      · simp
      · intro other hother
        have hne : ¬ record.id = other.id := by
          intro heq
          exact hnodup.1 (heq ▸ List.mem_map_of_mem hother)
        rw [Records.add, Table.get?_insertNew, hnew other (List.mem_cons_of_mem record hother)]
        simp [hne]

/-! ## Books in order -/

/-- The states, the records and the log agree on what has ended and how. -/
structure Accounted (state : RunState) : Prop where
  ended_iff : ∀ id outcome, state.progress.get? id = some (.ended outcome) ↔
    ∃ record, state.records.get? id = some record ∧ record.outcome = outcome
  record_id : ∀ id record, state.records.get? id = some record → record.id = id
  results_eq : state.results = state.records.values

namespace Accounted

variable {state : RunState}

theorem get?_record_eq_none (hstate : state.Accounted) {id : InstanceId}
    (hopen : ∀ outcome, state.progress.get? id ≠ some (.ended outcome)) :
    state.records.get? id = none := by
  rw [Option.eq_none_iff_forall_ne_some]
  intro record hrecord
  exact hopen record.outcome ((hstate.ended_iff id record.outcome).mpr ⟨record, hrecord, rfl⟩)

/-- Moving an instance that has not ended changes nothing that is accounted for. -/
theorem of_unended (hstate : state.Accounted) (next : RunState)
    (hended : ∀ id outcome, next.progress.get? id = some (.ended outcome) ↔
      state.progress.get? id = some (.ended outcome))
    (hrecords : next.records = state.records) (hresults : next.results = state.results) :
    next.Accounted where
  ended_iff id outcome := by rw [hended, hrecords, hstate.ended_iff]
  record_id := by rw [hrecords]; exact hstate.record_id
  results_eq := by rw [hresults, hrecords, hstate.results_eq]

/-- Different instances that have not ended may end together. -/
theorem settle (hstate : state.Accounted) {records : List JobRecord}
    (hnodup : (records.map JobRecord.id).Nodup)
    (hopen : ∀ record ∈ records, ∀ outcome,
      state.progress.get? record.id ≠ some (.ended outcome)) :
    (state.settle records).Accounted where
  ended_iff id outcome := by
    rw [get?_progress_settle state hnodup, get?_records_settle]
    cases hfound : records.find? (fun record => record.id == id) with
    | none => simpa using hstate.ended_iff id outcome
    | some record =>
        have hid : record.id = id := by simpa using List.find?_some hfound
        have hnone := hstate.get?_record_eq_none
          (hopen record (List.mem_of_find?_eq_some hfound))
        rw [hid] at hnone
        simp [hnone]
  record_id id record hrecord := by
    rw [get?_records_settle, Option.or_eq_some_iff] at hrecord
    rcases hrecord with hold | ⟨_, hfound⟩
    · exact hstate.record_id id record hold
    · simpa using List.find?_some hfound
  results_eq := by
    have hvalues := values_foldl_add hnodup fun record hrecord =>
      hstate.get?_record_eq_none (hopen record hrecord)
    rw [results_settle, hstate.results_eq, settle_eq]
    exact hvalues.symm

end Accounted
end RunState
end CiPipeline
