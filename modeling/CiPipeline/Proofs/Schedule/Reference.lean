import CiPipeline.Proofs.Graph.WellFormed
import CiPipeline.Proofs.Table
import CiPipeline.Schedule

/-!
The ends that the jobs of a graph should come to, by recursion over the needs and without any
schedule: the gate decides about a job by the outcomes of its needs, and a job that it lets through
ends as its execution does. The recursion goes to a depth; on a well-formed graph as many levels as
there are instances suffice, and then the ends satisfy the equation without a depth.
-/

namespace CiPipeline

/-- How a job ended: its outcome and what became of its steps. -/
structure Ending where
  outcome : Outcome
  steps : List StepRecord

/-- The end that a record tells. -/
def JobRecord.ending (record : JobRecord) : Ending :=
  ⟨record.outcome, record.steps⟩

namespace Scheduler

section Definitions

variable (scheduler : Scheduler)

/-- How a job ends, given how everything that it waits for has ended. -/
def endingGiven (job : JobInstance) (needs : Gate.NeedOutcomes) : Ending :=
  match scheduler.gate.decide job needs with
  | .refuse refusal => ⟨refusal.outcome, []⟩
  | .run steps =>
    match (scheduler.execute job steps).result with
    | .ok record => record.ending
    | .error _ => ⟨.failure, []⟩

/-- How an instance ends, to a depth of the recursion. -/
def referenceAt : Nat → InstanceId → Ending
  | 0, _ => ⟨.cancelled, []⟩
  | depth + 1, id =>
    match scheduler.graph.job? id with
    | none => ⟨.cancelled, []⟩
    | some job =>
      scheduler.endingGiven job (.ofList ((scheduler.graph.dependencies id).map fun need =>
        (need, (referenceAt depth need).outcome)))

/-- How an instance should end. -/
def reference (id : InstanceId) : Ending :=
  scheduler.referenceAt scheduler.graph.nodes.length id

/-- How the instances that an instance waits for should end. -/
def referenceNeeds (id : InstanceId) : Gate.NeedOutcomes :=
  .ofList ((scheduler.graph.dependencies id).map fun need =>
    (need, (scheduler.reference need).outcome))

/-- A record is what the gate's verdict and the execution make of an instance, given how its needs
have ended. -/
inductive Follows (id : InstanceId) (needs : Gate.NeedOutcomes) (record : JobRecord) : Prop
  | ran {job : JobInstance} {steps : List Selection} (hjob : scheduler.graph.job? id = some job)
      (hverdict : scheduler.gate.decide job needs = .run steps)
      (hresult : (scheduler.execute job steps).result = .ok record)
  | crashed {job : JobInstance} {steps : List Selection} {crash : Crash}
      (hjob : scheduler.graph.job? id = some job)
      (hverdict : scheduler.gate.decide job needs = .run steps)
      (hresult : (scheduler.execute job steps).result = .error (.crashed crash))
      (hrecord : record = scheduler.crashedRecord id crash)
  | refused {job : JobInstance} {refusal : Refusal} (hjob : scheduler.graph.job? id = some job)
      (hverdict : scheduler.gate.decide job needs = .refuse refusal)
      (hending : record.ending = ⟨refusal.outcome, []⟩)

end Definitions

variable {scheduler : Scheduler} {id : InstanceId}

/-- Along an order of the instances a depth that reaches its end is as good as any greater one. -/
theorem referenceAt_eq_of_length_le {order : List InstanceId}
    (horder : Graph.NeedsBehind scheduler.graph.dependencies order) (hid : id ∈ order)
    (depth : Nat) (hdepth : order.length ≤ depth) :
    scheduler.referenceAt depth id = scheduler.referenceAt order.length id := by
  induction order generalizing id depth with
  | nil => cases hid
  | cons first rest ih =>
      rw [List.length_cons] at hdepth ⊢
      rcases List.mem_cons.mp hid with rfl | hrest
      · obtain ⟨smaller, rfl⟩ : ∃ smaller, depth = smaller + 1 := ⟨depth - 1, by omega⟩
        have hneeds : ((scheduler.graph.dependencies id).map fun need =>
              (need, (scheduler.referenceAt smaller need).outcome)) =
            (scheduler.graph.dependencies id).map fun need =>
              (need, (scheduler.referenceAt rest.length need).outcome) := by
          apply List.map_congr_left
          intro need hneed
          rw [ih horder.2 (horder.1 need hneed) smaller (by omega)]
        simp only [referenceAt, hneeds]
      · rw [ih horder.2 hrest depth (by omega), ih horder.2 hrest (rest.length + 1) (by omega)]

theorem reference_eq (hgraph : scheduler.graph.WellFormed) {job : JobInstance}
    (hjob : scheduler.graph.job? id = some job) :
    scheduler.reference id = scheduler.endingGiven job (scheduler.referenceNeeds id) := by
  obtain ⟨order, hperm, horder⟩ := hgraph.order
  have hlength : order.length = scheduler.graph.nodes.length := by
    rw [hperm.length_eq, Graph.length_ids]
  have hid : id ∈ order := hperm.mem_iff.mpr (Graph.mem_ids_iff.mpr ⟨job, hjob⟩)
  have hdeeper := referenceAt_eq_of_length_le horder hid (order.length + 1) (by omega)
  rw [hlength] at hdeeper
  unfold reference
  rw [← hdeeper]
  simp only [referenceAt, hjob]
  rfl

theorem get?_referenceNeeds (hgraph : scheduler.graph.WellFormed) {need : InstanceId}
    (hneed : need ∈ scheduler.graph.dependencies id) :
    (scheduler.referenceNeeds id).get? need = some (scheduler.reference need).outcome := by
  have hnodup : (((scheduler.graph.dependencies id).map fun need =>
      (need, (scheduler.reference need).outcome)).map Prod.fst).Nodup := by
    simpa [Function.comp_def] using hgraph.nodup_needs id
  rw [Table.get?_eq_some_iff, referenceNeeds, Table.entries_ofList_of_nodup hnodup]
  exact List.mem_map_of_mem hneed

/-- The reference depends on the graph, the gate and the jobs alone. -/
theorem reference_congr {other : Scheduler} (hgraph : other.graph = scheduler.graph)
    (hgate : other.gate = scheduler.gate) (hexecute : other.execute = scheduler.execute) :
    other.reference = scheduler.reference := by
  have hat : ∀ depth, other.referenceAt depth = scheduler.referenceAt depth := by
    intro depth
    induction depth with
    | zero => rfl
    | succ depth ih =>
        funext id
        simp only [referenceAt, ih, hgraph, endingGiven, hgate, hexecute]
  funext id
  rw [reference, reference, hat, hgraph]

/-- What follows from the needs as they should end ends as it should. -/
theorem Follows.ending_eq (hgraph : scheduler.graph.WellFormed) {record : JobRecord}
    (hrecord : scheduler.Follows id (scheduler.referenceNeeds id) record) :
    record.ending = scheduler.reference id := by
  cases hrecord with
  | ran hjob hverdict hresult =>
      rw [reference_eq hgraph hjob, endingGiven, hverdict]
      simp only [hresult]
  | crashed hjob hverdict hresult hrecord =>
      rw [reference_eq hgraph hjob, endingGiven, hverdict]
      simp only [hresult, hrecord]
      rfl
  | refused hjob hverdict hending =>
      rw [reference_eq hgraph hjob, endingGiven, hverdict]
      exact hending

end Scheduler
end CiPipeline
