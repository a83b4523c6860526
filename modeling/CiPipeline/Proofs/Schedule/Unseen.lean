import CiPipeline.Graph.Level
import CiPipeline.Proofs.Except
import CiPipeline.Proofs.Schedule.Course

/-!
Changes of the jobs that a run does not see. A graph looks at the identity, the needs and the
strictness of a job; a scheduler looks at its title, asks the gate about it and has it executed. A
change that keeps the answers to all of these keeps every step of every run.
-/

namespace CiPipeline

namespace Graph

/-- A change of the jobs that keeps what a graph sees of them. -/
structure Unseen (f : JobInstance → JobInstance) : Prop where
  id_eq : ∀ job, (f job).id = job.id
  needs_eq : ∀ job, (f job).template.needs = job.template.needs
  strict_eq : ∀ job, Condition.requiresSuccess (f job).condition =
    Condition.requiresSuccess job.condition

/-- The graph with all its jobs changed. -/
def mapJobs (f : JobInstance → JobInstance) (graph : Graph) : Graph where
  nodes := graph.nodes.map fun node => { node with job := f node.job }

variable {f : JobInstance → JobInstance} {graph : Graph}

theorem length_nodes_mapJobs : (graph.mapJobs f).nodes.length = graph.nodes.length :=
  List.length_map _

namespace Unseen

variable (hf : Unseen f)

include hf

theorem ids_map (jobs : List JobInstance) :
    (jobs.map f).map JobInstance.id = jobs.map JobInstance.id := by
  rw [List.map_map]
  exact List.map_congr_left fun job _ => hf.id_eq job

theorem node_id_eq (node : GraphNode) :
    GraphNode.id { node with job := f node.job } = node.id :=
  hf.id_eq node.job

theorem ids_mapJobs : (graph.mapJobs f).ids = graph.ids := by
  unfold ids mapJobs
  rw [List.map_map]
  exact List.map_congr_left fun node _ => hf.node_id_eq node

theorem node?_mapJobs (id : InstanceId) :
    (graph.mapJobs f).node? id =
      (graph.node? id).map fun node => { node with job := f node.job } := by
  simp only [node?, mapJobs, List.find?_map, Function.comp_def, hf.node_id_eq]

theorem job?_mapJobs (id : InstanceId) :
    (graph.mapJobs f).job? id = (graph.job? id).map f := by
  simp only [job?, hf.node?_mapJobs, Option.map_map, Function.comp_def]

theorem dependencies_mapJobs : (graph.mapJobs f).dependencies = graph.dependencies := by
  funext id
  simp only [dependencies, hf.node?_mapJobs, Option.map_map, Function.comp_def]

/-- Instances that are picked by what they wait for are the same ones. -/
theorem filter_nodes_mapJobs (p : InstanceId → List InstanceId → Bool) :
    ((graph.mapJobs f).nodes.filter fun node => p node.id node.needs).map GraphNode.id =
      (graph.nodes.filter fun node => p node.id node.needs).map GraphNode.id := by
  simp only [mapJobs, List.filter_map, List.map_map, Function.comp_def, hf.node_id_eq]

theorem dependents_mapJobs : (graph.mapJobs f).dependents = graph.dependents := by
  funext id
  unfold dependents
  rw [hf.filter_nodes_mapJobs fun _ needs => needs.contains id]

theorem isStrict_mapJobs : (graph.mapJobs f).isStrict = graph.isStrict := by
  funext id
  unfold isStrict
  rw [hf.job?_mapJobs]
  cases graph.job? id with
  | none => rfl
  | some job => exact hf.strict_eq job

/-! ### Stages -/

theorem nextLevel_mapJobs (passed level : List InstanceId) :
    (graph.mapJobs f).nextLevel passed level = graph.nextLevel passed level := by
  induction level generalizing passed with
  | nil => rfl
  | cons id rest ih =>
      simp only [nextLevel, ih, hf.dependents_mapJobs, hf.dependencies_mapJobs]

theorem levelsFrom_mapJobs (rounds : Nat) (passed level : List InstanceId) :
    (graph.mapJobs f).levelsFrom rounds passed level = graph.levelsFrom rounds passed level := by
  induction rounds generalizing passed level with
  | zero => rfl
  | succ rounds ih =>
      cases level with
      | nil => rfl
      | cons id rest => simp only [levelsFrom, hf.nextLevel_mapJobs, ih]

theorem levels_mapJobs : (graph.mapJobs f).levels = graph.levels := by
  have hroots : (graph.mapJobs f).roots = graph.roots :=
    hf.filter_nodes_mapJobs fun _ needs => needs.isEmpty
  unfold levels
  rw [hroots, length_nodes_mapJobs, hf.levelsFrom_mapJobs]

/-! ### Progress -/

theorem fresh_mapJobs : (graph.mapJobs f).fresh = graph.fresh := by
  rw [fresh, fresh, hf.ids_mapJobs]

theorem ready_mapJobs : (graph.mapJobs f).ready = graph.ready := by
  funext progress
  exact hf.filter_nodes_mapJobs fun id needs =>
    progress.get? id == some .pending && needs.all (isTerminal progress)

theorem cascade_mapJobs (rounds : Nat) (queue : List InstanceId) (progress : Progress) :
    (graph.mapJobs f).cascade rounds queue progress = graph.cascade rounds queue progress := by
  induction rounds generalizing queue progress with
  | zero => rfl
  | succ rounds ih =>
      cases queue with
      | nil => rfl
      | cons id queue =>
          simp only [cascade, strictPending, hf.dependents_mapJobs, hf.isStrict_mapJobs, ih]

theorem markComplete_mapJobs : (graph.mapJobs f).markComplete = graph.markComplete := by
  funext progress id outcome
  simp only [markComplete, length_nodes_mapJobs, hf.cascade_mapJobs]

theorem overtaken_mapJobs : (graph.mapJobs f).overtaken = graph.overtaken := by
  funext progress id outcome
  simp only [overtaken, length_nodes_mapJobs, hf.cascade_mapJobs]

/-! ### Building -/

section Building

variable (jobs : List JobInstance)

theorem instancesOf_map : instancesOf (jobs.map f) = instancesOf jobs := by
  funext template
  rw [instancesOf, instancesOf, hf.ids_map]

theorem templateNames_map : templateNames (jobs.map f) = templateNames jobs := by
  simp only [templateNames, List.map_map, Function.comp_def, hf.id_eq]

theorem resolveNeeds_map (template : String) (needs : List String) :
    resolveNeeds (jobs.map f) template needs = resolveNeeds jobs template needs := by
  induction needs with
  | nil => rfl
  | cons need rest ih => simp only [resolveNeeds, hf.templateNames_map, hf.instancesOf_map, ih]

theorem resolveNodes_map (rest : List JobInstance) :
    resolveNodes (jobs.map f) (declaredNeeds none) (rest.map f) =
      (resolveNodes jobs (declaredNeeds none) rest).map
        (List.map fun node => { node with job := f node.job }) := by
  induction rest with
  | nil => rfl
  | cons job rest ih =>
      simp only [List.map_cons, resolveNodes, declaredNeeds, hf.resolveNeeds_map, hf.id_eq,
        hf.needs_eq] at ih ⊢
      rw [ih]
      cases resolveNeeds jobs job.id.template job.template.needs with
      | error error => rfl
      | ok needs => cases resolveNodes jobs (declaredNeeds none) rest <;> rfl

theorem build_map : build (jobs.map f) = (build jobs).map (mapJobs f) := by
  unfold build
  simp only [hf.ids_map, hf.resolveNodes_map]
  split
  · rfl
  · cases resolveNodes jobs (declaredNeeds none) jobs with
    | error error => rfl
    | ok nodes =>
        have hneeds : dependencies ⟨nodes.map fun node => { node with job := f node.job }⟩ =
            dependencies ⟨nodes⟩ := @dependencies_mapJobs f ⟨nodes⟩ hf
        simp only [Except.map, bind, Except.bind, hneeds]
        cases findCycle (jobs.map JobInstance.id) (dependencies ⟨nodes⟩) <;> rfl

end Building

end Unseen
end Graph

namespace Scheduler

/-- The scheduler with all its jobs changed. -/
def mapJobs (f : JobInstance → JobInstance) (scheduler : Scheduler) : Scheduler :=
  { scheduler with graph := scheduler.graph.mapJobs f }

/-- A change of the jobs that keeps what a scheduler sees of them. -/
structure Unseen (scheduler : Scheduler) (f : JobInstance → JobInstance) : Prop
    extends Graph.Unseen f where
  title_eq : ∀ job, (f job).title = job.title
  decide_eq : ∀ job, scheduler.gate.decide (f job) = scheduler.gate.decide job
  execute_eq : ∀ job, scheduler.execute (f job) = scheduler.execute job

namespace Unseen

variable {scheduler : Scheduler} {f : JobInstance → JobInstance} (hf : scheduler.Unseen f)

include hf

theorem titleOf_mapJobs : (scheduler.mapJobs f).titleOf = scheduler.titleOf := by
  funext id
  simp only [titleOf, mapJobs, hf.job?_mapJobs, Option.map_map, Function.comp_def, hf.title_eq]

theorem cancelledRecord_mapJobs :
    (scheduler.mapJobs f).cancelledRecord = scheduler.cancelledRecord := by
  funext reason id
  rw [cancelledRecord, hf.titleOf_mapJobs]
  rfl

theorem refusedRecord_mapJobs :
    (scheduler.mapJobs f).refusedRecord = scheduler.refusedRecord := by
  funext id refusal
  rw [refusedRecord, hf.titleOf_mapJobs]
  rfl

theorem recordOf?_mapJobs : (scheduler.mapJobs f).recordOf? = scheduler.recordOf? := by
  have hcrashed : (scheduler.mapJobs f).crashedRecord = scheduler.crashedRecord := by
    funext id crash
    rw [crashedRecord, hf.titleOf_mapJobs]
    rfl
  funext flight
  rw [recordOf?, hcrashed]
  rfl

theorem needOutcomes_mapJobs :
    (scheduler.mapJobs f).needOutcomes = scheduler.needOutcomes := by
  funext progress id
  simp only [needOutcomes, mapJobs, hf.dependencies_mapJobs]

/-! ### Operations -/

theorem complete_mapJobs : (scheduler.mapJobs f).complete = scheduler.complete := by
  funext state record
  unfold complete
  simp only [hf.cancelledRecord_mapJobs]
  simp only [mapJobs, hf.markComplete_mapJobs]

theorem gateOne_mapJobs : (scheduler.mapJobs f).gateOne = scheduler.gateOne := by
  funext state id
  unfold gateOne
  simp only [hf.needOutcomes_mapJobs, hf.complete_mapJobs, hf.refusedRecord_mapJobs]
  simp only [mapJobs, hf.job?_mapJobs]
  cases scheduler.graph.job? id with
  | none => rfl
  | some job => simp only [Option.map_some, hf.decide_eq]

theorem gateReady_mapJobs (passes : Nat) :
    (scheduler.mapJobs f).gateReady passes = scheduler.gateReady passes := by
  induction passes with
  | zero => rfl
  | succ passes ih =>
      funext state
      simp only [gateReady, hf.gateOne_mapJobs, ih]
      simp only [mapJobs, hf.ready_mapJobs]

theorem start_mapJobs : (scheduler.mapJobs f).start = scheduler.start := by
  funext state id steps
  unfold start
  simp only [mapJobs, hf.job?_mapJobs]
  cases scheduler.graph.job? id with
  | none => rfl
  | some job => simp only [Option.map_some, hf.execute_eq]

theorem dispatch_mapJobs (queue : List (InstanceId × List Selection)) :
    (scheduler.mapJobs f).dispatch queue = scheduler.dispatch queue := by
  induction queue with
  | nil => rfl
  | cons entry queue ih =>
      funext state
      simp only [dispatch, hf.start_mapJobs, ih]
      rfl

theorem prepare_mapJobs : (scheduler.mapJobs f).prepare = scheduler.prepare := by
  funext state
  unfold prepare
  simp only [hf.gateReady_mapJobs, hf.dispatch_mapJobs]
  simp only [mapJobs, Graph.length_nodes_mapJobs]

theorem stop_mapJobs : (scheduler.mapJobs f).stop = scheduler.stop := by
  funext state
  simp only [stop, hf.cancelledRecord_mapJobs]

theorem collect_mapJobs : (scheduler.mapJobs f).collect = scheduler.collect := by
  funext state flight
  unfold collect
  simp only [hf.recordOf?_mapJobs, hf.complete_mapJobs, hf.stop_mapJobs]
  rfl

theorem await_mapJobs : (scheduler.mapJobs f).await = scheduler.await := by
  funext state
  simp only [await, hf.collect_mapJobs]

theorem loop_mapJobs (rounds : Nat) :
    (scheduler.mapJobs f).loop rounds = scheduler.loop rounds := by
  induction rounds with
  | zero => rfl
  | succ rounds ih =>
      funext state
      simp only [loop, hf.prepare_mapJobs, hf.await_mapJobs, ih]

/-- The run of the changed jobs is the run of the jobs. -/
theorem run_mapJobs : (scheduler.mapJobs f).run = scheduler.run := by
  unfold run runFrom
  simp only [hf.loop_mapJobs]
  simp only [mapJobs, Graph.length_nodes_mapJobs, hf.fresh_mapJobs]

/-! ### Steps -/

theorem completed_mapJobs : (scheduler.mapJobs f).completed = scheduler.completed := by
  funext state record
  simp only [completed, groupOf, cancelledRecords, hf.cancelledRecord_mapJobs]
  simp only [mapJobs, hf.overtaken_mapJobs]

theorem collected_mapJobs : (scheduler.mapJobs f).collected = scheduler.collected := by
  funext state record
  simp only [collected, hf.completed_mapJobs, hf.stop_mapJobs]
  rfl

theorem launched_mapJobs (state : RunState) (id : InstanceId) (steps : List Selection)
    (rest : List (InstanceId × List Selection)) (job : JobInstance) :
    (scheduler.mapJobs f).launched state id steps rest (f job) =
      scheduler.launched state id steps rest job := by
  simp only [launched, mapJobs, hf.execute_eq]

/-- Each step of the one scheduler is a step of the other. -/
theorem step_mapJobs_iff {state next : RunState} :
    (scheduler.mapJobs f).Step state next ↔ scheduler.Step state next := by
  have hready : (scheduler.mapJobs f).graph.ready = scheduler.graph.ready := hf.ready_mapJobs
  have hjobs : ∀ id, (scheduler.mapJobs f).graph.job? id = (scheduler.graph.job? id).map f :=
    hf.job?_mapJobs
  constructor
  · intro hstep
    cases hstep with
    | enqueue hrunning hpending hjob hverdict =>
        obtain ⟨job, hown, rfl⟩ := Option.map_eq_some_iff.mp ((hjobs _).symm.trans hjob)
        rw [hf.needOutcomes_mapJobs] at hverdict
        exact .enqueue hrunning (hready ▸ hpending) hown (hf.decide_eq job ▸ hverdict)
    | refuse hrunning hpending hjob hverdict =>
        obtain ⟨job, hown, rfl⟩ := Option.map_eq_some_iff.mp ((hjobs _).symm.trans hjob)
        rw [hf.needOutcomes_mapJobs] at hverdict
        rw [hf.completed_mapJobs, hf.refusedRecord_mapJobs]
        exact .refuse hrunning (hready ▸ hpending) hown (hf.decide_eq job ▸ hverdict)
    | start hqueue hroom hjob =>
        obtain ⟨job, hown, rfl⟩ := Option.map_eq_some_iff.mp ((hjobs _).symm.trans hjob)
        rw [hf.launched_mapJobs]
        exact .start hqueue hroom hown
    | elapse time done hflights => exact .elapse time done hflights
    | collect hflight hrecord =>
        rw [hf.recordOf?_mapJobs] at hrecord
        rw [hf.collected_mapJobs]
        exact .collect hflight hrecord
  · intro hstep
    cases hstep with
    | enqueue hrunning hpending hjob hverdict =>
        have hverdict' := (congrFun (hf.decide_eq _) _).trans hverdict
        rw [← hf.needOutcomes_mapJobs] at hverdict'
        exact .enqueue hrunning (hready.symm ▸ hpending)
          ((hjobs _).trans (congrArg (Option.map f) hjob)) hverdict'
    | refuse hrunning hpending hjob hverdict =>
        have hverdict' := (congrFun (hf.decide_eq _) _).trans hverdict
        rw [← hf.needOutcomes_mapJobs] at hverdict'
        rw [← hf.completed_mapJobs, ← hf.refusedRecord_mapJobs]
        exact .refuse hrunning (hready.symm ▸ hpending)
          ((hjobs _).trans (congrArg (Option.map f) hjob)) hverdict'
    | start hqueue hroom hjob =>
        rw [← hf.launched_mapJobs]
        exact .start hqueue hroom ((hjobs _).trans (congrArg (Option.map f) hjob))
    | elapse time done hflights => exact .elapse time done hflights
    | collect hflight hrecord =>
        rw [← hf.recordOf?_mapJobs] at hrecord
        rw [← hf.collected_mapJobs]
        exact .collect hflight hrecord

/-- The runs of the changed jobs end where the runs of the jobs do. -/
theorem ends_mapJobs_iff {last : RunState} :
    (scheduler.mapJobs f).Ends last ↔ scheduler.Ends last := by
  have hsteps : (scheduler.mapJobs f).Step = scheduler.Step := by
    funext state next
    exact propext hf.step_mapJobs_iff
  have hids : (scheduler.mapJobs f).graph.ids = scheduler.graph.ids := hf.ids_mapJobs
  have hinitial : (scheduler.mapJobs f).initial = scheduler.initial := by
    simp only [initial, mapJobs, hf.fresh_mapJobs]
  rw [Ends, Ends, Steps, Steps, hsteps, hids, hinitial]

end Unseen
end Scheduler
end CiPipeline
