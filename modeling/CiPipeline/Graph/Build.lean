import CiPipeline.Graph.Cycle

/-!
Building the graph of some instances. Repeated identities, needs that name no job and cycles are all
found before there is a graph, so nothing is ever dispatched from a bad declaration.
-/

namespace CiPipeline.Graph

/-- The names of the templates of some instances, each once. -/
def templateNames (jobs : List JobInstance) : List String :=
  (jobs.map fun job => job.id.template).eraseDups

/-- The instances of a template. -/
def instancesOf (jobs : List JobInstance) (template : String) : List InstanceId :=
  (jobs.map JobInstance.id).filter fun id => id.template == template

/-- The instances that an instance waits for, given the names of the templates it needs. -/
def resolveNeeds (jobs : List JobInstance) (template : String) :
    List String → Except ConfigurationError (List InstanceId)
  | [] => .ok []
  | need :: rest => do
    let known := templateNames jobs
    if !known.contains need then throw (.unknownNeed template need known)
    return instancesOf jobs need ++ (← resolveNeeds jobs template rest)

/-- The nodes of some instances. -/
def resolveNodes (jobs : List JobInstance) (needsOf : JobInstance → List String) :
    List JobInstance → Except ConfigurationError (List GraphNode)
  | [] => .ok []
  | job :: rest => do
    let needs ← resolveNeeds jobs job.id.template (needsOf job)
    return ⟨job, InstanceId.sorted needs.eraseDups⟩ :: (← resolveNodes jobs needsOf rest)

/-- The needs of an instance: those of its template, or those of a given table of templates. -/
def declaredNeeds (needs : Option (Table String (List String))) (job : JobInstance) : List String :=
  match needs with
  | none => job.template.needs
  | some table => (table.get? job.id.template).getD []

/-- The graph of some instances. A given table of needs replaces those of the templates. -/
def build (jobs : List JobInstance) (needs : Option (Table String (List String)) := none) :
    Except ConfigurationError Graph := do
  let ids := jobs.map JobInstance.id
  if !decide ids.Nodup then
    let repeated := ids.filter fun id => 1 < ids.count id
    throw (.duplicateJobs (Text.sortedSet (repeated.map InstanceId.text)))
  let graph : Graph := ⟨← resolveNodes jobs (declaredNeeds needs) jobs⟩
  match findCycle ids graph.dependencies with
  | some cycle => throw (.cycle cycle)
  | none => return graph

end CiPipeline.Graph
