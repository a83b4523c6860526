import CiPipeline.Error
import CiPipeline.Job

/-!
The graph of job instances: each instance with the instances that it waits for. A template that needs
another one makes each of its instances wait for every instance of the other.
-/

namespace CiPipeline

/-- An instance with the instances that it waits for, without repetition and in their order. -/
structure GraphNode where
  job : JobInstance
  needs : List InstanceId
  deriving DecidableEq

/-- The identity of the instance of a node. -/
def GraphNode.id (node : GraphNode) : InstanceId :=
  node.job.id

/-- Instances in the order of their declaration, each with what it waits for. -/
structure Graph where
  nodes : List GraphNode
  deriving DecidableEq

namespace Graph

/-- The identities of the instances, in the order of declaration. -/
def ids (graph : Graph) : List InstanceId :=
  graph.nodes.map GraphNode.id

/-- The node of an instance. -/
def node? (graph : Graph) (id : InstanceId) : Option GraphNode :=
  graph.nodes.find? fun node => node.id == id

/-- The instance with an identity. -/
def job? (graph : Graph) (id : InstanceId) : Option JobInstance :=
  (graph.node? id).map GraphNode.job

/-- The instances that an instance waits for. -/
def dependencies (graph : Graph) (id : InstanceId) : List InstanceId :=
  ((graph.node? id).map GraphNode.needs).getD []

/-- The instances that wait for an instance, in their order. -/
def dependents (graph : Graph) (id : InstanceId) : List InstanceId :=
  InstanceId.sorted ((graph.nodes.filter fun node => node.needs.contains id).map GraphNode.id)

/-- Whether an instance runs only after success of all that it waits for. -/
def isStrict (graph : Graph) (id : InstanceId) : Bool :=
  match graph.job? id with
  | some job => Condition.requiresSuccess job.condition
  | none => false

end Graph
end CiPipeline
