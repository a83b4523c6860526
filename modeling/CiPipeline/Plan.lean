import CiPipeline.Declaration
import CiPipeline.Graph.Build
import CiPipeline.Graph.Level
import CiPipeline.Matrix

/-!
The plan of a run: the decision about the event and the graph of the expanded jobs. A bad declaration is
refused whether or not the event would start a run.
-/

namespace CiPipeline

/-- Everything that is decided before the first job runs. -/
structure Plan where
  pipeline : Pipeline
  event : Event
  decision : TriggerDecision
  graph : Graph
  deriving DecidableEq

namespace Plan

/-- The plan of a pipeline for an event. -/
def ofPipeline (pipeline : Pipeline) (event : Event) : Except ConfigurationError Plan := do
  requireDistinct pipeline.jobNames
  let graph ← Graph.build (← Matrix.expandAll pipeline.jobs)
  return ⟨pipeline, event, pipeline.triggers.decide event, graph⟩

/-- The stages of a graph by name; without a graph there are none. -/
def stageNames (graph : Option Graph) : List (List String) :=
  (graph.map Graph.levels).getD [] |>.map (·.map InstanceId.text)

/-- The stages of the plan by name. -/
def stages (plan : Plan) : List (List String) :=
  stageNames (some plan.graph)

end Plan
end CiPipeline
