import CiPipeline.Error
import CiPipeline.Job
import CiPipeline.Matrix.Reference

/-!
Expansion of a template over its matrix: one instance for each combination of axis values that no rule
excludes, the last axis changing fastest.
-/

namespace CiPipeline

namespace Matrix

/-- The variable that carries the value of an axis. -/
def variableName (axis : String) : String :=
  "MATRIX_" ++
    String.ofList (axis.toList.map fun c => if c.isAlphanum then c.toUpper else '_')

/-- The variables of a coordinate. Of axes with one variable name the last gives the value. -/
def environment (coordinate : Coordinate) : Environment :=
  .ofList (coordinate.map fun (axis, value) => (variableName axis, value))

/-- Every combination of axis values. -/
def product : List (String × List String) → List Coordinate
  | [] => [[]]
  | (axis, values) :: rest =>
    values.flatMap fun value => (product rest).map ((axis, value) :: ·)

/-- Whether an entry of a rule agrees with a coordinate: its key is an axis, which has its value there. -/
def agrees (coordinate : Coordinate) : ExclusionKey × String → Bool
  | (.axis name, value) => Table.lookup name coordinate == some value
  | (.foreign _, _) => false

/-- Whether a rule matches a coordinate: it has an entry, and each agrees with it. -/
def excludes (rule : Exclusion) (coordinate : Coordinate) : Bool :=
  !rule.entries.isEmpty && rule.entries.all (agrees coordinate)

/-- The coordinates of a template. Without axes there is one, the empty coordinate. -/
def coordinates (template : JobTemplate) : List Coordinate :=
  (product template.axes.entries).filter fun coordinate =>
    !template.exclude.any fun rule => excludes rule coordinate

/-- A step with a coordinate written into it, over the variables of the instance. -/
def resolveStep (value : String → Option String) (env : Environment) (step : Step) : Step :=
  { step with
    name := interpolate value step.name
    command := interpolate value step.command
    env := env.merge (step.env.mapValues (interpolate value)) }

/-- The instance of a template at a coordinate. -/
def instanceAt (template : JobTemplate) (coordinate : Coordinate) : JobInstance :=
  let value := fun axis => Table.lookup axis coordinate
  let env := (template.env.mapValues (interpolate value)).merge (environment coordinate)
  { id := ⟨template.name, coordinate⟩
    template := template
    steps := template.steps.map (resolveStep value env)
    env := env }

/-- The instances of a template, one for each coordinate; there must be one. -/
def expand (template : JobTemplate) : Except ConfigurationError (List JobInstance) :=
  match coordinates template with
  | [] => .error (.declaration (.emptyMatrix template.name))
  | kept => .ok (kept.map (instanceAt template))

/-- The instances of some templates, in order. -/
def expandAll : List JobTemplate → Except ConfigurationError (List JobInstance)
  | [] => .ok []
  | template :: rest => do
    let instances ← expand template
    return instances ++ (← expandAll rest)

end Matrix
end CiPipeline
