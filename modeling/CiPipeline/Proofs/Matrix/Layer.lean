import CiPipeline.Proofs.Exposure
import CiPipeline.Proofs.Matrix
import CiPipeline.Proofs.Table

/-!
From which layer a variable of a command has its value. What is declared passes two merges before it
reaches a command, and the texts of the template have their coordinate written into them once.
-/

namespace CiPipeline

namespace Matrix

/-- A declared text at a coordinate. -/
def textAt (coordinate : Coordinate) (text : String) : String :=
  interpolate (fun axis => Table.lookup axis coordinate) text

/-- The value of the last axis that has the variable. -/
def lastAxis? (coordinate : Coordinate) (key : String) : Option String :=
  (coordinate.reverse.find? fun label => variableName label.1 == key).map Prod.snd

theorem get?_environment (coordinate : Coordinate) (key : String) :
    (environment coordinate).get? key = lastAxis? coordinate key := by
  rw [environment, Table.get?_ofList, ← List.map_reverse, Table.lookup_eq_find?, List.find?_map,
    Option.map_map]
  rfl

/-- The variables of an instance are those of its coordinate, and below them those of the job. -/
theorem get?_env_instanceAt (template : JobTemplate) (coordinate : Coordinate) (key : String) :
    (instanceAt template coordinate).env.get? key =
      (lastAxis? coordinate key).or ((template.env.get? key).map (textAt coordinate)) := by
  rw [instanceAt, Table.get?_merge, get?_environment, Table.get?_mapValues]
  rfl

/-- The layers from which a declared step has its variables, the upper ones first: its secrets, its own
variables, its coordinate, the variables of its job, and what the executor inherited. -/
def layers (executor : Executor) (template : JobTemplate) (coordinate : Coordinate) (declared : Step) :
    List (String → Option String) :=
  [fun key => (declared.secrets.get? key).bind executor.secrets.value?,
    fun key => (declared.env.get? key).map (textAt coordinate),
    lastAxis? coordinate,
    fun key => (template.env.get? key).map (textAt coordinate),
    executor.baseEnv.get?]

theorem findSome?_cons_eq_or (layer : String → Option String) (below : List (String → Option String))
    (key : String) :
    (layer :: below).findSome? (fun layer => layer key) =
      (layer key).or (below.findSome? fun layer => layer key) := by
  rw [List.findSome?_cons]
  cases layer key <;> rfl

/-- A call is that of a declared step: the secrets of the step are known, and each variable has the
value of the first layer in which it is. -/
structure Reaches (executor : Executor) (template : JobTemplate) (coordinate : Coordinate)
    (declared : Step) (call : CommandCall) : Prop where
  command_eq : call.command = textAt coordinate declared.command
  known : ∀ key name, declared.secrets.get? key = some name →
    (executor.secrets.value? name).isSome = true
  get?_env : ∀ key, call.env.get? key =
    (layers executor template coordinate declared).findSome? fun layer => layer key

/-- A step is the declared one at a coordinate, and so is every call that it makes. -/
structure WrittenAt (template : JobTemplate) (coordinate : Coordinate) (declared step : Step) :
    Prop where
  name_eq : step.name = textAt coordinate declared.name
  command_eq : step.command = textAt coordinate declared.command
  cwd_eq : step.cwd = declared.cwd
  secrets_eq : step.secrets = declared.secrets
  condition_eq : step.condition = declared.condition
  timeout_eq : step.timeout = declared.timeout
  reaches : ∀ (executor : Executor) (job : JobInstance) (redactor : Redactor) (call : CommandCall),
    (executor.runStep job redactor step).1 = some call →
      Reaches executor template coordinate declared call

/-- A declared step with the coordinate and the variables of its instance. -/
def stepAt (template : JobTemplate) (coordinate : Coordinate) (declared : Step) : Step :=
  resolveStep (fun axis => Table.lookup axis coordinate) (instanceAt template coordinate).env declared

variable {executor : Executor} {template : JobTemplate} {coordinate : Coordinate} {declared : Step}
  {call : CommandCall}

theorem get?_env_stepAt (key : String) :
    (stepAt template coordinate declared).env.get? key =
      ((declared.env.get? key).map (textAt coordinate)).or
        ((lastAxis? coordinate key).or ((template.env.get? key).map (textAt coordinate))) := by
  rw [stepAt, resolveStep, Table.get?_merge, Table.get?_mapValues, get?_env_instanceAt]
  rfl

theorem reaches_of_callOf (hcall : executor.callOf (stepAt template coordinate declared) = .ok call) :
    Reaches executor template coordinate declared call := by
  have hknown : ∀ key name, declared.secrets.get? key = some name →
      (executor.secrets.value? name).isSome = true := by
    intro key name hname
    obtain ⟨secrets, hsecrets, _⟩ := Executor.of_callOf hcall
    obtain ⟨value, hvalue⟩ :=
      Executor.exists_of_resolveSecrets hsecrets (Table.get?_eq_some_iff.mp hname)
    exact Option.isSome_of_eq_some hvalue
  refine { command_eq := Executor.command_of_callOf hcall, known := hknown, get?_env := ?_ }
  intro key
  have hsecrets : (stepAt template coordinate declared).secrets = declared.secrets := rfl
  rw [Executor.get?_env_of_callOf hcall, get?_env_stepAt, hsecrets]
  simp only [layers, findSome?_cons_eq_or, List.findSome?_nil, Option.or_none, Option.or_assoc]
  cases hsecret : declared.secrets.get? key with
  | none =>
      rw [if_neg (Table.get?_eq_none_iff.mp hsecret)]
      rfl
  | some name =>
      have hmem : key ∈ declared.secrets.keys := Table.mem_keys_iff.mpr ⟨name, hsecret⟩
      obtain ⟨value, hvalue⟩ := Option.isSome_iff_exists.mp (hknown key name hsecret)
      rw [if_pos hmem, Option.bind_some, hvalue, Option.some_or]

theorem writtenAt_stepAt (template : JobTemplate) (coordinate : Coordinate) (declared : Step) :
    WrittenAt template coordinate declared (stepAt template coordinate declared) where
  name_eq := rfl
  command_eq := rfl
  cwd_eq := rfl
  secrets_eq := rfl
  condition_eq := rfl
  timeout_eq := rfl
  reaches := by
    intro executor job redactor call hcall
    rw [Executor.fst_runStep] at hcall
    exact reaches_of_callOf (toOption_eq_some_iff.mp hcall)

end Matrix

namespace Executor

variable {executor : Executor}

/-- What jobs inherit is what the executor has, less the names and the values of secrets. -/
theorem get?_baseEnv_of_protect {after : Executor} {names : List String}
    (hprotect : executor.protect names = .ok after) {key value : String} :
    after.baseEnv.get? key = some value ↔
      executor.baseEnv.get? key = some value ∧ key ∉ names ∧
        (value = "" ∨ value ∉ executor.protectedValues ∧
          ∀ name ∈ names, executor.secrets.value? name ≠ some value) := by
  obtain ⟨_, rfl⟩ := protect_eq_ok_iff.mp hprotect
  refine Environment.get?_scrub_eq_some_iff.trans ?_
  refine and_congr_right fun _ => and_congr_right fun _ => ?_
  by_cases hempty : value = ""
  · simp [hempty]
  · simp [hempty, mem_addValues_iff, List.mem_filterMap]

/-- The calls of a job are those of its begun steps, one after the other. -/
theorem exists_begun_of_run (executor : Executor) (job : JobInstance) (selected : List Selection) :
    ∃ begun : List (Step × Nat), begun.Sublist job.steps.zipIdx ∧
      (executor.run job selected).calls = begun.filterMap fun entry =>
        (executor.runStep job (executor.redactorFor selected) entry.1).1 := by
  obtain ⟨begun, hcourse⟩ := executor.exists_course_of_run job selected
  refine ⟨begun, hcourse.sublist, ?_⟩
  simp only [fst_runStep]
  exact hcourse.calls_eq

end Executor

namespace Matrix

/--
An instance is its template at a coordinate: it has the steps of the template, with the coordinate
written once into their texts and nothing else changed. A command has each variable from the first layer
in which it is, and what is inherited shows no secret.
-/
theorem commands_have_layered_variables {template : JobTemplate} {jobs : List JobInstance}
    (hexpand : expand template = .ok jobs) {job : JobInstance} (hjob : job ∈ jobs) :
    ∃ coordinate ∈ coordinates template, job.id = ⟨template.name, coordinate⟩ ∧
      job.template = template ∧
      List.Forall₂ (WrittenAt template coordinate) template.steps job.steps ∧
      ∀ executor : Executor,
        (∀ selected, ∃ begun : List (Step × Nat), begun.Sublist job.steps.zipIdx ∧
          (executor.run job selected).calls = begun.filterMap fun entry =>
            (executor.runStep job (executor.redactorFor selected) entry.1).1) ∧
        ∀ names after, executor.protect names = .ok after →
          ∀ key value, after.baseEnv.get? key = some value ↔
            executor.baseEnv.get? key = some value ∧ key ∉ names ∧
              (value = "" ∨ value ∉ executor.protectedValues ∧
                ∀ name ∈ names, executor.secrets.value? name ≠ some value) := by
  have hkept : coordinates template ≠ [] := by
    intro hnone
    cases (expand_eq_error hnone).symm.trans hexpand
  cases (expand_eq_ok hkept).symm.trans hexpand
  obtain ⟨coordinate, hcoordinate, rfl⟩ := List.mem_map.mp hjob
  refine ⟨coordinate, hcoordinate, rfl, rfl, ?_, ?_⟩
  · exact List.forall₂_map_right_iff.mpr
      (List.forall₂_same.mpr fun declared _ => writtenAt_stepAt template coordinate declared)
  · intro executor
    exact ⟨executor.exists_begun_of_run _, fun _ _ hprotect _ _ =>
      Executor.get?_baseEnv_of_protect hprotect⟩

/-- A step with a variable of its own that is also a variable of its job, and one that is also a secret. -/
def layeredStep : Step where
  name := "build"
  command := "make $\x7b\x7b matrix.os \x7d\x7d"
  env := .ofList [("TARGET", "step $\x7b\x7b matrix.a-b \x7d\x7d"), ("TOKEN", "none")]
  secrets := .ofList [("TOKEN", "DEPLOY_TOKEN")]

/-- A template with two axes of one variable, one of them with a value that reads like a reference. -/
def layeredTemplate : JobTemplate where
  name := "build"
  steps := [layeredStep]
  axes := .ofList [("a-b", ["$\x7b\x7b matrix.os \x7d\x7d"]), ("os", ["linux"]), ("a_b", ["last"])]
  env := .ofList [("MATRIX_OS", "job"), ("TARGET", "job"), ("HOST", "job $\x7b\x7b matrix.os \x7d\x7d")]

/-- The coordinate of the one instance that it has. -/
def layeredCoordinate : Coordinate :=
  [("a-b", "$\x7b\x7b matrix.os \x7d\x7d"), ("os", "linux"), ("a_b", "last")]

theorem commands_have_layered_variables_collision :
    ∃ call, (inheritingExecutor.runStep (instanceAt layeredTemplate layeredCoordinate) (.ofList [])
        (stepAt layeredTemplate layeredCoordinate layeredStep)).1 = some call ∧
      call.command = "make linux" ∧
      call.env.get? "TOKEN" = some "s3cret" ∧
      call.env.get? "TARGET" = some "step $\x7b\x7b matrix.os \x7d\x7d" ∧
      call.env.get? "MATRIX_A_B" = some "last" ∧
      call.env.get? "MATRIX_OS" = some "linux" ∧
      call.env.get? "HOST" = some "job linux" ∧
      call.env.get? "PATH" = some "/bin" ∧
      call.env.get? "HOME" = none := by
  have hexpand : expand layeredTemplate = .ok [instanceAt layeredTemplate layeredCoordinate] := rfl
  obtain ⟨coordinate, _, hid, _, hsteps, _⟩ :=
    commands_have_layered_variables hexpand List.mem_cons_self
  cases hid
  obtain ⟨hwritten, _⟩ := List.forall₂_cons.mp hsteps
  have hcall : ((inheritingExecutor.runStep (instanceAt layeredTemplate layeredCoordinate) (.ofList [])
      (stepAt layeredTemplate layeredCoordinate layeredStep)).1).isSome = true := rfl
  obtain ⟨call, hcall⟩ := Option.isSome_iff_exists.mp hcall
  have hreaches := hwritten.reaches _ _ _ call hcall
  refine ⟨call, hcall, hreaches.command_eq, ?_⟩
  simp only [hreaches.get?_env]
  decide

end Matrix
end CiPipeline
