import CiPipeline.Proofs.Completion
import CiPipeline.Proofs.Secret

/-!
Which secrets a command sees. What a step inherits is cleared of all secrets of the pipeline, by name
and by value, so a secret comes to it only with the variables that are its own. A step whose secrets
are not all known makes no call and fails.
-/

namespace CiPipeline

/-! ## The environment of a call -/

/-- The environment of a call of a step that declares its secrets: a variable with the name or the
value of one of some secrets is the step's own, and the secrets of the step are there. -/
structure Step.SeesOnlyDeclared (step : Step) (own : List String) (declared : String → Prop)
    (secrets : SecretProvider) (env : Environment) : Prop where
  by_name : ∀ name, declared name → name ∈ env.keys → name ∈ step.secrets.keys ∨ name ∈ own
  by_value : ∀ name value, declared name → secrets.value? name = some value → value ≠ "" →
    ∀ key, env.get? key = some value → key ∈ step.secrets.keys ∨ key ∈ own
  given : ∀ key name, step.secrets.get? key = some name →
    ∃ value, secrets.value? name = some value ∧ env.get? key = some value

/-- The record of a step that failed without an exit code. -/
structure StepRecord.FailsWithoutCode (record : StepRecord) (step : Step) : Prop where
  name_eq : record.name = step.name
  outcome_eq : record.outcome = .failure
  exitCode_eq : record.exitCode = none

theorem Step.SeesOnlyDeclared.mono {step : Step} {own more : List String}
    {declared fewer : String → Prop} {secrets : SecretProvider} {env : Environment}
    (hsees : step.SeesOnlyDeclared own declared secrets env) (hmore : ∀ key ∈ own, key ∈ more)
    (hfewer : ∀ name, fewer name → declared name) :
    step.SeesOnlyDeclared more fewer secrets env where
  by_name name hname hkey := (hsees.by_name name (hfewer name hname) hkey).imp_right (hmore name)
  by_value name value hname hknown hvalue key hkey :=
    (hsees.by_value name value (hfewer name hname) hknown hvalue key hkey).imp_right (hmore key)
  given := hsees.given

theorem Environment.get?_scrub_eq_some_iff {environment : Environment} {values names : List String}
    {key value : String} :
    (environment.scrub values names).get? key = some value ↔
      environment.get? key = some value ∧ key ∉ names ∧ (value = "" ∨ value ∉ values) := by
  rw [scrub, Table.get?_filter, Option.filter_eq_some_iff]
  simp only [Bool.not_eq_true', Bool.or_eq_false_iff, Bool.and_eq_false_iff, List.contains_eq_mem,
    decide_eq_false_iff_not, Bool.not_eq_false', String.isEmpty_iff]

namespace Executor

variable {executor : Executor} {names : List String} {step : Step} {call : CommandCall}

/-- What is inherited has neither the name nor the value of a protected secret. -/
theorem of_get?_baseEnv_guarding {key value : String}
    (hinherited : (executor.guarding names).baseEnv.get? key = some value) :
    key ∉ names ∧ ∀ name ∈ names, executor.secrets.value? name = some value → value = "" := by
  obtain ⟨_, hname, hvalue⟩ := Environment.get?_scrub_eq_some_iff.mp hinherited
  refine ⟨hname, ?_⟩
  intro name hprotected hknown
  by_contra hsome
  exact hvalue.resolve_left hsome (mem_addValues_iff.mpr
    (Or.inr ⟨List.mem_filterMap.mpr ⟨name, hprotected, hknown⟩, hsome⟩))

/-- Secrets are resolved where all of them are known. -/
theorem resolveSecrets_eq_ok_iff {provider : SecretProvider}
    {entries values : List (String × String)} :
    resolveSecrets provider entries = .ok values ↔
      entries.map (fun entry => (entry.1, provider.value? entry.2)) =
        values.map fun value => (value.1, some value.2) := by
  induction entries generalizing values with
  | nil => simp [resolveSecrets]
  | cons entry rest ih =>
      rw [resolveSecrets, bind_eq_ok_iff, List.map_cons, eq_comm, List.map_eq_cons_iff]
      constructor
      · rintro ⟨value, hvalue, hrest⟩
        obtain ⟨more, hmore, hreturn⟩ := bind_eq_ok_iff.mp hrest
        cases hreturn
        rw [SecretProvider.get_eq_ok_iff] at hvalue
        exact ⟨(entry.1, value), more, rfl, by rw [hvalue], (ih.mp hmore).symm⟩
      · rintro ⟨⟨key, value⟩, more, rfl, hentry, hmore⟩
        obtain ⟨rfl, hvalue⟩ := Prod.mk.inj hentry
        refine ⟨value, SecretProvider.get_eq_ok_iff.mpr hvalue.symm, ?_⟩
        rw [ih.mpr hmore.symm]
        rfl

theorem exists_of_resolveSecrets {provider : SecretProvider}
    {entries values : List (String × String)} (hvalues : resolveSecrets provider entries = .ok values)
    {entry : String × String} (hentry : entry ∈ entries) :
    ∃ value, provider.value? entry.2 = some value := by
  have hmem : (entry.1, provider.value? entry.2) ∈ values.map fun value => (value.1, some value.2) := by
    rw [← resolveSecrets_eq_ok_iff.mp hvalues]
    exact List.mem_map_of_mem (f := fun own => (own.1, provider.value? own.2)) hentry
  obtain ⟨value, _, heq⟩ := List.mem_map.mp hmem
  exact ⟨value.2, (Prod.mk.inj heq).2.symm⟩

theorem of_callOf (hcall : executor.callOf step = .ok call) :
    ∃ secrets, resolveSecrets executor.secrets step.secrets.entries = .ok secrets ∧
      call.env = (executor.baseEnv.merge step.env).insertAll secrets := by
  obtain ⟨secrets, hsecrets, hcall⟩ := bind_eq_ok_iff.mp hcall
  obtain ⟨_, _, hreturn⟩ := bind_eq_ok_iff.mp hcall
  cases hreturn
  exact ⟨secrets, mapError_eq_ok_iff.mp hsecrets, rfl⟩

theorem command_of_callOf (hcall : executor.callOf step = .ok call) : call.command = step.command := by
  obtain ⟨_, _, hcall⟩ := bind_eq_ok_iff.mp hcall
  obtain ⟨_, _, hreturn⟩ := bind_eq_ok_iff.mp hcall
  cases hreturn
  rfl

/-- The secrets of a step come over its own variables, and these over what is inherited. -/
theorem get?_env_of_callOf (hcall : executor.callOf step = .ok call) (key : String) :
    call.env.get? key =
      if key ∈ step.secrets.keys then (step.secrets.get? key).bind executor.secrets.value?
      else (step.env.get? key).or (executor.baseEnv.get? key) := by
  obtain ⟨secrets, hsecrets, henv⟩ := of_callOf hcall
  have hresolved := resolveSecrets_eq_ok_iff.mp hsecrets
  have hkeys := congrArg (List.map Prod.fst) hresolved
  simp only [List.map_map, Function.comp_def] at hkeys
  let resolved : String → Option String := fun key =>
    (step.secrets.get? key).bind executor.secrets.value?
  have hvalues : ∀ entry ∈ secrets, resolved entry.1 = some entry.2 := by
    intro entry hentry
    have hmem : (entry.1, some entry.2) ∈
        step.secrets.entries.map fun own => (own.1, executor.secrets.value? own.2) := by
      rw [hresolved]
      exact List.mem_map_of_mem (f := fun value => (value.1, some value.2)) hentry
    obtain ⟨own, hown, heq⟩ := List.mem_map.mp hmem
    obtain ⟨hkey, hvalue⟩ := Prod.mk.inj heq
    simp only [resolved]
    rw [← hkey, Table.get?_eq_some_iff.mpr hown]
    exact hvalue
  rw [henv, Table.get?_insertAll_of_forall hvalues, Table.get?_merge]
  exact if_congr (iff_of_eq (congrArg (key ∈ ·) hkeys.symm)) rfl rfl

theorem seesOnlyDeclared_of_callOf (hcall : (executor.guarding names).callOf step = .ok call) :
    step.SeesOnlyDeclared step.env.keys (· ∈ names) executor.secrets call.env := by
  have hget := get?_env_of_callOf hcall
  -- a variable that the step has not of its own is inherited
  have hinherited : ∀ key value, call.env.get? key = some value → key ∉ step.secrets.keys →
      key ∉ step.env.keys → (executor.guarding names).baseEnv.get? key = some value := by
    intro key value hvalue hsecret hown
    rw [hget, if_neg hsecret, Table.get?_eq_none_iff.mpr hown, Option.none_or] at hvalue
    exact hvalue
  constructor
  · intro name hname hkey
    obtain ⟨value, hvalue⟩ := Table.mem_keys_iff.mp hkey
    by_contra hforeign
    rw [not_or] at hforeign
    exact (of_get?_baseEnv_guarding (hinherited name value hvalue hforeign.1 hforeign.2)).1 hname
  · intro name value hname hknown hsome key hvalue
    by_contra hforeign
    rw [not_or] at hforeign
    exact hsome ((of_get?_baseEnv_guarding
      (hinherited key value hvalue hforeign.1 hforeign.2)).2 name hname hknown)
  · intro key name hname
    obtain ⟨_, hsecrets, _⟩ := of_callOf hcall
    obtain ⟨value, hknown⟩ := exists_of_resolveSecrets hsecrets (Table.get?_eq_some_iff.mp hname)
    refine ⟨value, hknown, ?_⟩
    rw [hget, if_pos (Table.mem_keys_iff.mpr ⟨name, hname⟩), hname]
    exact hknown

/-- A step whose secrets can be looked up makes no call if one of them is not known. -/
theorem callOf_of_unknown (hanswers : executor.secrets.Answers step.secrets.values) {name : String}
    (hname : name ∈ step.secrets.values) (hunknown : executor.secrets.value? name = none) :
    ∃ text, executor.callOf step = .error (.complaint text) := by
  unfold callOf
  cases hsecrets : resolveSecrets executor.secrets step.secrets.entries with
  | error error =>
      cases error with
      | missing other => exact ⟨_, rfl⟩
      | crashed crash =>
          obtain ⟨other, hother, hget⟩ := exists_error_of_resolveSecrets hsecrets
          obtain ⟨known, hknown⟩ := hanswers other hother
          cases hknown.symm.trans (SecretProvider.get_eq_crashed_iff.mp hget)
  | ok secrets =>
      obtain ⟨entry, hentry, rfl⟩ := List.mem_map.mp hname
      obtain ⟨value, hknown⟩ := exists_of_resolveSecrets hsecrets hentry
      cases hunknown.symm.trans hknown

theorem runStep_of_unknown (job : JobInstance) (redactor : Redactor)
    (hanswers : executor.secrets.Answers step.secrets.values) {name : String}
    (hname : name ∈ step.secrets.values) (hunknown : executor.secrets.value? name = none) :
    ∃ record, (executor.runStep job redactor step).2 = .ok record ∧
      record.FailsWithoutCode step := by
  obtain ⟨text, hcall⟩ := callOf_of_unknown hanswers hname hunknown
  refine ⟨executor.failedRecord job redactor step none text "", ?_, rfl, rfl, rfl⟩
  rw [runStep, hcall]

/-! ## The steps of a job -/

theorem fst_runStep (executor : Executor) (job : JobInstance) (redactor : Redactor) (step : Step) :
    (executor.runStep job redactor step).1 = (executor.callOf step).toOption := by
  unfold runStep
  split
  · next hcall => rw [hcall]; rfl
  · next hcall => rw [hcall]; rfl
  · next hcall => rw [hcall]; rfl

/-- How some steps were run of which these were begun: the begun ones make their calls one after the
other and have the records that come of this, and none has failed if the run was broken off. -/
structure StepsRun.Course (run : StepsRun) (executor : Executor) (job : JobInstance)
    (redactor : Redactor) (steps begun : List (Step × Nat)) : Prop where
  sublist : begun.Sublist steps
  begun_eq : run.begun = begun.map fun entry => entry.1.name
  calls_eq : run.calls = begun.filterMap fun entry => (executor.callOf entry.1).toOption
  recorded : ∀ records, run.result = .ok records → ∀ entry ∈ begun, ∃ record,
    (entry, record) ∈ steps.zip records ∧
      (executor.runStep job redactor entry.1).2 = .ok record
  aborted : ∀ abort, run.result = .error abort → ∀ entry ∈ begun, ∀ record,
    (executor.runStep job redactor entry.1).2 = .ok record → record.outcome ≠ .failure

namespace StepsRun.Course

variable {job : JobInstance} {redactor : Redactor} {run : StepsRun}
  {steps begun : List (Step × Nat)} {record : StepRecord}

theorem skip (hrun : run.Course executor job redactor steps begun) (entry : Step × Nat)
    (record : StepRecord) :
    (run.withRecord record).Course executor job redactor (entry :: steps) begun where
  sublist := hrun.sublist.cons entry
  begun_eq := hrun.begun_eq
  calls_eq := hrun.calls_eq
  recorded := by
    intro records hresult own hown
    obtain ⟨rest, hrest, rfl⟩ := map_eq_ok_iff.mp hresult
    obtain ⟨other, hother, hstep⟩ := hrun.recorded rest hrest own hown
    exact ⟨other, List.mem_cons_of_mem _ hother, hstep⟩
  aborted := by
    intro abort hresult
    exact hrun.aborted abort (map_eq_error_iff.mp hresult)

/-- A step that comes to a record goes before the others; these may be broken off unless it failed. -/
theorem cons (hrun : run.Course executor job redactor steps begun) (entry : Step × Nat)
    (hrecord : (executor.runStep job redactor entry.1).2 = .ok record)
    (hfailed : record.outcome = .failure → ∃ records, run.result = .ok records) :
    StepsRun.Course ⟨entry.1.name :: run.begun,
      (executor.runStep job redactor entry.1).1.toList ++ run.calls,
      run.result.map (record :: ·)⟩ executor job redactor (entry :: steps) (entry :: begun) where
  sublist := hrun.sublist.cons_cons entry
  begun_eq := by rw [List.map_cons, hrun.begun_eq]
  calls_eq := by
    rw [hrun.calls_eq, fst_runStep, List.filterMap_cons]
    cases (executor.callOf entry.1).toOption <;> rfl
  recorded := by
    intro records hresult own hown
    obtain ⟨rest, hrest, rfl⟩ := map_eq_ok_iff.mp hresult
    rcases List.mem_cons.mp hown with rfl | hown
    · exact ⟨record, List.mem_cons_self, hrecord⟩
    · obtain ⟨other, hother, hstep⟩ := hrun.recorded rest hrest own hown
      exact ⟨other, List.mem_cons_of_mem _ hother, hstep⟩
  aborted := by
    intro abort hresult own hown other hother
    have hrest := map_eq_error_iff.mp hresult
    rcases List.mem_cons.mp hown with rfl | hown
    · cases hrecord.symm.trans hother
      intro hfailure
      obtain ⟨records, hrecords⟩ := hfailed hfailure
      cases hrest.symm.trans hrecords
    · exact hrun.aborted abort hrest own hown other hother

/-- A step that comes to no record is the last. -/
theorem last (entry : Step × Nat) {abort : Abort}
    (habort : (executor.runStep job redactor entry.1).2 = .error abort) :
    StepsRun.Course ⟨[entry.1.name], (executor.runStep job redactor entry.1).1.toList,
      .error abort⟩ executor job redactor (entry :: steps) [entry] where
  sublist := List.singleton_sublist.mpr List.mem_cons_self
  begun_eq := rfl
  calls_eq := by
    rw [fst_runStep, List.filterMap_cons]
    cases (executor.callOf entry.1).toOption <;> rfl
  recorded := by
    rintro records ⟨⟩
  aborted := by
    intro _ _ own hown other hother
    rw [List.mem_singleton.mp hown, habort] at hother
    cases hother

end StepsRun.Course

/-- After a failure nothing is run that could break the run off. -/
theorem exists_records_of_failed (executor : Executor) (job : JobInstance) (redactor : Redactor)
    (selected : List Selection) (steps : List (Step × Nat)) :
    ∃ records,
      (runSteps (fun _ => executor) job redactor selected true steps).result = .ok records := by
  induction steps generalizing selected with
  | nil => exact ⟨[], rfl⟩
  | cons entry rest ih =>
      simp only [runSteps, if_true]
      split
      · obtain ⟨records, hrecords⟩ := ih selected
        exact ⟨_, map_eq_ok_iff.mpr ⟨records, hrecords, rfl⟩⟩
      · obtain ⟨records, hrecords⟩ := ih (selected.eraseP (Selection.fits entry.1 entry.2))
        exact ⟨_, map_eq_ok_iff.mpr ⟨records, hrecords, rfl⟩⟩

theorem runSteps_course (executor : Executor) (job : JobInstance) (redactor : Redactor)
    (selected : List Selection) (failed : Bool) (steps : List (Step × Nat)) :
    ∃ begun, (runSteps (fun _ => executor) job redactor selected failed steps).Course executor job
      redactor steps begun := by
  induction steps generalizing selected failed with
  | nil => exact ⟨[], .slnil, rfl, rfl, by simp, by simp⟩
  | cons entry rest ih =>
      obtain ⟨step, place⟩ := entry
      simp only [runSteps]
      split
      · obtain ⟨begun, hrest⟩ := ih selected failed
        exact ⟨begun, hrest.skip _ _⟩
      · split
        · obtain ⟨begun, hrest⟩ := ih (selected.eraseP (Selection.fits step place)) failed
          exact ⟨begun, hrest.skip _ _⟩
        · cases hresult : (executor.runStep job redactor step).2 with
          | error abort => exact ⟨_, .last (step, place) hresult⟩
          | ok record =>
              obtain ⟨begun, hrest⟩ := ih (selected.eraseP (Selection.fits step place))
                (record.outcome == .failure)
              refine ⟨_, hrest.cons (step, place) hresult ?_⟩
              intro hfailure
              rw [hfailure]
              exact exists_records_of_failed executor job redactor _ rest

theorem getElem?_of_mem_zip_zipIdx {steps : List Step} {records : List StepRecord}
    {entry : Step × Nat} {record : StepRecord} (hmem : (entry, record) ∈ steps.zipIdx.zip records) :
    records[entry.2]? = some record := by
  obtain ⟨place, hplace⟩ := List.mem_iff_getElem?.mp hmem
  obtain ⟨hentry, hrecord⟩ := List.getElem?_zip_eq_some.mp hplace
  rw [List.getElem?_zipIdx, Option.map_eq_some_iff] at hentry
  obtain ⟨step, _, rfl⟩ := hentry
  simpa using hrecord

end Executor

/-- How a job was executed of which these steps were begun: a step with a secret that is not known has
a record, and so has the job, if the secrets of the step can be looked up. -/
structure JobRun.Course (run : JobRun) (executor : Executor) (job : JobInstance)
    (begun : List (Step × Nat)) : Prop where
  sublist : begun.Sublist job.steps.zipIdx
  begun_eq : run.begun = begun.map fun entry => entry.1.name
  calls_eq : run.calls = begun.filterMap fun entry => (executor.callOf entry.1).toOption
  unknown : ∀ entry ∈ begun, executor.secrets.Answers entry.1.secrets.values →
    ∀ name ∈ entry.1.secrets.values, executor.secrets.value? name = none →
    ∃ record own, run.result = .ok record ∧ record.steps[entry.2]? = some own ∧
      own.FailsWithoutCode entry.1

theorem Executor.exists_course_of_run (executor : Executor) (job : JobInstance)
    (selected : List Selection) : ∃ begun, (executor.run job selected).Course executor job begun := by
  rcases executor.run_cases job selected with ⟨_, _, hrun⟩ | ⟨_, hrun⟩
  · rw [hrun]
    exact ⟨[], List.nil_sublist _, rfl, rfl, by simp⟩
  · obtain ⟨begun, hsteps⟩ := executor.runSteps_course job (executor.redactorFor selected) selected
      false job.steps.zipIdx
    rw [hrun]
    refine ⟨begun, hsteps.sublist, hsteps.begun_eq, hsteps.calls_eq, ?_⟩
    intro entry hentry hanswers name hname hunknown
    obtain ⟨own, hown, hfails⟩ :=
      Executor.runStep_of_unknown job (executor.redactorFor selected) hanswers hname hunknown
    cases hresult : (runSteps (fun _ => executor) job (executor.redactorFor selected) selected false
        job.steps.zipIdx).result with
    | error abort =>
        exact absurd hfails.outcome_eq (hsteps.aborted abort hresult entry hentry own hown)
    | ok records =>
        obtain ⟨record, hrecord, hstep⟩ := hsteps.recorded records hresult entry hentry
        cases hown.symm.trans hstep
        exact ⟨_, own, map_eq_ok_iff.mpr ⟨records, hresult, rfl⟩,
          Executor.getElem?_of_mem_zip_zipIdx hrecord, hfails⟩

/-! ## A run -/

/-- A step that was begun, and its place among the steps of its job. -/
structure Attempt where
  job : JobInstance
  place : Nat
  step : Step

/-- The variables that the step at a place has of its own: those of the job, of its coordinate and of
the step as it was declared. -/
def JobInstance.ownVariables (job : JobInstance) (place : Nat) : List String :=
  job.template.env.keys ++ job.id.coordinate.map (fun entry => Matrix.variableName entry.1) ++
    ((job.template.steps[place]?).map fun step => step.env.keys).getD []

/-- A step of the pipeline asks for the secret. -/
def Pipeline.NamesSecret (pipeline : Pipeline) (name : String) : Prop :=
  ∃ job ∈ pipeline.jobs, ∃ step ∈ job.steps, name ∈ step.secrets.values

/-- A begun step is one of a job of the pipeline. If it makes a call, this sees of all secrets of the
pipeline only what the step declares. If one of its own secrets is not known it makes none, and the
report tells of its failure. -/
structure Attempt.Confined (attempt : Attempt) (pipeline : Pipeline) (executor : Executor)
    (report : Except RunError RunReport) : Prop where
  job_mem : attempt.job ∈ Matrix.instances pipeline.jobs
  step_eq : attempt.job.steps[attempt.place]? = some attempt.step
  sees : ∀ call, executor.callOf attempt.step = .ok call →
    attempt.step.SeesOnlyDeclared (attempt.job.ownVariables attempt.place) pipeline.NamesSecret
      executor.secrets call.env
  unknown : ∀ name ∈ attempt.step.secrets.values, executor.secrets.value? name = none →
    (∀ call, executor.callOf attempt.step ≠ .ok call) ∧
      ∀ own, report = .ok own → ∃ record stepRecord,
        own.jobs.get? attempt.job.id = some record ∧
          record.steps[attempt.place]? = some stepRecord ∧
          stepRecord.FailsWithoutCode attempt.step

/-- The step that a notice tells the beginning of. -/
def Notice.stepBegun? : Notice → Option (InstanceId × String)
  | .stepBegun id step => some (id, step)
  | _ => none

/-- All calls of a run are those of the steps that were begun, in this order, and no step sees a secret
that it does not declare. -/
def RunResult.Confines (result : RunResult) (pipeline : Pipeline) (executor : Executor) : Prop :=
  ∃ attempts : List Attempt,
    (result.log.filterMap Notice.stepBegun? =
      attempts.map fun attempt => (attempt.job.id, attempt.step.name)) ∧
    (result.calls = attempts.filterMap fun attempt => (executor.callOf attempt.step).toOption) ∧
    ∀ attempt ∈ attempts, attempt.Confined pipeline executor result.report

theorem mem_ownVariables_iff {templates : List JobTemplate} {job : JobInstance}
    (hjob : job ∈ Matrix.instances templates) {place : Nat} {step : Step}
    (hstep : job.steps[place]? = some step) {key : String} :
    key ∈ job.ownVariables place ↔ key ∈ step.env.keys := by
  obtain ⟨template, _, coordinate, _, rfl⟩ := Matrix.mem_instances_iff.mp hjob
  rw [Matrix.instanceAt, List.getElem?_map, Option.map_eq_some_iff] at hstep
  obtain ⟨declared, hdeclared, rfl⟩ := hstep
  simp only [JobInstance.ownVariables, Matrix.instanceAt, Matrix.resolveStep, Matrix.environment,
    Table.mem_keys_merge_iff, Table.mem_keys_ofList_iff, Table.keys_mapValues, hdeclared,
    List.mem_append, List.map_map, Option.map_some, Option.getD_some, Function.comp_def]

/-- The begun steps are those of the launches, in the order of the launches. -/
theorem Scheduler.Logged.stepsBegun_eq {scheduler : Scheduler} {launches : List Launch}
    {state : RunState} (hlogged : scheduler.Logged launches state) :
    state.log.filterMap Notice.stepBegun? = launches.flatMap fun launch =>
      (scheduler.execute launch.job launch.steps).begun.map (launch.job.id, ·) := by
  rw [hlogged.filterMap_log]
  · congr 1
    funext launch
    simp [Scheduler.launchNotices, Scheduler.workNotices, List.filterMap_cons, List.filterMap_map,
      Notice.stepBegun?, Function.comp_def]
  · rintro (_ | _ | _ | _ | _) hwork
    all_goals first | rfl | cases hwork

/-- When everything has ended, a record that came of a launch is the record of its instance. -/
theorem Scheduler.Logged.get?_records {scheduler : Scheduler} {launches : List Launch}
    {last : RunState} (hlogged : scheduler.Logged launches last)
    (hgraph : scheduler.graph.WellFormed) (hown : OwnRecords scheduler.execute)
    (hends : scheduler.Ends last) {launch : Launch} (hlaunch : launch ∈ launches)
    {record : JobRecord} (hresult : (scheduler.execute launch.job launch.steps).result = .ok record) :
    last.records.get? launch.job.id = some record := by
  have hlast := Steps.coherent_of_initial hgraph hown hends.1
  obtain ⟨flight, hid, hflight, hwhere⟩ := hlogged.flown launch hlaunch
  rcases hwhere with hflying | ⟨own, hrecord, hbooked⟩
  · have hrunning := hlast.running_of_mem hflying
    obtain ⟨outcome, hended⟩ := hends.2 flight.id (hlast.mem_keys hrunning)
    cases hrunning.symm.trans hended
  · rw [Scheduler.recordOf?, hflight, hresult] at hrecord
    cases hrecord
    rw [← hid]
    exact hbooked

variable {pipeline : Pipeline} {event : Event} {settings : Settings} {executor : Executor}
  {duration : InstanceId → Nat}

theorem Pipeline.Leaves.confines {result : RunResult}
    (hleaves : pipeline.Leaves event settings executor duration result) :
    result.Confines pipeline (executor.guarding pipeline.secretNames) := by
  cases hleaves with
  | nothing hlog _ =>
      exact ⟨[], by rw [hlog]; rfl, RunResult.calls_eq_nil hlog, by simp⟩
  | @work plan scheduler last hplan hanswers hscheduler hsteps hlog hjobs =>
      obtain ⟨hgraph, _, hexecute, _⟩ := Plan.of_scheduler?_eq_some hscheduler
      obtain ⟨hwellFormed, hown⟩ := Plan.lawful_of_scheduler?_eq_some hplan hscheduler
      obtain ⟨launches, hlogged⟩ := hsteps.logged hwellFormed hown
      choose begun hbegun using fun launch : Launch =>
        (executor.guarding pipeline.secretNames).exists_course_of_run launch.job launch.steps
      rw [← hexecute] at hbegun
      let attempts (launch : Launch) : List Attempt :=
        (begun launch).map fun entry => ⟨launch.job, entry.2, entry.1⟩
      refine ⟨launches.flatMap attempts, ?_, ?_, ?_⟩
      · rw [hlog, hlogged.stepsBegun_eq, List.map_flatMap]
        congr 1
        funext launch
        rw [(hbegun launch).begun_eq, List.map_map, List.map_map]
        rfl
      · have hcalls : result.calls = last.calls := by
          rw [RunResult.calls, hlog]
          rfl
        rw [hcalls, hlogged.calls_eq, List.filterMap_flatMap]
        congr 1
        funext launch
        rw [(hbegun launch).calls_eq, List.filterMap_map]
        rfl
      · intro attempt hattempt
        obtain ⟨launch, hlaunch, hattempt⟩ := List.mem_flatMap.mp hattempt
        obtain ⟨entry, hentry, rfl⟩ := List.mem_map.mp hattempt
        have hjob : launch.job ∈ Matrix.instances pipeline.jobs :=
          Plan.mem_instances_of_job? hplan (hgraph ▸ hlogged.job?_eq launch hlaunch)
        have hstep : launch.job.steps[entry.2]? = some entry.1 :=
          List.mem_zipIdx_iff_getElem?.mp ((hbegun launch).sublist.mem hentry)
        refine ⟨hjob, hstep, ?_, ?_⟩
        · intro call hcall
          exact (Executor.seesOnlyDeclared_of_callOf hcall).mono
            (fun key => (mem_ownVariables_iff hjob hstep).mpr)
            fun name => Pipeline.mem_secretNames_iff.mpr
        · intro name hname hunknown
          have hknown : (executor.guarding pipeline.secretNames).secrets.Answers
              entry.1.secrets.values :=
            Pipeline.answers_of_mem_instances hanswers hjob (List.mem_of_getElem? hstep)
          obtain ⟨text, hrefused⟩ := Executor.callOf_of_unknown hknown hname hunknown
          refine ⟨by simp [hrefused], ?_⟩
          intro report hreport
          obtain ⟨record, own, hresult, hown', hfails⟩ :=
            (hbegun launch).unknown entry hentry hknown name hname hunknown
          obtain ⟨hends, hjobs⟩ := hjobs report hreport
          refine ⟨record, own, ?_, hown', hfails⟩
          rw [hjobs, Records.get?_ordered]
          exact hlogged.get?_records hwellFormed hown hends hlaunch hresult

/-- A command sees only the secrets that its step declares, in every run of every pipeline, whatever
the executor has inherited or was told to protect before: a variable of its environment has the name
or the value of a secret of the pipeline only if it is one of the step's own, and the secrets of the
step are there. A step with a secret that is not known runs no command and fails. -/
theorem commands_see_only_declared_secrets (pipeline : Pipeline) (event : Event)
    (settings : Settings) (executor : Executor) (duration : InstanceId → Nat) :
    (pipeline.run event settings executor duration).Confines pipeline
        (executor.guarding pipeline.secretNames) ∧
      ∀ log report, pipeline.Yields event settings executor duration log report →
        RunResult.Confines { log := log, report := .ok report } pipeline
          (executor.guarding pipeline.secretNames) :=
  ⟨(Pipeline.run_leaves pipeline event settings executor duration).confines,
    fun _ _ hyields => (hyields.leaves rfl rfl).confines⟩

/-- A pipeline with a job that declares no secret and a job that declares a token. -/
def deployPipeline : Pipeline where
  name := "deploy"
  triggers := { manual := true }
  jobs := [
    { name := "lint", steps := [{ name := "lint", command := "make lint" }] },
    { name := "push", steps := [
      { name := "push", command := "make push", secrets := .ofList [("TOKEN", "DEPLOY_TOKEN")] }] }]

/-- An executor that inherits the token under its own name and under another one. -/
def inheritingExecutor : Executor where
  secrets := .ofTable (.ofList [("DEPLOY_TOKEN", "s3cret")])
  runner := fun _ => .exited 0 ""
  directories := Workspace.directories { root := [], isDirectory := fun _ => true }
  baseEnv := .ofList [("PATH", "/bin"), ("DEPLOY_TOKEN", "s3cret"), ("COPY", "s3cret")]
  now := ⟨0⟩

theorem commands_see_only_declared_secrets_deploy :
    ∀ call ∈ (deployPipeline.run { kind := .manual, ref := "main" } {} inheritingExecutor
        fun _ => 1).calls,
      "DEPLOY_TOKEN" ∉ call.env.keys ∧
        ∀ key, call.env.get? key = some "s3cret" → key = "TOKEN" := by
  obtain ⟨attempts, _, hcalls, hconfined⟩ := (commands_see_only_declared_secrets deployPipeline
    { kind := .manual, ref := "main" } {} inheritingExecutor fun _ => 1).1
  have hnamed : deployPipeline.NamesSecret "DEPLOY_TOKEN" := by
    rw [Pipeline.NamesSecret]
    decide
  have hown : ∀ job ∈ Matrix.instances deployPipeline.jobs, ∀ step ∈ job.steps,
      step.env.keys = [] ∧ (step.secrets.keys = [] ∨ step.secrets.keys = ["TOKEN"]) := by
    decide
  intro call hcall
  rw [hcalls] at hcall
  obtain ⟨attempt, hattempt, hmade⟩ := List.mem_filterMap.mp hcall
  have hattempted := hconfined attempt hattempt
  have hsees := hattempted.sees call (toOption_eq_some_iff.mp hmade)
  obtain ⟨henv, hsecrets⟩ := hown attempt.job hattempted.job_mem attempt.step
    (List.mem_of_getElem? hattempted.step_eq)
  have honly : ∀ key, key ∈ attempt.step.secrets.keys ∨
      key ∈ attempt.job.ownVariables attempt.place → key = "TOKEN" := by
    intro key hkey
    rw [mem_ownVariables_iff hattempted.job_mem hattempted.step_eq, henv] at hkey
    rcases hsecrets with hnone | htoken
    · simp [hnone] at hkey
    · simpa [htoken] using hkey
  constructor
  · intro hkey
    exact absurd (honly _ (hsees.by_name _ hnamed hkey)) (by decide)
  · intro key hvalue
    exact honly key (hsees.by_value _ _ hnamed rfl (by decide) key hvalue)

end CiPipeline
