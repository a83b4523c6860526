import CiPipeline.Proofs.Execution.UntilFailure
import CiPipeline.Proofs.Redaction
import CiPipeline.Proofs.Table

/-!
What is stored of the outputs of a job. All that was captured of a step is masked first and cut to its
end after that, so no cut leaves a part of a secret that masking would not know. The redactor has the
secrets of every selected step before the first of them runs, and no step adds one to it.
-/

namespace CiPipeline

/-- What was captured of the output of a command, whatever came of it. -/
def CommandResult.captured : CommandResult → String
  | exited _ output => output
  | timedOut capture => capture.read
  | refused _ _ | crashed _ | interrupted => ""

/-- The end of a text, of as many characters as a limit allows; zero allows all of them. -/
structure Text.IsEnd (limit : Int) (whole part : String) : Prop where
  suffix : part.toList <:+ whole.toList
  length_eq : (part.toList.length : Int) =
    if limit = 0 then (whole.toList.length : Int) else min limit whole.toList.length

/-- A selected step is one of the job, at the place that is said. -/
def Selection.IsPlaced (selection : Selection) (job : JobInstance) : Prop :=
  ∀ place, selection.place = some place → job.steps[place]? = some selection.step

theorem trimToLimit_isEnd {limit : Int} (hlimit : 0 ≤ limit) (text : String) :
    Text.IsEnd limit text (trimToLimit limit text) where
  suffix := trimToLimit_suffix limit text
  length_eq := by
    simp only [trimToLimit]
    by_cases hall : limit = 0 ∨ (text.toList.length : Int) ≤ limit
    · rw [if_pos hall]
      split
      · rfl
      · omega
    · rw [if_neg hall, if_pos hlimit, String.toList_ofList, List.length_drop]
      split
      · omega
      · omega

theorem Redactor.addAll_eq_self {redactor : Redactor} {values : List String}
    (hknown : ∀ value ∈ values, value = "" ∨ value ∈ redactor.values) :
    redactor.addAll values = redactor := by
  induction values with
  | nil => rfl
  | cons first rest ih =>
      have hfirst : redactor.add first = redactor := by
        apply if_pos
        rw [Bool.or_eq_true, String.isEmpty_iff, List.contains_iff_mem]
        exact hknown first List.mem_cons_self
      change (redactor.add first).addAll rest = redactor
      rw [hfirst]
      exact ih fun value hvalue => hknown value (List.mem_cons_of_mem first hvalue)

namespace Executor

/-- All that was captured of a step; a step that makes no call has no output. -/
def capturedOf (executor : Executor) (step : Step) : String :=
  match executor.callOf step with
  | .ok call => (executor.runner call).captured
  | .error _ => ""

/-- A value is one that the job must not show: a protected one, or that of a secret which a selected
step asks for, whether its turn has come or not. -/
def Guards (executor : Executor) (selected : List Selection) (value : String) : Prop :=
  value ≠ "" ∧ (value ∈ executor.protectedValues ∨
    ∃ selection ∈ selected, ∃ name ∈ selection.step.secrets.values,
      executor.secrets.value? name = some value)

/-- What the record of a step keeps of its output: nothing if the step was skipped, and otherwise the
end of all that was captured amid its system, with every guarded value masked before it is cut. -/
inductive Stores (executor : Executor) (systems : Nat → System) (selected : List Selection) :
    Step × Nat → StepRecord → Prop
  | skipped {step : Step} {place : Nat} {record : StepRecord} (houtcome : record.outcome = .skipped)
      (houtput : record.output = "") : Stores executor systems selected (step, place) record
  | executed {step : Step} {place : Nat} {record : StepRecord} {selection : Selection}
      (hselected : selection ∈ selected) (hfits : selection.fits step place = true)
      (houtcome : record.outcome ≠ .skipped)
      (houtput : Text.IsEnd executor.outputLimit
        ((executor.redactorFor selected).redact
          ((executor.amid (systems place)).capturedOf step)) record.output) :
      Stores executor systems selected (step, place) record

variable {systems : Nat → System} {executor : Executor} {job : JobInstance} {redactor : Redactor}
  {step : Step} {selected : List Selection} {record : StepRecord}

/-! ## One step -/

theorem output_of_recordOf {result : CommandResult}
    (hrecord : executor.recordOf job redactor step result = .ok record) :
    record.outcome ≠ .skipped ∧
      record.output = trimToLimit executor.outputLimit (redactor.redact result.captured) := by
  cases result with
  | exited code output =>
      simp only [recordOf] at hrecord
      split at hrecord
      · cases hrecord
        exact ⟨by simp, rfl⟩
      · cases hrecord
        exact ⟨by simp [failedRecord], rfl⟩
  | timedOut capture =>
      cases hrecord
      exact ⟨by simp [failedRecord], rfl⟩
  | refused kind text =>
      cases hrecord
      exact ⟨by simp [failedRecord], rfl⟩
  | crashed crash => cases hrecord
  | interrupted => cases hrecord

theorem output_of_runStep (hrecord : (executor.runStep job redactor step).2 = .ok record) :
    record.outcome ≠ .skipped ∧
      record.output =
        trimToLimit executor.outputLimit (redactor.redact (executor.capturedOf step)) := by
  unfold runStep at hrecord
  unfold capturedOf
  split at hrecord
  · next hcall =>
      cases hrecord
      rw [hcall]
      exact ⟨by simp [failedRecord], rfl⟩
  · cases hrecord
  · next hcall =>
      rw [hcall]
      exact output_of_recordOf hrecord

/-! ## The redactor of a job -/

theorem mem_redactorFor_iff {value : String} :
    value ∈ (executor.redactorFor selected).values ↔ executor.Guards selected value := by
  rw [redactorFor, Redactor.mem_addAll_iff, Redactor.mem_ofList_iff, ← or_and_right, Guards, and_comm]
  simp only [List.mem_filterMap, Selection.secretNames, List.mem_flatMap]
  apply and_congr_right
  intro _
  apply or_congr_right
  constructor
  · rintro ⟨name, ⟨selection, hselected, hname⟩, hvalue⟩
    exact ⟨selection, hselected, name, hname, hvalue⟩
  · rintro ⟨selection, hselected, name, hname, hvalue⟩
    exact ⟨name, ⟨selection, hselected, hname⟩, hvalue⟩

/-- A step asks for no secret that the selection it fits does not ask for. -/
theorem mem_values_of_fits {selection : Selection} {place : Nat}
    (hplaced : selection.IsPlaced job) (hstep : job.steps[place]? = some step)
    (hfits : selection.fits step place = true) {name : String}
    (hname : name ∈ step.secrets.values) : name ∈ selection.step.secrets.values := by
  rcases Bool.or_eq_true_iff.mp hfits with hsame | halike
  · have hown := hplaced place (beq_iff_eq.mp hsame)
    cases hstep.symm.trans hown
    exact hname
  · simp only [Step.alike, Bool.and_eq_true, Table.sameEntries, List.all_eq_true] at halike
    obtain ⟨entry, hentry, rfl⟩ := List.mem_map.mp hname
    have hother := halike.1.1.2.2 entry hentry
    exact Table.mem_values_iff.mpr ⟨entry.1, beq_iff_eq.mp hother⟩

/-- The secrets of a step that runs are masked before it runs. -/
theorem addAll_redactorFor {selection : Selection} {place : Nat} (hselected : selection ∈ selected)
    (hplaced : selection.IsPlaced job) (hstep : job.steps[place]? = some step)
    (hfits : selection.fits step place = true) :
    (executor.redactorFor selected).addAll
        (step.secrets.values.filterMap executor.secrets.value?) =
      executor.redactorFor selected := by
  apply Redactor.addAll_eq_self
  intro value hvalue
  obtain ⟨name, hname, hknown⟩ := List.mem_filterMap.mp hvalue
  by_cases hempty : value = ""
  · exact Or.inl hempty
  · refine Or.inr (mem_redactorFor_iff.mpr ⟨hempty, Or.inr ⟨selection, hselected, name, ?_, hknown⟩⟩)
    exact mem_values_of_fits hplaced hstep hfits hname

/-! ## The steps one after the other -/

theorem stores_of_runSteps (hlimit : 0 ≤ executor.outputLimit) {rest : List Selection}
    (hrest : ∀ selection ∈ rest, selection ∈ selected) {failed : Bool}
    {entries : List (Step × Nat)} {records : List StepRecord}
    (hrecords : (runSteps (fun place => executor.amid (systems place)) job
      (executor.redactorFor selected) rest failed entries).result = .ok records) :
    List.Forall₂ (executor.Stores systems selected) entries records ∧
      (runSteps (fun place => executor.amid (systems place)) job (executor.redactorFor selected) rest
        failed entries).calls =
        (executedSteps entries records).filterMap fun (step, place) =>
          ((executor.amid (systems place)).callOf step).toOption := by
  induction entries generalizing rest failed records with
  | nil =>
      cases hrecords
      exact ⟨.nil, rfl⟩
  | cons entry more ih =>
      obtain ⟨step, place⟩ := entry
      have hskipped : executor.Stores systems selected (step, place) (skippedRecord step) :=
        .skipped rfl rfl
      have herased : ∀ selection ∈ rest.eraseP (Selection.fits step place), selection ∈ selected :=
        fun selection hmem => hrest selection (List.mem_of_mem_eraseP hmem)
      simp only [runSteps] at hrecords ⊢
      split at hrecords
      · next hunfit =>
          rw [if_pos hunfit]
          obtain ⟨others, hothers, rfl⟩ := map_eq_ok_iff.mp hrecords
          obtain ⟨hstores, hcalls⟩ := ih hrest hothers
          exact ⟨.cons hskipped hstores, hcalls⟩
      · next hfit =>
          rw [if_neg hfit]
          cases failed with
          | true =>
              obtain ⟨others, hothers, rfl⟩ := map_eq_ok_iff.mp hrecords
              obtain ⟨hstores, hcalls⟩ := ih herased hothers
              exact ⟨.cons hskipped hstores, hcalls⟩
          | false =>
              cases hresult : ((executor.amid (systems place)).runStep job
                  (executor.redactorFor selected) step).2 with
              | error abort => simp [hresult] at hrecords
              | ok record =>
                  simp only [hresult, Bool.false_eq_true, if_false] at hrecords ⊢
                  obtain ⟨others, hothers, rfl⟩ := map_eq_ok_iff.mp hrecords
                  obtain ⟨hstores, hcalls⟩ := ih herased hothers
                  obtain ⟨houtcome, houtput⟩ := output_of_runStep hresult
                  rw [Bool.not_eq_true, Bool.not_eq_false', List.any_eq_true] at hfit
                  obtain ⟨selection, hselection, hfits⟩ := hfit
                  refine ⟨.cons (.executed (hrest selection hselection) hfits houtcome ?_) hstores, ?_⟩
                  · rw [houtput]
                    exact trimToLimit_isEnd hlimit _
                  · rw [executedSteps_execute houtcome, hcalls, fst_runStep, List.filterMap_cons]
                    cases ((executor.amid (systems place)).callOf step).toOption <;> rfl

/-! ## The whole job -/

theorem runStep_returns (hreturns : ∀ call, (executor.runner call).returns = true)
    (hanswers : executor.secrets.Answers step.secrets.values)
    (hdirectory : ∀ crash, executor.directoryOf step ≠ .error (.crash crash)) :
    ∃ record, (executor.runStep job redactor step).2 = .ok record := by
  rcases runStep_cases hreturns hanswers job redactor with
    ⟨crash, hderails, _⟩ | ⟨record, hrecord, _⟩
  · exact absurd (directoryOf_eq_crash_iff.mpr hderails.faulty) (hdirectory crash)
  · exact ⟨record, hrecord⟩

/-- Steps of which none is broken off come to their records. -/
theorem runSteps_returns {executors : Nat → Executor} {rest : List Selection} {failed : Bool}
    {entries : List (Step × Nat)} (hreturns : ∀ entry ∈ entries,
      ∃ record, ((executors entry.2).runStep job redactor entry.1).2 = .ok record) :
    ∃ records, (runSteps executors job redactor rest failed entries).result = .ok records := by
  induction entries generalizing rest failed with
  | nil => exact ⟨[], rfl⟩
  | cons entry more ih =>
      obtain ⟨⟨record, hrecord⟩, hmore⟩ := List.forall_mem_cons.mp hreturns
      have hrest : ∀ (rest : List Selection) (failed : Bool) (own : StepRecord), ∃ records,
          (runSteps executors job redactor rest failed more).result.map (own :: ·) =
            .ok records := by
        intro rest failed own
        obtain ⟨records, hrecords⟩ := ih hmore
        exact ⟨own :: records, map_eq_ok_iff.mpr ⟨records, hrecords, rfl⟩⟩
      simp only [runSteps]
      split
      · exact hrest rest failed _
      · split
        · exact hrest _ failed _
        · simp only [hrecord]
          exact hrest _ _ _

theorem runAmid_returns (hreturns : ∀ place call, ((systems place).runner call).returns = true)
    (hselected : executor.secrets.Answers (Selection.secretNames selected))
    (hanswers : ∀ step ∈ job.steps, executor.secrets.Answers step.secrets.values)
    (hdirectories : ∀ place, ∀ step ∈ job.steps, ∀ crash,
      (executor.amid (systems place)).directoryOf step ≠ .error (.crash crash)) :
    ∃ record, (executor.runAmid systems job selected).result = .ok record := by
  have hsteps : ∀ entry ∈ job.steps.zipIdx, ∃ record, ((executor.amid (systems entry.2)).runStep job
      (executor.redactorFor selected) entry.1).2 = .ok record := by
    intro entry hentry
    have hstep : entry.1 ∈ job.steps := List.fst_mem_of_mem_zipIdx hentry
    exact runStep_returns (hreturns entry.2) (hanswers entry.1 hstep)
      (hdirectories entry.2 entry.1 hstep)
  obtain ⟨records, hrecords⟩ := @runSteps_returns job (executor.redactorFor selected)
    (fun place => executor.amid (systems place)) selected false _ hsteps
  rw [runAmid, SecretProvider.crashAmong?_eq_none_iff.mpr hselected]
  exact ⟨_, map_eq_ok_iff.mpr ⟨records, hrecords, rfl⟩⟩

end Executor

/-- What a job that came to its record has stored of its outputs. -/
structure JobRun.StoresEnds (run : JobRun) (executor : Executor) (systems : Nat → System)
    (job : JobInstance) (selected : List Selection) (record : JobRecord) : Prop where
  stores : List.Forall₂ (executor.Stores systems selected) job.steps.zipIdx record.steps
  /-- No call is made but that of an executed step. -/
  calls_eq : run.calls =
    (Executor.executedSteps job.steps.zipIdx record.steps).filterMap fun (step, place) =>
      ((executor.amid (systems place)).callOf step).toOption
  /-- A step adds nothing to the redactor when it runs, so it is one redactor for all steps. -/
  settled : (∀ selection ∈ selected, selection.IsPlaced job) →
    ∀ (place : Nat) step own, job.steps[place]? = some step → record.steps[place]? = some own →
      own.outcome ≠ .skipped →
        (executor.redactorFor selected).addAll
            (step.secrets.values.filterMap executor.secrets.value?) =
          executor.redactorFor selected
  hides : ∀ value, executor.Guards selected value → '*' ∉ value.toList →
    ∀ own ∈ record.steps, ¬ Text.Occurs value own.output

namespace Executor

variable {executor : Executor} {systems : Nat → System} {selected : List Selection}
  {entry : Step × Nat} {record : StepRecord}

theorem Stores.not_occurs (hstores : executor.Stores systems selected entry record) {value : String}
    (hguards : executor.Guards selected value) (hmask : '*' ∉ value.toList) :
    ¬ Text.Occurs value record.output := by
  intro hoccurs
  cases hstores with
  | skipped _ houtput =>
      rw [houtput] at hoccurs
      exact hguards.1 (String.toList_eq_nil_iff.mp (List.infix_nil.mp hoccurs))
  | executed _ _ _ houtput =>
      have hwhole := hoccurs.trans houtput.suffix.isInfix
      exact Redactor.not_occurs_redact (mem_redactorFor_iff.mpr hguards) hmask hguards.1 _ hwhole

end Executor

/-- Of the output of every executed step the end is stored, however the step ended and whatever the
systems of the steps do: all that was captured is masked, and then cut to the limit. The redactor knows
the protected values and the secrets of all selected steps, those of later ones too. So none of these
values occurs in what is stored, even where the cut goes through it. A job comes to its record if every
command comes back and its secrets and directories can be looked for. -/
theorem stored_outputs_are_redacted_ends (executor : Executor) (hlimit : 0 ≤ executor.outputLimit)
    (systems : Nat → System) (job : JobInstance) (selected : List Selection) :
    (∀ value, value ∈ (executor.redactorFor selected).values ↔ executor.Guards selected value) ∧
    ((∀ place call, ((systems place).runner call).returns = true) →
      executor.secrets.Answers (Selection.secretNames selected) →
      (∀ step ∈ job.steps, executor.secrets.Answers step.secrets.values) →
      (∀ place, ∀ step ∈ job.steps, ∀ crash,
        (executor.amid (systems place)).directoryOf step ≠ .error (.crash crash)) →
      ∃ record, (executor.runAmid systems job selected).result = .ok record) ∧
    ∀ record, (executor.runAmid systems job selected).result = .ok record →
      (executor.runAmid systems job selected).StoresEnds executor systems job selected record := by
  refine ⟨fun value => Executor.mem_redactorFor_iff, Executor.runAmid_returns, ?_⟩
  intro record hrecord
  rcases executor.runAmid_cases systems job selected with ⟨_, _, hrun⟩ | ⟨_, hrun⟩
  · rw [hrun] at hrecord
    cases hrecord
  · rw [hrun] at hrecord ⊢
    obtain ⟨records, hrecords, rfl⟩ := map_eq_ok_iff.mp hrecord
    obtain ⟨hstores, hcalls⟩ :=
      Executor.stores_of_runSteps hlimit (fun _ hselection => hselection) hrecords
    refine ⟨hstores, hcalls, ?_, ?_⟩
    · intro hplaced place step own hstep hown hdone
      have hmem : ((step, place), own) ∈ job.steps.zipIdx.zip records := by
        apply List.mem_of_getElem? (i := place)
        rw [List.getElem?_zip_eq_some]
        refine ⟨?_, hown⟩
        rw [List.getElem?_zipIdx, hstep]
        simp
      cases List.forall₂_zip hstores hmem with
      | skipped houtcome _ => exact absurd houtcome hdone
      | executed hselected hfits _ _ =>
          exact Executor.addAll_redactorFor hselected (hplaced _ hselected) hstep hfits
    · intro value hguards hmask own hown
      obtain ⟨entry, _, hentry⟩ := exists_of_mem_forall₂ hstores hown
      exact hentry.not_occurs hguards hmask

/-- An executor that keeps four characters, and commands that show a token before it is their turn. -/
def leakyExecutor : Executor where
  secrets := .ofTable (.ofList [("DEPLOY_TOKEN", "S3CRET")])
  runner := fun call =>
    if call.command = "env" then .exited 0 "KEY=S3CRET!"
    else .timedOut (.bytes ("wait S3CRET".toList.map Char.toNat))
  directories := Workspace.directories { root := [], isDirectory := fun path => path == [] }
  baseEnv := .empty
  outputLimit := 4
  now := ⟨0⟩

/-- Of some steps only the last one, which does not come to run, asks for the token. -/
def leakySteps : List Step := [
  { name := "show", command := "env" },
  { name := "wait", command := "sleep 9" },
  { name := "push", command := "push", secrets := .ofList [("TOKEN", "DEPLOY_TOKEN")] }]

/-- The run of these steps, each of which is selected. -/
def leakyRun : JobRun :=
  leakyExecutor.runAmid (fun _ => leakyExecutor.toSystem) (loneJob leakySteps)
    (Selection.ofSteps leakySteps)

/-- In both outputs the cut goes through the token. -/
theorem stored_outputs_are_redacted_ends_leak :
    ∃ record, leakyRun.result = .ok record ∧
      record.steps.map StepRecord.output = ["***!", " ***", ""] ∧
      leakyRun.StoresEnds leakyExecutor (fun _ => leakyExecutor.toSystem) (loneJob leakySteps)
        (Selection.ofSteps leakySteps) record ∧
      ∀ own ∈ record.steps, ¬ Text.Occurs "S3CRET" own.output := by
  obtain ⟨hknown, _, hends⟩ := stored_outputs_are_redacted_ends leakyExecutor (by decide)
    (fun _ => leakyExecutor.toSystem) (loneJob leakySteps) (Selection.ofSteps leakySteps)
  have houtputs : leakyRun.result.map (fun record => record.steps.map StepRecord.output) =
      .ok ["***!", " ***", ""] := by
    decide +kernel
  obtain ⟨record, hrecord, hstored⟩ := map_eq_ok_iff.mp houtputs
  have hguards : leakyExecutor.Guards (Selection.ofSteps leakySteps) "S3CRET" :=
    (hknown "S3CRET").mp (by decide +kernel)
  exact ⟨record, hrecord, hstored, hends record hrecord,
    (hends record hrecord).hides "S3CRET" hguards (by decide)⟩

end CiPipeline
