import CiPipeline.CommandLine.Session
import CiPipeline.Proofs.CommandLine.Request
import CiPipeline.Proofs.CommandLine.Terminal

/-!
What the two commands do with the words of an event. They refuse the same words, settings, workflows and
declarations, and the run has done nothing then; what is left of both is told by `plan_eq` and `run_eq`.
-/

namespace CiPipeline

/-- Settings that were read allow for a worker. -/
theorem Settings.one_le_maxWorkers_of_load {environment : Environment} {processors : Option Nat}
    {settings : Settings} (hload : load environment processors = .ok settings) :
    1 ≤ settings.maxWorkers := by
  obtain ⟨workers, _, hload⟩ := bind_eq_ok_iff.mp hload
  obtain ⟨timeout, _, hload⟩ := bind_eq_ok_iff.mp hload
  obtain ⟨outputLimit, _, hload⟩ := bind_eq_ok_iff.mp hload
  cases hload
  cases workers with
  | none => exact Int.le_max_left _ _
  | some workers => exact Int.le_max_left _ _

namespace CommandLine

/-! ## The two commands -/

/-- The status that a use of the program leaves behind. Words that are no request are refused like a
configuration, and an error of which nothing is made is a failure. -/
def Ending.status : Ending → Int
  | .exited status => status
  | .rejected _ => configurationStatus
  | .escaped _ => failureStatus

/-- The word that calls a command. -/
def CommandName.text : CommandName → String
  | run => "run"
  | plan => "plan"

/-- The words of a command line that call a command. -/
def commandLine (debug : Bool) (command : CommandName) (args : List String) : List String :=
  (if debug then ["--debug"] else []) ++ command.text :: args

theorem Invocation.ofArgs_commandLine (debug : Bool) (command : CommandName) (args : List String) :
    Invocation.ofArgs (commandLine debug command args) = .ok ⟨debug, some (command, args)⟩ := by
  have hcommand : Words.sort groupForms false (command.text :: args) =
      .ok { others := command.text :: args } := by
    cases command with
    | run => rw [Words.sort]; rfl
    | plan => rw [Words.sort]; rfl
  have hdebug : Words.sort groupForms false ("--debug" :: command.text :: args) =
      .ok { given := [{ name := "--debug" }], others := command.text :: args } := by
    have hform : groupForms.find? (·.name == "--debug") = some ⟨"--debug", false⟩ := rfl
    have hsplit : Words.splitValue "--debug" = ("--debug", none) := by decide
    rw [Words.sort, if_neg (by decide), if_neg (by decide)]
    simp only [hsplit, hform, hcommand]
    rfl
  cases debug with
  | false =>
      change (Words.sort groupForms false (command.text :: args) >>= _) = _
      rw [hcommand]
      cases command with
      | _ => rfl
  | true =>
      change (Words.sort groupForms false ("--debug" :: command.text :: args) >>= _) = _
      rw [hdebug]
      cases command with
      | _ => rfl

/-- The title over a plan. -/
def titleOf (plan : Plan) : Printed :=
  Console.header ("Plan: " ++ plan.pipeline.name)

/-- The line about the decision that a plan and a run of it show. -/
def decisionOf (plan : Plan) : Printed :=
  Console.trigger plan.decision.runs plan.decision.reason

/-- The settings, the workflow file and the pipeline that both commands come to. -/
structure Loads (s : Surroundings) (options : EventOptions) (settings : Settings) (file : String)
    (pipeline : Pipeline) : Prop where
  settings_eq : Settings.load s.environment s.processors = .ok settings
  file_eq : findWorkflow s options.workflow = .ok file
  pipeline_eq : Pipeline.ofFile s.workspace file = .ok pipeline

variable {s : Surroundings}

/-- A workflow that is not found ends a use of the program before anything is done. -/
theorem calls_of_findWorkflow_eq_error {named : Option String} {session : Session}
    (hfind : findWorkflow s named = .error session) : session.calls = [] := by
  have hfound : ∀ {file session}, isFound s file = .error session → session.calls = [] := by
    intro file session hfound
    obtain ⟨_, _, rfl⟩ := mapError_eq_error_iff.mp hfound
    rfl
  unfold findWorkflow at hfind
  split at hfind
  · rcases bind_eq_error_iff.mp hfind with hunknown | ⟨found, _, hrefused⟩
    · exact hfound hunknown
    · cases found <;> cases hrefused
      rfl
  · rcases bind_eq_error_iff.mp hfind with hunknown | ⟨files, _, hrefused⟩
    · obtain ⟨file, _, hunknown⟩ := exists_of_filterM_eq_error hunknown
      exact hfound hunknown
    · split at hrefused
      · cases hrefused
      · cases hrefused
        rfl
      · cases hrefused
        rfl

section Same

variable {args : List String} {words : Words}

/-- Words of an event are refused by both commands, or settings are, or both commands go on. -/
theorem sessionOf_cases (hsort : Words.sort eventForms true args = .ok words)
    (hhelp : words.has helpForm.name = false) (s : Surroundings) (debug : Bool) :
    (∃ session, session.ending.status = configurationStatus ∧ session.calls = [] ∧
      ∀ command, sessionOf s (commandLine debug command args) = session) ∨
    ∃ settings, Settings.load s.environment s.processors = .ok settings ∧
      sessionOf s (commandLine debug .plan args) = plan s debug (EventOptions.ofWords words) ∧
      sessionOf s (commandLine debug .run args) =
        run s debug settings { event := EventOptions.ofWords words } := by
  simp only [sessionOf, Invocation.ofArgs_commandLine]
  cases hload : Settings.load s.environment s.processors with
  | error error => exact .inl ⟨_, rfl, rfl, fun _ => rfl⟩
  | ok settings =>
      rcases Request.ofWords_cases hsort hhelp s.workspace with ⟨fault, hfault⟩ | ⟨hplan, hrun⟩
      · refine .inl ⟨{ ending := .rejected fault }, rfl, rfl, ?_⟩
        intro command
        simp only [hfault command]
      · refine .inr ⟨settings, rfl, ?_, ?_⟩
        · simp only [hplan]
        · simp only [hrun]

end Same

/-! ## The end of a run -/

/-- No report has the status of a configuration that is refused. -/
theorem exitCode_ne_configurationStatus (report : RunReport) :
    report.exitCode ≠ configurationStatus := by
  unfold RunReport.exitCode
  split
  · decide
  · decide

section Concluded

variable {console : Console} {options : EventOptions} {started : Printed} {result : RunResult}

/-- What is said of a crash is no line about the run. -/
theorem out_crashWith (console : Console) (crash : Crash) :
    (crashWith console crash).printed.out = [] := by
  unfold crashWith failWith Console.exception
  dsimp only
  split
  · rfl
  · rfl

theorem concluded_of_shown {report : RunReport} (hreport : result.report = .ok report)
    (hshown : unshowable? s.terminal (started ++ result.printed console true) = none) :
    concluded s console { event := options } started result =
      { printed := started ++ result.printed console true ++
          if report.triggered then Console.results report else {}
        ending := .exited report.exitCode
        calls := result.calls } := by
  simp only [concluded, hshown, hreport]
  rfl

/-- Nothing is shown behind a line that cannot be, and the run ends as a failure. -/
theorem concluded_of_cut {cut : Printed × String}
    (hcut : unshowable? s.terminal (started ++ result.printed console true) = some cut) :
    (concluded s console { event := options } started result).printed.out = cut.1.out ∧
      (concluded s console { event := options } started result).ending = .exited failureStatus := by
  simp only [concluded, hcut]
  refine ⟨?_, rfl⟩
  change cut.1.out ++ _ = cut.1.out
  rw [out_crashWith, List.append_nil]

/-- A run that crashes has shown what there was to show, and ends as a failure. -/
theorem concluded_of_crash {crash : Crash} (hreport : result.report = .error (.crashed crash))
    (hshown : unshowable? s.terminal (started ++ result.printed console true) = none) :
    (concluded s console { event := options } started result).printed.out =
        (started ++ result.printed console true).out ∧
      (concluded s console { event := options } started result).ending = .exited failureStatus ∧
      (concluded s console { event := options } started result).calls = result.calls := by
  simp only [concluded, hshown, hreport]
  refine ⟨?_, rfl, trivial⟩
  change (started ++ result.printed console true).out ++ _ = _
  rw [brokenOff, out_crashWith, List.append_nil]

end Concluded

section Loaded

variable (debug : Bool) (settings : Settings) {options : EventOptions} {ref file : String}
  {pipeline : Pipeline}

/-- A workflow that is not found ends both commands alike. -/
theorem sessions_of_findWorkflow_eq_error {session : Session}
    (hfind : findWorkflow s options.workflow = .error session) :
    plan s debug options = session ∧ run s debug settings { event := options } = session := by
  simp only [plan, run, hfind]
  exact ⟨rfl, rfl⟩

variable (href : options.ref = some ref)

include href

/-- A workflow that declares no pipeline ends both commands with the same status. -/
theorem sessions_of_ofFile_eq_error {error : DocumentError}
    (hfind : findWorkflow s options.workflow = .ok file)
    (hfile : Pipeline.ofFile s.workspace file = .error error) :
    (run s debug settings { event := options }).ending.status =
        (plan s debug options).ending.status ∧
      (run s debug settings { event := options }).calls = [] := by
  simp only [plan, run, hfind, findRef, href, hfile, ok_bind]
  cases error with
  | _ => exact ⟨rfl, rfl⟩

variable (hfind : findWorkflow s options.workflow = .ok file)
  (hfile : Pipeline.ofFile s.workspace file = .ok pipeline)

include hfind hfile

theorem plan_eq : plan s debug options =
    match Plan.ofPipeline pipeline (options.event ref) with
    | .error error => refuseDeclaration error
    | .ok plan =>
      match unshowable? s.terminal (titleOf plan ++ decisionOf plan ++ Console.plan plan.stages) with
      | none =>
        { printed := titleOf plan ++ decisionOf plan ++ Console.plan plan.stages
          ending := .exited 0 }
      | some (shown, _) => { printed := shown, ending := .escaped .unshowable } := by
  simp only [plan, hfind, findRef, href, hfile, ok_bind, Printed.empty_append]
  cases Plan.ofPipeline pipeline (options.event ref) with
  | error error => rfl
  | ok plan =>
      simp only [Except.mapError, titleOf, decisionOf]
      generalize unshowable? s.terminal (_ ++ Console.plan plan.stages) = cut
      cases cut with
      | none => rfl
      | some cut => rfl

theorem run_eq : run s debug settings { event := options } =
    match unshowable? s.terminal (opening pipeline file (options.event ref)) with
    | some cut => cutOff s.terminal ⟨debug, false⟩ cut
    | none => concluded s ⟨debug, false⟩ { event := options } (opening pipeline file (options.event ref))
        (announcedRun s settings (SecretProvider.ofProcess s.names "" s.environment) pipeline
          (options.event ref)) := by
  simp only [run, hfind, findRef, href, hfile, ok_bind, Printed.empty_append]
  cases unshowable? s.terminal (opening pipeline file (options.event ref)) with
  | some cut => rfl
  | none => rfl

/-- A declaration that cannot be planned is refused by both commands, if the run can show how it begins. -/
theorem refused_of_ofPipeline_eq_error {error : ConfigurationError}
    (hplan : Plan.ofPipeline pipeline (options.event ref) = .error error) :
    (plan s debug options).ending.status = configurationStatus ∧
      (run s debug settings { event := options }).calls = [] ∧
      (unshowable? s.terminal (opening pipeline file (options.event ref)) = none →
        (run s debug settings { event := options }).ending.status = configurationStatus) := by
  have hresult : announcedRun s settings (SecretProvider.ofProcess s.names "" s.environment) pipeline
      (options.event ref) = { report := .error (.configuration error) } := by
    simp only [announcedRun, Pipeline.run, hplan]
  rw [plan_eq debug href hfind hfile, run_eq debug settings href hfind hfile, hplan, hresult]
  cases hopening : unshowable? s.terminal (opening pipeline file (options.event ref)) with
  | some cut => exact ⟨rfl, rfl, fun hshown => absurd hshown (by simp)⟩
  | none =>
      have hshown : unshowable? s.terminal (opening pipeline file (options.event ref) ++
          RunResult.printed { report := .error (.configuration error) } ⟨debug, false⟩ true) = none :=
        unshowable?_append_eq_none_iff.mpr ⟨hopening, rfl⟩
      simp only [concluded, hshown]
      exact ⟨rfl, rfl, fun _ => rfl⟩

end Loaded

end CommandLine
end CiPipeline
