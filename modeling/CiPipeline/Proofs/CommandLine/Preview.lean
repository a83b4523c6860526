import CiPipeline.Proofs.CommandLine.Session
import CiPipeline.Proofs.Graph.Level

/-!
The plan of a workflow as a preview of its run. What the one refuses the other refuses; of what neither
refuses the plan tells beforehand the decision about the event and the jobs that the run will report on.

Between the two stands what cannot be put into bytes. A run shows more lines than a plan, and where one of
them cannot be shown it ends as a failure; and it looks secrets up, whose names have to be put into bytes.
-/

namespace CiPipeline.CommandLine

/-! ## What is told beforehand -/

section Told

variable {plan : Plan}

theorem unshowable?_titleOf {terminal : Encoding} {file : String} {event : Event}
    (hopening : unshowable? terminal (opening plan.pipeline file event) = none) :
    unshowable? terminal (titleOf plan) = none := by
  rw [unshowable?_eq_none_iff] at hopening ⊢
  have hname : terminal.rejects plan.pipeline.name = false := by
    have hline : terminal.rejects ("Pipeline: " ++ plan.pipeline.name) = false :=
      hopening _ (by simp [opening, Console.runStarted, Console.emit])
    rw [Encoding.rejects_append, Bool.or_eq_false_iff] at hline
    exact hline.2
  have hlead : terminal.rejects ("\n" ++ "Plan: ") = false :=
    Encoding.rejects_eq_false_of_ascii rfl
  intro line hline
  simp only [titleOf, Console.header, Console.emit, List.mem_cons, List.not_mem_nil, or_false] at hline
  rcases hline with rfl | rfl
  · rw [← String.append_assoc, Encoding.rejects_append, hlead, hname]
    rfl
  · apply Encoding.rejects_eq_false_of_ascii
    simp only [String.toList_ofList, List.all_replicate]
    split <;> rfl

/-- The stages list the instances of the plan. -/
theorem flatten_stages_perm (hgraph : plan.graph.WellFormed) :
    plan.stages.flatten.Perm (plan.graph.ids.map InstanceId.text) := by
  rw [Plan.stages, Plan.stageNames, Option.map_some, Option.getD_some, ← List.map_flatten]
  exact (Graph.levels_flatten_perm hgraph).map _

/-- Where the ends of all jobs can be shown, so can the stages. -/
theorem unshowable?_stages {terminal : Encoding} {console : Console} {log : List Notice}
    (htold : ∀ id ∈ plan.graph.ids, ∃ record, record.id = id ∧ Notice.recorded record ∈ log)
    (hgraph : plan.graph.WellFormed)
    (hshown : unshowable? terminal (console.notices true log) = none) :
    unshowable? terminal (Console.plan plan.stages) = none := by
  rw [unshowable?_eq_none_iff] at hshown ⊢
  have hids : ∀ id ∈ plan.graph.ids, terminal.rejects id.text = false := by
    intro id hid
    obtain ⟨record, rfl, hrecorded⟩ := htold id hid
    have hline := hshown ("JOB " ++ record.outcome.title ++ ": " ++ record.id.text) (by
      rw [Console.mem_out_notices_iff]
      exact ⟨_, hrecorded, List.mem_cons_self⟩)
    rw [Encoding.rejects_append, Bool.or_eq_false_iff] at hline
    exact hline.2
  have hlead : terminal.rejects "Stage " = false := Encoding.rejects_eq_false_of_ascii rfl
  have hcolon : terminal.rejects ":" = false := Encoding.rejects_eq_false_of_ascii rfl
  have hindent : terminal.rejects "  " = false := Encoding.rejects_eq_false_of_ascii rfl
  intro line hline
  obtain ⟨⟨stage, index⟩, hstage, hline⟩ := List.mem_flatMap.mp hline
  rcases List.mem_cons.mp hline with rfl | hline
  · rw [Encoding.rejects_append, Encoding.rejects_append, hlead, Encoding.rejects_toString, hcolon]
    rfl
  · obtain ⟨name, hname, rfl⟩ := List.mem_map.mp hline
    have hstage : stage ∈ plan.stages := (List.mem_zipIdx hstage).2.2 ▸ List.getElem_mem _
    have hlisted : name ∈ plan.graph.ids.map InstanceId.text :=
      (flatten_stages_perm hgraph).mem_iff.mp (List.mem_flatten_of_mem hstage hname)
    obtain ⟨id, hid, rfl⟩ := List.mem_map.mp hlisted
    rw [Encoding.rejects_append, hindent, hids id hid]
    rfl

variable {s : Surroundings} {options : EventOptions}

/-! ### The session of a run that comes to a report -/

section Concluded

variable {console : Console} {opened : Printed} {log : List Notice} {report : RunReport}

theorem status_concluded_ne :
    (concluded s console { event := options } opened (resultOf plan log report)).ending.status ≠
      configurationStatus := by
  cases hcut : unshowable? s.terminal (opened ++ (resultOf plan log report).printed console true) with
  | none =>
      rw [concluded_of_shown rfl hcut]
      exact exitCode_ne_configurationStatus report
  | some cut =>
      rw [(concluded_of_cut hcut).2]
      decide

theorem status_concluded_crashOf_ne {crash : Crash} :
    (concluded s console { event := options } opened (crashOf plan crash)).ending.status ≠
      configurationStatus := by
  have hfailure : (concluded s console { event := options } opened (crashOf plan crash)).ending =
      .exited failureStatus := by
    cases hcut : unshowable? s.terminal (opened ++ (crashOf plan crash).printed console true) with
    | none => exact (concluded_of_crash rfl hcut).2.1
    | some cut => exact (concluded_of_cut hcut).2
  rw [hfailure]
  decide

/-- Behind the decision a run shows nothing that could not look up a secret. -/
theorem concluded_crashOf {crash : Crash}
    (hbegins : unshowable? s.terminal (opened ++ decisionOf plan) = none) :
    (concluded s console { event := options } opened (crashOf plan crash)).printed.out =
        (opened ++ decisionOf plan).out ∧
      (concluded s console { event := options } opened (crashOf plan crash)).calls = [] ∧
      (concluded s console { event := options } opened (crashOf plan crash)).ending =
        .exited failureStatus := by
  obtain ⟨hopened, hdecision⟩ := unshowable?_append_eq_none_iff.mp hbegins
  have hshown : unshowable? s.terminal (opened ++ (crashOf plan crash).printed console true) = none :=
    unshowable?_append_eq_none_iff.mpr
      ⟨hopened, unshowable?_append_eq_none_iff.mpr ⟨hdecision, rfl⟩⟩
  obtain ⟨hout, hending, hcalls⟩ :=
    @concluded_of_crash s console options opened (crashOf plan crash) crash rfl hshown
  refine ⟨hout.trans ?_, hcalls, hending⟩
  change (opened.out ++ ((decisionOf plan).out ++ [])) = opened.out ++ (decisionOf plan).out
  rw [List.append_nil]

/-- The decision is shown, whatever cannot be shown behind it. -/
theorem decision_prefix_concluded (hbegins : unshowable? s.terminal (opened ++ decisionOf plan) = none) :
    (opened ++ decisionOf plan).out <+:
      (concluded s console { event := options } opened (resultOf plan log report)).printed.out := by
  have htold : opened ++ (resultOf plan log report).printed console true =
      opened ++ decisionOf plan ++ console.notices true log := (Printed.append_assoc _ _ _).symm
  cases hcut : unshowable? s.terminal (opened ++ (resultOf plan log report).printed console true) with
  | none =>
      rw [concluded_of_shown rfl hcut, htold, Printed.append_assoc]
      exact List.prefix_append _ _
  | some cut =>
      rw [(concluded_of_cut hcut).1]
      exact prefix_of_unshowable? hbegins (htold ▸ hcut)

variable (hreports : Reports plan log report)

include hreports

theorem concluded_idle (hidle : plan.decision.runs = false)
    (hbegins : unshowable? s.terminal (opened ++ decisionOf plan) = none) :
    (concluded s console { event := options } opened (resultOf plan log report)).calls = [] ∧
      (concluded s console { event := options } opened (resultOf plan log report)).ending =
        .exited 0 := by
  have hlog : log = [] := hreports.idle hidle
  subst hlog
  obtain ⟨hopened, hdecision⟩ := unshowable?_append_eq_none_iff.mp hbegins
  have hshown : unshowable? s.terminal (opened ++ (resultOf plan [] report).printed console true) = none :=
    unshowable?_append_eq_none_iff.mpr
      ⟨hopened, unshowable?_append_eq_none_iff.mpr ⟨hdecision, rfl⟩⟩
  rw [concluded_of_shown rfl hshown]
  refine ⟨rfl, ?_⟩
  rw [RunReport.exitCode_of_not_triggered (hreports.triggered_eq.trans hidle)]

/-- Behind everything that was told of the jobs stand the results, one for each job of the plan. -/
theorem concluded_fires (hgraph : plan.graph.WellFormed) (hruns : plan.decision.runs = true)
    (hshown : unshowable? s.terminal (opened ++ (resultOf plan log report).printed console true) = none) :
    ∃ own : RunReport,
      (concluded s console { event := options } opened (resultOf plan log report)).printed.out =
        (opened ++ (resultOf plan log report).printed console true ++ Console.results own).out ∧
      (own.jobs.keys.map InstanceId.text).Perm plan.stages.flatten ∧
      (concluded s console { event := options } opened (resultOf plan log report)).ending =
        .exited (if ∃ record ∈ own.jobs.values, record.outcome = .failure then 1 else 0) := by
  have htriggered : report.triggered = true := hreports.triggered_eq.trans hruns
  rw [concluded_of_shown rfl hshown]
  refine ⟨report, ?_, ?_, ?_⟩
  · rw [if_pos htriggered]
  · rw [hreports.keys_eq hruns]
    exact (flatten_stages_perm hgraph).symm
  · rw [RunReport.exitCode_of_triggered htriggered]

end Concluded

/-! ### The two sessions -/

/-- A run cannot look up one of the secrets that are declared, for its name cannot be put into bytes. -/
def LacksName (s : Surroundings) (pipeline : Pipeline) : Prop :=
  ∃ name ∈ pipeline.secretNames, s.names.rejects name = true

/-- What the session of a plan tells beforehand of the session of a run, which begins with some lines
and goes on with what is told of the jobs. -/
structure Previews (s : Surroundings) (plan : Plan) (opened told : Printed)
    (planned ran : Session) : Prop where
  /-- Both show the same line about the decision behind the lines with which they begin. -/
  planned_decision : (titleOf plan ++ decisionOf plan).out <+: planned.printed.out
  ran_decision : (opened ++ decisionOf plan).out <+: ran.printed.out
  idle : plan.decision.runs = false → ran.calls = [] ∧ ran.ending = .exited 0
  /-- The jobs of the results are those of the stages, and the status is that of their outcomes. -/
  fires : plan.decision.runs = true → ¬ LacksName s plan.pipeline →
    unshowable? s.terminal told = none →
    planned.ending = .exited 0 ∧
    planned.printed.out = (titleOf plan ++ decisionOf plan ++ Console.plan plan.stages).out ∧
    ∃ report : RunReport, ran.printed.out = (opened ++ told ++ Console.results report).out ∧
      (report.jobs.keys.map InstanceId.text).Perm plan.stages.flatten ∧
      ran.ending = .exited
        (if ∃ record ∈ report.jobs.values, record.outcome = .failure then 1 else 0)
  /-- Without its secrets a run shows nothing behind the decision, and ends as a failure. -/
  breaks : plan.decision.runs = true → LacksName s plan.pipeline →
    ran.printed.out = (opened ++ decisionOf plan).out ∧ ran.calls = [] ∧
      ran.ending = .exited failureStatus

theorem answers_ofProcess_iff {pipeline : Pipeline} :
    (SecretProvider.ofProcess s.names "" s.environment).Answers pipeline.secretNames ↔
      ¬ LacksName s pipeline := by
  simp only [LacksName, SecretProvider.Answers, SecretProvider.ofProcess, String.empty_append,
    not_exists, not_and, Bool.not_eq_true]
  refine forall₂_congr fun name _ => ?_
  split
  · next hrejects => simp [hrejects]
  · next haccepts => simp [haccepts]

variable (debug : Bool) {ref file : String} {settings : Settings} {pipeline : Pipeline}
  (href : options.ref = some ref) (hloads : Loads s options settings file pipeline)
  (hcalm : ∀ call, s.runner call ≠ .interrupted)
  (hplan : Plan.ofPipeline pipeline (options.event ref) = .ok plan)

include hloads hcalm hplan

theorem exists_reports_of_announcedRun
    (hnames : plan.decision.runs = true → ¬ LacksName s plan.pipeline) :
    ∃ log report, Reports plan log report ∧
      announcedRun s settings (SecretProvider.ofProcess s.names "" s.environment) pipeline
        (options.event ref) = resultOf plan log report := by
  have hworkers := Settings.one_le_maxWorkers_of_load hloads.settings_eq
  have hrunner : ∀ call, (settings.executor (SecretProvider.ofProcess s.names "" s.environment)
      ⟨s.runner, s.directories⟩ s.environment s.now).runner call ≠ .interrupted := hcalm
  exact exists_reports_of_announced hplan hworkers hrunner
    (fun hruns => answers_ofProcess_iff.mpr (hnames hruns)) s.duration

/-- A run of what can be planned comes to a report, or it does nothing for want of a secret. -/
theorem announcedRun_cases :
    ((plan.decision.runs = true → ¬ LacksName s plan.pipeline) ∧
      ∃ log report, Reports plan log report ∧
        announcedRun s settings (SecretProvider.ofProcess s.names "" s.environment) pipeline
          (options.event ref) = resultOf plan log report) ∨
    (plan.decision.runs = true ∧ LacksName s plan.pipeline) ∧
      ∃ crash, announcedRun s settings (SecretProvider.ofProcess s.names "" s.environment) pipeline
        (options.event ref) = crashOf plan crash := by
  by_cases hlacks : plan.decision.runs = true ∧ LacksName s plan.pipeline
  · refine Or.inr ⟨hlacks, ?_⟩
    have hunanswered : (SecretProvider.ofProcess s.names "" s.environment).crashAmong?
        plan.pipeline.secretNames ≠ none := by
      rw [ne_eq, SecretProvider.crashAmong?_eq_none_iff, answers_ofProcess_iff, not_not]
      exact hlacks.2
    obtain ⟨crash, hcrash⟩ := Option.ne_none_iff_exists'.mp hunanswered
    exact ⟨crash, Pipeline.run_of_crash hplan hlacks.1 hcrash _ _ _⟩
  · rw [not_and] at hlacks
    exact Or.inl ⟨hlacks, exists_reports_of_announcedRun hloads hcalm hplan hlacks⟩

include href

omit hcalm in
/-- The plan shows the decision, whatever cannot be shown behind it. -/
theorem decision_prefix_plan
    (htitle : unshowable? s.terminal (titleOf plan ++ decisionOf plan) = none) :
    (titleOf plan ++ decisionOf plan).out <+: (CommandLine.plan s debug options).printed.out := by
  rw [plan_eq debug href hloads.file_eq hloads.pipeline_eq, hplan]
  dsimp only
  cases hcut : unshowable? s.terminal
      (titleOf plan ++ decisionOf plan ++ Console.plan plan.stages) with
  | none => exact List.prefix_append _ _
  | some cut => exact prefix_of_unshowable? htitle hcut

/-- What can be planned is refused by neither command. -/
theorem status_ne_of_ofPipeline_eq_ok :
    (CommandLine.plan s debug options).ending.status ≠ configurationStatus ∧
      (run s debug settings { event := options }).ending.status ≠ configurationStatus := by
  have hsuccess : (0 : Int) ≠ configurationStatus := by decide
  have hfailure : failureStatus ≠ configurationStatus := by decide
  rw [plan_eq debug href hloads.file_eq hloads.pipeline_eq,
    run_eq debug settings href hloads.file_eq hloads.pipeline_eq, hplan]
  constructor
  · dsimp only
    split
    · exact hsuccess
    · exact hfailure
  · split
    · exact hfailure
    · rcases announcedRun_cases hloads hcalm hplan with
        ⟨_, log, report, _, hresult⟩ | ⟨_, crash, hresult⟩
      · rw [hresult]
        exact status_concluded_ne
      · rw [hresult]
        exact status_concluded_crashOf_ne

/-- A plan tells beforehand what its run shows, as far as that can be shown. -/
theorem previews_of_ofPipeline_eq_ok
    (hbegins : unshowable? s.terminal (opening pipeline file (options.event ref) ++
      decisionOf plan) = none) :
    Previews s plan (opening pipeline file (options.event ref))
      ((announcedRun s settings (SecretProvider.ofProcess s.names "" s.environment) pipeline
        (options.event ref)).printed ⟨debug, false⟩ true)
      (CommandLine.plan s debug options) (run s debug settings { event := options }) := by
  obtain ⟨hopening, hdecision⟩ := unshowable?_append_eq_none_iff.mp hbegins
  have hpipeline : plan.pipeline = pipeline := Plan.pipeline_of_ofPipeline hplan
  have hgraph : plan.graph.WellFormed := Plan.wellFormed_of_ofPipeline hplan
  have htitle : unshowable? s.terminal (titleOf plan ++ decisionOf plan) = none :=
    unshowable?_append_eq_none_iff.mpr ⟨unshowable?_titleOf (hpipeline ▸ hopening), hdecision⟩
  have hplanned := decision_prefix_plan debug href hloads hplan htitle
  rcases announcedRun_cases hloads hcalm hplan with
    ⟨hnames, log, report, hreports, hresult⟩ | ⟨⟨hruns, hlacks⟩, crash, hresult⟩
  · refine
      { planned_decision := hplanned
        ran_decision := ?_
        idle := ?_
        fires := ?_
        breaks := fun hruns hlacks => absurd hlacks (hnames hruns) }
    all_goals
      rw [run_eq debug settings href hloads.file_eq hloads.pipeline_eq, hopening, hresult]
    · exact decision_prefix_concluded hbegins
    · exact fun hidle => concluded_idle hreports hidle hbegins
    · intro hruns _ hshown
      have hnotices : unshowable? s.terminal (Console.notices ⟨debug, false⟩ true log) = none :=
        (unshowable?_append_eq_none_iff.mp hshown).2
      have hstages : unshowable? s.terminal
          (titleOf plan ++ decisionOf plan ++ Console.plan plan.stages) = none :=
        unshowable?_append_eq_none_iff.mpr
          ⟨htitle, unshowable?_stages (hreports.told hruns) hgraph hnotices⟩
      rw [plan_eq debug href hloads.file_eq hloads.pipeline_eq, hplan]
      dsimp only
      rw [hstages]
      exact ⟨rfl, rfl, concluded_fires hreports hgraph hruns
        (unshowable?_append_eq_none_iff.mpr ⟨hopening, hshown⟩)⟩
  · have hran : run s debug settings { event := options } =
        concluded s ⟨debug, false⟩ { event := options } (opening pipeline file (options.event ref))
          (crashOf plan crash) := by
      rw [run_eq debug settings href hloads.file_eq hloads.pipeline_eq, hopening, hresult]
    obtain ⟨hout, hcalls, hending⟩ :=
      @concluded_crashOf plan s options ⟨debug, false⟩ _ crash hbegins
    rw [hran]
    exact
      { planned_decision := hplanned
        ran_decision := hout ▸ List.prefix_refl _
        idle := fun hidle => absurd (hidle.symm.trans hruns) Bool.false_ne_true
        fires := fun _ hnames => absurd hlacks hnames
        breaks := fun _ _ => ⟨hout, hcalls, hending⟩ }

end Told

/-! ## A faithful preview -/

/-- A plan is a faithful preview of a run for the same event. -/
structure FaithfulPreview (s : Surroundings) (debug : Bool) (options : EventOptions) (event : Event)
    (planned ran : Session) : Prop where
  /-- What a run refuses a plan refuses too, and the run has done nothing then. -/
  ran_refused : ran.ending.status = configurationStatus →
    planned.ending.status = configurationStatus ∧ ran.calls = []
  /-- What a plan refuses a run refuses too, if it can show how it begins. -/
  planned_refused : planned.ending.status = configurationStatus →
    (∀ settings file pipeline, Loads s options settings file pipeline →
      unshowable? s.terminal (opening pipeline file event) = none) →
    ran.ending.status = configurationStatus
  /-- What is loaded and not refused has a plan, by which the run is told beforehand. -/
  previews : ∀ settings file pipeline, Loads s options settings file pipeline →
    planned.ending.status ≠ configurationStatus →
    ∃ plan, Plan.ofPipeline pipeline event = .ok plan ∧
      (unshowable? s.terminal (opening pipeline file event ++ decisionOf plan) = none →
        Previews s plan (opening pipeline file event)
          ((announcedRun s settings (SecretProvider.ofProcess s.names "" s.environment) pipeline
            event).printed ⟨debug, false⟩ true) planned ran)

namespace FaithfulPreview

variable {s : Surroundings} {debug : Bool} {options : EventOptions} {event : Event}

/-- One session that does nothing is its own preview, where nothing is loaded or it is refused. -/
theorem of_eq {session : Session} (hcalls : session.calls = [])
    (hnone : session.ending.status = configurationStatus ∨
      ∀ settings file pipeline, ¬ Loads s options settings file pipeline) :
    FaithfulPreview s debug options event session session where
  ran_refused hstatus := ⟨hstatus, hcalls⟩
  planned_refused hstatus _ := hstatus
  previews settings file pipeline hloads hgoes :=
    (hnone.elim hgoes fun hnothing => hnothing settings file pipeline hloads).elim

/-- Complaints may be spelled out in the end. -/
theorem execute {first second : List String}
    (hsessions : FaithfulPreview s debug options event (sessionOf s first) (sessionOf s second)) :
    FaithfulPreview s debug options event (execute s first) (execute s second) where
  ran_refused := hsessions.ran_refused
  planned_refused := hsessions.planned_refused
  previews settings file pipeline hloads hgoes := by
    obtain ⟨plan, hplan, hpreviews⟩ := hsessions.previews settings file pipeline hloads hgoes
    refine ⟨plan, hplan, fun hbegins => ?_⟩
    have htold := hpreviews hbegins
    exact ⟨htold.planned_decision, htold.ran_decision, htold.idle, htold.fires, htold.breaks⟩

theorem of_load {settings : Settings} {ref : String} (href : options.ref = some ref)
    (hload : Settings.load s.environment s.processors = .ok settings)
    (hcalm : ∀ call, s.runner call ≠ .interrupted) :
    FaithfulPreview s debug options (options.event ref) (plan s debug options)
      (run s debug settings { event := options }) := by
  cases hfind : findWorkflow s options.workflow with
  | error session =>
      obtain ⟨hplanned, hran⟩ := sessions_of_findWorkflow_eq_error debug settings hfind
      rw [hplanned, hran]
      refine of_eq (calls_of_findWorkflow_eq_error hfind) (.inr ?_)
      intro settings file pipeline hloads
      cases hfind.symm.trans hloads.file_eq
  | ok file =>
      cases hfile : Pipeline.ofFile s.workspace file with
      | error error =>
          obtain ⟨hstatus, hcalls⟩ := sessions_of_ofFile_eq_error debug settings href hfind hfile
          refine ⟨fun hrefused => ⟨hstatus ▸ hrefused, hcalls⟩,
            fun hrefused _ => hstatus.trans hrefused, ?_⟩
          intro settings own pipeline hloads
          cases hfind.symm.trans hloads.file_eq
          cases hfile.symm.trans hloads.pipeline_eq
      | ok pipeline =>
          have hloads : Loads s options settings file pipeline := ⟨hload, hfind, hfile⟩
          cases hplan : Plan.ofPipeline pipeline (options.event ref) with
          | error error =>
              obtain ⟨hplanned, hcalls, hran⟩ :=
                refused_of_ofPipeline_eq_error debug settings href hfind hfile hplan
              refine ⟨fun _ => ⟨hplanned, hcalls⟩,
                fun _ hbegins => hran (hbegins settings file pipeline hloads), ?_⟩
              intro _ _ _ _ hgoes
              exact absurd hplanned hgoes
          | ok plan =>
              obtain ⟨hplanned, hran⟩ :=
                status_ne_of_ofPipeline_eq_ok debug href hloads hcalm hplan
              refine ⟨fun hrefused => absurd hrefused hran,
                fun hrefused _ => absurd hrefused hplanned, ?_⟩
              intro _ _ _ hown _
              cases hload.symm.trans hown.settings_eq
              cases hfind.symm.trans hown.file_eq
              cases hfile.symm.trans hown.pipeline_eq
              exact ⟨plan, hplan, previews_of_ofPipeline_eq_ok debug href hloads hcalm hplan⟩

end FaithfulPreview

/-- A plan is a faithful preview of a run of the same words, but for lines that cannot be shown and for
secrets that cannot be looked up. -/
theorem plan_previews_run (s : Surroundings) (hcalm : ∀ call, s.runner call ≠ .interrupted)
    (debug : Bool) {args : List String} {words : Words} {ref : String}
    (hsort : Words.sort eventForms true args = .ok words) (href : words.value? "--ref" = some ref)
    (hhelp : words.has helpForm.name = false) :
    FaithfulPreview s debug (.ofWords words) ((EventOptions.ofWords words).event ref)
      (execute s (commandLine debug .plan args)) (execute s (commandLine debug .run args)) := by
  have href : (EventOptions.ofWords words).ref = some ref := href
  apply FaithfulPreview.execute
  rcases sessionOf_cases hsort hhelp s debug with ⟨session, hstatus, hcalls, hsame⟩ |
    ⟨settings, hload, hplanned, hran⟩
  · rw [hsame, hsame]
    exact .of_eq hcalls (.inl hstatus)
  · rw [hplanned, hran]
    exact .of_load href hload hcalm

/-! ## Small workflows -/

/-- Surroundings with one workflow file, in which every command succeeds. -/
def surroundingsOf (workflow : String) : Surroundings where
  workspace :=
    { root := []
      isDirectory := List.isEmpty
      content? := fun path => if path = ["cigraph.yml"] then some workflow else none }
  environment := .empty
  processors := none
  runner := fun _ => .exited 0 ""
  checkout := ⟨fun _ => .error .notInstalled⟩
  now := ⟨0⟩

/-- The words of a push to the main branch. -/
def pushWords : List String := ["--ref", "main"]

theorem sort_pushWords :
    Words.sort eventForms true pushWords = .ok { given := [⟨"--ref", "main"⟩] } := by
  have hform : eventForms.find? (·.name == "--ref") = some { name := "--ref" } := rfl
  have hsplit : Words.splitValue "--ref" = ("--ref", none) := by decide
  rw [pushWords, Words.sort, if_neg (by decide), if_neg (by decide)]
  simp only [hsplit, hform, Words.sort]
  rfl

/-- A workflow with one job for every push. -/
def smallWorkflow : String :=
  "name: small\non: push\njobs: {build: {steps: [{run: make}]}}\n"

theorem plan_previews_run_small :
    ∃ (plan : Plan) (opened told : Printed),
      plan.decision.runs = true ∧ ¬ LacksName (surroundingsOf smallWorkflow) plan.pipeline ∧
      unshowable? (surroundingsOf smallWorkflow).terminal told = none ∧
      Previews (surroundingsOf smallWorkflow) plan opened told
        (execute (surroundingsOf smallWorkflow) (commandLine false .plan pushWords))
        (execute (surroundingsOf smallWorkflow) (commandLine false .run pushWords)) := by
  have hcalm : ∀ call, (surroundingsOf smallWorkflow).runner call ≠ .interrupted := by
    intro call hcall
    cases hcall
  have hfaithful := plan_previews_run (surroundingsOf smallWorkflow) hcalm false sort_pushWords rfl rfl
  have hload : Settings.load (surroundingsOf smallWorkflow).environment
      (surroundingsOf smallWorkflow).processors = .ok {} := by decide +kernel
  have hgoes : (execute (surroundingsOf smallWorkflow) (commandLine false .plan pushWords)).ending.status ≠
      configurationStatus := by decide +kernel
  -- everything that the preview depends on is found, and can be put into bytes
  have hfound : ((findWorkflow (surroundingsOf smallWorkflow) none).toOption.any fun file =>
      (Pipeline.ofFile (surroundingsOf smallWorkflow).workspace file).toOption.any fun pipeline =>
        (Plan.ofPipeline pipeline { kind := .push, ref := "main" }).toOption.any fun plan =>
          plan.decision.runs && plan.pipeline.secretNames.isEmpty &&
          (unshowable? .utf8 (opening pipeline file { kind := .push, ref := "main" } ++
            decisionOf plan)).isNone &&
          (unshowable? .utf8 ((announcedRun (surroundingsOf smallWorkflow) {}
            (SecretProvider.ofProcess .ofNames "" (surroundingsOf smallWorkflow).environment) pipeline
            { kind := .push, ref := "main" }).printed {} true)).isNone) = true := by
    decide +kernel
  obtain ⟨file, hfind, hfound⟩ := exists_of_any_toOption hfound
  obtain ⟨pipeline, hfile, hfound⟩ := exists_of_any_toOption hfound
  obtain ⟨plan, hplan, hfound⟩ := exists_of_any_toOption hfound
  simp only [Bool.and_eq_true, Option.isNone_iff_eq_none, List.isEmpty_iff] at hfound
  obtain ⟨⟨⟨hruns, hsecrets⟩, hbegins⟩, htold⟩ := hfound
  have hnames : ¬ LacksName (surroundingsOf smallWorkflow) plan.pipeline := by
    simp [LacksName, hsecrets]
  obtain ⟨own, hown, hpreviews⟩ := hfaithful.previews {} file pipeline ⟨hload, hfind, hfile⟩ hgoes
  cases hplan.symm.trans hown
  exact ⟨plan, _, _, hruns, hnames, htold, hpreviews hbegins⟩

/-- A workflow with half a character for its name, whose only job waits for itself. -/
def circularWorkflow : String :=
  "name: \"\\ud83d\"\njobs: {a: {needs: a, steps: [{run: make}]}}\n"

/-- A workflow with half a character for the name of its only job. -/
def untitledWorkflow : String :=
  "on: push\njobs:\n  a:\n    name: \"\\ud83d\"\n    steps: [run: make]\n"

/-- A workflow with half a character for the name of the only secret that it asks for. -/
def secretiveWorkflow : String :=
  "on: push\njobs:\n  a:\n    steps:\n    - run: make\n      secrets:\n        TOKEN: \"\\ud83d\"\n"

/-- What cannot be put into bytes makes a failure of a run that a plan says something else of. The name of a
pipeline is shown before its jobs are looked at, so what a plan refuses may fail. The name of a job is shown
at its end, so there may be no results although nothing has failed; and there are none where a secret
cannot be looked up. -/
theorem run_fails_where_plan_does_not :
    ((execute (surroundingsOf circularWorkflow) (commandLine false .plan pushWords)).ending.status =
        configurationStatus ∧
      (execute (surroundingsOf circularWorkflow) (commandLine false .run pushWords)).ending.status =
        failureStatus) ∧
    ∀ workflow ∈ [untitledWorkflow, secretiveWorkflow],
      (execute (surroundingsOf workflow) (commandLine false .plan pushWords)).ending.status = 0 ∧
      (execute (surroundingsOf workflow) (commandLine false .run pushWords)).ending.status =
        failureStatus ∧
      "RESULTS" ∉ (execute (surroundingsOf workflow) (commandLine false .run pushWords)).printed.out := by
  refine ⟨⟨?_, ?_⟩, List.forall_mem_cons.mpr ⟨⟨?_, ?_, ?_⟩, List.forall_mem_singleton.mpr
    ⟨?_, ?_, ?_⟩⟩⟩
  · decide +kernel
  · decide +kernel
  · decide +kernel
  · decide +kernel
  · decide +kernel
  · decide +kernel
  · decide +kernel
  · decide +kernel

end CiPipeline.CommandLine
