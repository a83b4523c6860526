import CiPipeline.Document.Pipeline
import CiPipeline.Proofs.Condition.Grammar
import CiPipeline.Proofs.Declaration

/-!
Why a document is refused. A document without a pipeline is refused by an error that tells of its
declarations, its conditions or its patterns, with two exceptions, both of which are slips: an event
that is listed may have parts, and a step may have no name and no line of a command to be named by. Main
statement: these two are met exactly where they are said to be met here, and there is no third one.
-/

namespace CiPipeline

/-- An error that tells of a document: of its declarations, of a condition or of a pattern. -/
inductive ConfigurationError.TellsOfDocument : ConfigurationError → Prop
  | declaration (error : DeclarationError) : TellsOfDocument (.declaration error)
  | condition (error : ConditionError) : TellsOfDocument (.condition error)
  | pattern (error : PatternError) : TellsOfDocument (.pattern error)

/-! ## Conditions and patterns -/

theorem tellsOfDocument_of_parse {text : String} {error : ConfigurationError}
    (hfails : Condition.parse text = .error error) : error.TellsOfDocument := by
  unfold Condition.parse at hfails
  split at hfails
  · cases hfails
    exact .condition _
  · split at hfails
    · cases hfails
    · cases hfails
      exact .pattern _
    · cases hfails
      exact .condition _

theorem tellsOfDocument_of_readCondition {written : Option WrittenCondition}
    {error : ConfigurationError} (hfails : readCondition written = .error error) :
    error.TellsOfDocument := by
  cases written with
  | none => cases hfails
  | some written =>
      have hread := map_eq_error_iff.mp hfails
      cases written with
      | expression text => exact tellsOfDocument_of_parse hread
      | condition condition => cases hread

theorem tellsOfDocument_of_readFilter {patterns : Option (List String)}
    {error : ConfigurationError} (hfails : readFilter patterns = .error error) :
    error.TellsOfDocument := by
  cases patterns with
  | none => cases hfails
  | some patterns =>
      obtain ⟨bad, _, rfl⟩ := mapError_eq_error_iff.mp hfails
      exact .pattern bad

theorem PushDocument.tellsOfDocument_of_toTrigger {document : PushDocument}
    {error : ConfigurationError} (hfails : document.toTrigger = .error error) :
    error.TellsOfDocument := by
  rcases bind_eq_error_iff.mp hfails with htags | ⟨_, _, hfails⟩
  · exact tellsOfDocument_of_readFilter htags
  · rcases bind_eq_error_iff.mp hfails with hbranches | ⟨_, _, hreturn⟩
    · exact tellsOfDocument_of_readFilter hbranches
    · cases hreturn

theorem PullRequestDocument.tellsOfDocument_of_toTrigger {document : PullRequestDocument}
    {error : ConfigurationError} (hfails : document.toTrigger = .error error) :
    error.TellsOfDocument := by
  rcases bind_eq_error_iff.mp hfails with hbranches | ⟨_, _, hreturn⟩
  · exact tellsOfDocument_of_readFilter hbranches
  · cases hreturn

theorem EventsDocument.tellsOfDocument_of_toRules {document : EventsDocument}
    {error : ConfigurationError} (hfails : document.toRules = .error error) :
    error.TellsOfDocument := by
  rcases bind_eq_error_iff.mp hfails with hpush | ⟨_, _, hfails⟩
  · obtain ⟨push, _, hfails⟩ := optionMapM_eq_error_iff.mp hpush
    exact push.tellsOfDocument_of_toTrigger hfails
  · rcases bind_eq_error_iff.mp hfails with hpull | ⟨_, _, hreturn⟩
    · obtain ⟨pull, _, hfails⟩ := optionMapM_eq_error_iff.mp hpull
      exact pull.tellsOfDocument_of_toTrigger hfails
    · cases hreturn

/-! ## The name of a step -/

theorem Text.trimWhile_eq_nil_iff {p : Char → Bool} {s : List Char} :
    Text.trimWhile p s = [] ↔ ∀ c ∈ s, p c = true := by
  rw [Text.trimWhile, List.reverse_eq_nil_iff, List.dropWhile_eq_nil_iff]
  constructor
  · intro hall
    rw [← List.dropWhile_eq_nil_iff]
    -- what is left begins with a character outside the class, if it begins at all
    cases hrest : s.dropWhile p with
    | nil => rfl
    | cons c rest =>
        have hfirst := List.head?_dropWhile_not p s
        rw [hrest] at hall hfirst
        have hc : p c = true := hall c (by simp)
        simp [hc] at hfirst
  · intro hall c hc
    exact hall c ((List.dropWhile_suffix p).subset (List.mem_reverse.mp hc))

theorem Text.cutLines_eq_nil_iff {s : List Char} : Text.cutLines s = [] ↔ s = [] := by
  fun_induction Text.cutLines s with
  | case1 => simp
  | case2 rest ih => simp
  | case3 c rest _ hend ih => simp
  | case4 c rest _ hend heq ih => simp
  | case5 c rest _ hend line more heq ih => simp

/-- A step has nothing to be named by: no name of its own, and no line in its command. -/
def StepDocument.IsNameless (step : StepDocument) : Prop :=
  (step.name = none ∨ step.name = some "") ∧
    ∀ c ∈ step.command.toList, Text.isBlank c = true

theorem Text.lines_strip_eq_nil_iff {s : String} :
    Text.lines (Text.strip s) = [] ↔ ∀ c ∈ s.toList, Text.isBlank c = true := by
  rw [Text.lines, List.map_eq_nil_iff, Text.cutLines_eq_nil_iff, Text.strip,
    String.toList_ofList, Text.trimWhile_eq_nil_iff]

theorem StepDocument.label?_eq_none_iff {step : StepDocument} :
    step.label? = none ↔ step.IsNameless := by
  unfold label? IsNameless
  cases step.name with
  | none => simp [Text.lines_strip_eq_nil_iff]
  | some name =>
      by_cases hname : name = ""
      · subst hname
        simp [Text.lines_strip_eq_nil_iff]
      · have hisEmpty : ¬ name.isEmpty = true := fun h => hname (String.isEmpty_iff.mp h)
        simp [hisEmpty, hname]

/-! ## From a document to its pipeline -/

/-- What may be met in the content of a document: a step without a name, or what tells of it. -/
inductive DocumentError.OfContent : DocumentError → Prop
  | namelessStep : OfContent .namelessStep
  | configuration {error : ConfigurationError} (htells : error.TellsOfDocument) :
      OfContent (.configuration error)

theorem StepDocument.ofContent_of_toStep {step : StepDocument} {error : DocumentError}
    (hfails : step.toStep = .error error) : error.OfContent := by
  unfold toStep at hfails
  split at hfails
  · cases hfails
    exact .namelessStep
  · obtain ⟨own, hdeclare, rfl⟩ := mapError_eq_error_iff.mp hfails
    rcases bind_eq_error_iff.mp hdeclare with hcondition | ⟨_, _, hreturn⟩
    · exact .configuration (tellsOfDocument_of_readCondition hcondition)
    · cases hreturn

theorem StepDocument.toStep_eq_namelessStep_iff {step : StepDocument} :
    step.toStep = .error .namelessStep ↔ step.IsNameless := by
  rw [← label?_eq_none_iff]
  unfold toStep
  cases hlabel : step.label? with
  | none => simp
  | some name =>
      refine iff_of_false ?_ (by simp)
      intro hfails
      obtain ⟨own, _, hown⟩ := mapError_eq_error_iff.mp hfails
      cases hown

theorem JobTemplate.tellsOfDocument_of_declare {parts : JobParts} {error : BuildError}
    (hfails : declare parts = .error error) : error.inDocument.TellsOfDocument := by
  rcases declare_cases parts with
    ⟨fault, hdeclare⟩ | ⟨own, hcondition, hdeclare⟩ | ⟨condition, hdeclare, _⟩
  · cases hdeclare.symm.trans hfails
    exact .declaration _
  · cases hdeclare.symm.trans hfails
    exact tellsOfDocument_of_readCondition hcondition
  · cases hdeclare.symm.trans hfails

namespace JobDocument

variable {name : String} {document : JobDocument}

/-- Of the steps of a job a nameless one is met before another one fails. -/
def MeetsNameless (document : JobDocument) : Prop :=
  StopsAt (fun step => ∃ declared, step.toStep = .ok declared) StepDocument.IsNameless document.steps

theorem toTemplate_eq_namelessStep_iff :
    document.toTemplate name = .error .namelessStep ↔ document.MeetsNameless := by
  unfold toTemplate MeetsNameless
  rw [mapM_bind_eq_error_iff]
  · simp only [StepDocument.toStep_eq_namelessStep_iff]
  · intro steps _ hdeclare
    obtain ⟨fault, _, heq⟩ := mapError_eq_error_iff.mp hdeclare
    cases heq

theorem ofContent_of_toTemplate {error : DocumentError}
    (hfails : document.toTemplate name = .error error) : error.OfContent := by
  rcases bind_eq_error_iff.mp hfails with hsteps | ⟨steps, _, hdeclare⟩
  · obtain ⟨_, step, _, _, _, hstep⟩ := mapM_eq_error_iff.mp hsteps
    exact step.ofContent_of_toStep hstep
  · obtain ⟨fault, hfault, rfl⟩ := mapError_eq_error_iff.mp hdeclare
    exact .configuration (JobTemplate.tellsOfDocument_of_declare hfault)

theorem name_of_toTemplate {template : JobTemplate}
    (hok : document.toTemplate name = .ok template) : template.name = name := by
  obtain ⟨steps, _, hdeclare⟩ := bind_eq_ok_iff.mp hok
  exact JobTemplate.name_of_declare (mapError_eq_ok_iff.mp hdeclare)

end JobDocument

namespace PipelineDocument

variable {document : PipelineDocument}

/-- Of the jobs of a document one that meets a nameless step comes before another one fails. -/
def MeetsNameless (document : PipelineDocument) : Prop :=
  StopsAt (fun entry => ∃ template, entry.2.toTemplate entry.1 = .ok template)
    (fun entry => entry.2.MeetsNameless) document.jobs.entries

theorem toPipeline_eq_namelessStep_iff :
    document.toPipeline = .error .namelessStep ↔ document.MeetsNameless := by
  unfold toPipeline MeetsNameless
  rw [mapM_bind_eq_error_iff]
  · simp only [JobDocument.toTemplate_eq_namelessStep_iff]
  · intro jobs _ hdeclare
    obtain ⟨fault, _, heq⟩ := mapError_eq_error_iff.mp hdeclare
    cases heq

/-- The names of jobs that stand in one table are distinct, so putting them together does not fail. -/
theorem declare_of_mapM {jobs : Table String JobDocument} {templates : List JobTemplate}
    (hok : (jobs.entries.mapM fun (name, job) => job.toTemplate name) = .ok templates)
    (name : String) (rules : TriggerRules) :
    Pipeline.declare name rules templates = .ok ⟨name, rules, templates⟩ := by
  have hnames : templates.map JobTemplate.name = jobs.keys :=
    map_eq_map_of_mapM (fun _ _ htemplate => JobDocument.name_of_toTemplate htemplate) hok
  rw [Pipeline.declare, requireDistinct_eq_ok (hnames ▸ jobs.nodup_keys)]
  rfl

theorem ofContent_of_toPipeline {error : DocumentError}
    (hfails : document.toPipeline = .error error) : error.OfContent := by
  rcases bind_eq_error_iff.mp hfails with hjobs | ⟨templates, hjobs, hdeclare⟩
  · obtain ⟨_, entry, _, _, _, hentry⟩ := mapM_eq_error_iff.mp hjobs
    exact entry.2.ofContent_of_toTemplate hentry
  · obtain ⟨fault, hfault, rfl⟩ := mapError_eq_error_iff.mp hdeclare
    rcases bind_eq_error_iff.mp hfault with hrules | ⟨rules, _, hfault⟩
    · exact .configuration (document.events.tellsOfDocument_of_toRules hrules)
    · rw [declare_of_mapM hjobs] at hfault
      cases hfault

end PipelineDocument

/-! ## Events with parts -/

/-- A value has parts: it is a list, a set or a mapping, or a pair of which one has some. -/
inductive Value.HasParts : Value → Prop
  | list (items : List Value) : HasParts (.list items)
  | set (items : List Value) : HasParts (.set items)
  | mapping (entries : List (Value × Value)) : HasParts (.mapping entries)
  | first {first : Value} (second : Value) (hfirst : HasParts first) :
      HasParts (.pair first second)
  | second (first : Value) {second : Value} (hsecond : HasParts second) :
      HasParts (.pair first second)
  | knot (mark : Nat) {content : Value} (hcontent : HasParts content) :
      HasParts (.knot mark content)

theorem Value.hasParts_pair_iff {first second : Value} :
    (Value.pair first second).HasParts ↔ first.HasParts ∨ second.HasParts := by
  constructor
  · intro hparts
    cases hparts with
    | first _ hfirst => exact Or.inl hfirst
    | second _ hsecond => exact Or.inr hsecond
  · intro hparts
    exact hparts.elim (.first second) (.second first)

theorem Value.hasParts_knot_iff {mark : Nat} {content : Value} :
    (Value.knot mark content).HasParts ↔ content.HasParts := by
  constructor
  · intro hparts
    cases hparts with
    | knot _ hcontent => exact hcontent
  · exact .knot mark

theorem Composite.isSome_ofValue?_iff {value : Value} :
    (ofValue? value).isSome = true ↔ value.HasParts := by
  fun_induction ofValue? value with
  | case1 items => exact iff_of_true rfl (.list items)
  | case2 items => exact iff_of_true rfl (.set items)
  | case3 entries => exact iff_of_true rfl (.mapping entries)
  | case4 first second ihfirst ihsecond =>
      rw [Value.hasParts_pair_iff, ← ihfirst, ← ihsecond]
      cases ofValue? first with
      | none => simp
      | some found => simp
  | case5 mark content ih => exact ih.trans Value.hasParts_knot_iff.symm
  | case6 value hlist hset hmapping hpair hknot =>
      refine iff_of_false (by simp) ?_
      intro hparts
      cases hparts with
      | list items => exact hlist items rfl
      | set items => exact hset items rfl
      | mapping entries => exact hmapping entries rfl
      | first second _ => exact hpair _ second rfl
      | second first _ => exact hpair first _ rfl
      | knot mark _ => exact hknot mark _ rfl

namespace Document

/-- The fields of a document, with the events under their own key. -/
def fields? (document : Value) : Option Fields :=
  document.entries?.map restoreEventsKey

/-- The events of a document are a list, and one of the listed has parts. -/
def ListsParts (document : Value) : Prop :=
  ∃ fields events, fields? document = some fields ∧
    (Value.field? eventsKey fields).bind Value.listed? = some events ∧
    ∃ event ∈ events, event.HasParts

/-- A document has the shape of a pipeline, and this content. -/
def Means (document : Value) (content : PipelineDocument) : Prop :=
  ∃ fields, fields? document = some fields ∧
    PipelineDocument.read (.mapping fields) = .meaning content

/-- A document has the shape of a pipeline, and a nameless step is met in its content. -/
def MeetsNameless (document : Value) : Prop :=
  ∃ content, Means document content ∧ content.MeetsNameless

theorem exists_compositeEvent?_iff {document : Value} {fields : Fields}
    (hfields : fields? document = some fields) :
    (∃ found, compositeEvent? fields = some found) ↔ ListsParts document := by
  unfold compositeEvent? ListsParts
  rw [hfields]
  cases hlisted : (Value.field? eventsKey fields).bind Value.listed? with
  | none => simp [hlisted]
  | some events =>
      rw [← Option.isSome_iff_exists, List.isSome_findSome?]
      simp [hlisted, Composite.isSome_ofValue?_iff]

theorem Means.unique {document : Value} {content other : PipelineDocument}
    (hmeans : Means document content) (hother : Means document other) : other = content := by
  obtain ⟨fields, hfields, hread⟩ := hmeans
  obtain ⟨own, hown, hreadown⟩ := hother
  cases hfields.symm.trans hown
  cases hread.symm.trans hreadown
  rfl

theorem means_iff {document : Value} {fields : Fields} (hfields : fields? document = some fields)
    {content : PipelineDocument} :
    Means document content ↔ PipelineDocument.read (.mapping fields) = .meaning content := by
  simp [Means, hfields]

end Document

open Document

/-- A document is looked at in this order: it must be a mapping, the events that it lists must have no
parts, and it must have the shape of a pipeline; after that its content is all that counts. -/
theorem Pipeline.ofDocument_cases (document : Value) :
    (ListsParts document ∧ ∃ found, ofDocument document = .error (.eventNotScalar found)) ∨
    (¬ ListsParts document ∧ (∀ content, ¬ Means document content) ∧
      ∃ error, ofDocument document = .error (.configuration (.declaration error))) ∨
    ¬ ListsParts document ∧ ∃ content, Means document content ∧
      ofDocument document = content.toPipeline := by
  unfold ofDocument
  cases hentries : document.entries? with
  | none =>
      have hfields : fields? document = none := by rw [fields?, hentries, Option.map_none]
      exact Or.inr (Or.inl ⟨by simp [ListsParts, hfields], by simp [Means, hfields], _, rfl⟩)
  | some entries =>
      have hfields : fields? document = some (restoreEventsKey entries) := by
        rw [fields?, hentries, Option.map_some]
      rw [← exists_compositeEvent?_iff hfields]
      simp only [means_iff hfields]
      cases hevents : compositeEvent? (restoreEventsKey entries) with
      | some found => exact Or.inl ⟨⟨found, rfl⟩, found, rfl⟩
      | none =>
          right
          cases hread : PipelineDocument.read (.mapping (restoreEventsKey entries)) with
          | refused issues => exact Or.inl ⟨by simp, by simp, _, rfl⟩
          | meaning content => exact Or.inr ⟨by simp, content, rfl, rfl⟩

/-- A document declares a pipeline or is refused by what tells of it, unless it meets one of two slips: an
event that is listed may have parts, and a step may have nothing to be named by. -/
theorem Pipeline.ofDocument_refuses_by_configuration (document : Value) :
    (((∃ pipeline, ofDocument document = .ok pipeline) ∨
        ∃ error, ofDocument document = .error (.configuration error) ∧ error.TellsOfDocument) ↔
      ¬ ListsParts document ∧ ¬ MeetsNameless document) ∧
    ((∃ found, ofDocument document = .error (.eventNotScalar found)) ↔ ListsParts document) ∧
    (ofDocument document = .error .namelessStep ↔
      ¬ ListsParts document ∧ MeetsNameless document) := by
  rcases ofDocument_cases document with
    ⟨hlists, found, hfails⟩ | ⟨hlists, hmeans, error, hfails⟩ | ⟨hlists, content, hmeans, hcontent⟩
  · simp [hfails, hlists]
  · have hnameless : ¬ MeetsNameless document := fun ⟨content, hcontent, _⟩ => hmeans content hcontent
    simp [hfails, hlists, hnameless, ConfigurationError.TellsOfDocument.declaration]
  · have hnameless : MeetsNameless document ↔ content.toPipeline = .error .namelessStep := by
      rw [content.toPipeline_eq_namelessStep_iff]
      constructor
      · rintro ⟨other, hother, hmeets⟩
        exact hmeans.unique hother ▸ hmeets
      · exact fun hmeets => ⟨content, hmeans, hmeets⟩
    rw [hcontent, hnameless]
    cases hpipeline : content.toPipeline with
    | ok pipeline => simp [hlists]
    | error error =>
        cases content.ofContent_of_toPipeline hpipeline with
        | namelessStep => simp [hlists]
        | configuration htells => simp [hlists, htells]

/-- Both slips are met by small documents: one has a step without a name and a blank command, and the
other one lists an event in a list of its own. -/
theorem Pipeline.ofDocument_slips_blank_command :
    (ofDocument (.mapping [(.text "jobs", .mapping [(.text "build", .mapping [(.text "steps",
        .list [.mapping [(.text "run", .text " ")]])])])]) = .error .namelessStep ∧
      ofDocument (.mapping [(.text "on", .list [.list [.text "push"]])]) =
        .error (.eventNotScalar .list)) ∧
    ¬ ∀ document : Value, (∃ pipeline, ofDocument document = .ok pipeline) ∨
      ∃ error, ofDocument document = .error (.configuration error) := by
  refine ⟨⟨rfl, rfl⟩, ?_⟩
  intro hall
  rcases hall (.mapping [(.text "on", .list [.list [.text "push"]])]) with
    ⟨pipeline, hok⟩ | ⟨error, hfails⟩
  · cases hok
  · cases hfails

end CiPipeline
