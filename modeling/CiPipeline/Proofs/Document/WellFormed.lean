import CiPipeline.Proofs.Document.Reading
import CiPipeline.Proofs.Document.Refusal
import CiPipeline.Proofs.Plan
import CiPipeline.Proofs.Table
import Mathlib.Data.List.DropRight

/-!
What can be relied on of a pipeline that a document declares. Every job has steps, every step a name
and every axis values, no axis is named like the rules of the matrix, and no time limit is without
time. Main statement: this holds of every document that declares a pipeline at all, and there is one
job for each name that the keys of its jobs are read as. Bytes are read as the text that they encode,
so two keys may be one name.
-/

namespace CiPipeline

open Document

/-! ## The name of a step -/

namespace Text

theorem isBlank_of_isLineEnd {c : Char} (hend : isLineEnd c = true) : isBlank c = true := by
  have hcode : c.toNat ∈ [0x0a, 0x0b, 0x0c, 0x0d, 0x1c, 0x1d, 0x1e, 0x85, 0x2028, 0x2029] := by
    simpa only [isLineEnd, decide_eq_true_eq] using hend
  have hall : ∀ code ∈ [0x0a, 0x0b, 0x0c, 0x0d, 0x1c, 0x1d, 0x1e, 0x85, 0x2028, 0x2029],
      inRanges blankRanges code = true := by decide
  exact hall c.toNat hcode

/-- What is left between the characters of a class at both ends does not begin with one of them. -/
theorem not_of_trimWhile_eq_cons {p : Char → Bool} {s rest : List Char} {c : Char}
    (htrim : trimWhile p s = c :: rest) : p c = false := by
  have hprefix : c :: rest <+: s.dropWhile p := htrim ▸ List.rdropWhile_prefix p (s.dropWhile p)
  obtain ⟨more, hmore⟩ := hprefix
  have hfirst := List.head?_dropWhile_not p s
  rw [← hmore] at hfirst
  simpa using hfirst

/-- A text has an empty first line only if it begins with the end of it. -/
theorem exists_lineEnd_of_cutLines {s : List Char} {more : List (List Char)}
    (hlines : cutLines s = [] :: more) : ∃ c rest, s = c :: rest ∧ isLineEnd c = true := by
  fun_cases cutLines s with
  | case1 => simp [cutLines] at hlines
  | case2 rest => exact ⟨'\r', '\n' :: rest, rfl, by decide⟩
  | case3 c rest _ hend => exact ⟨c, rest, rfl, hend⟩
  | case4 c rest hpair hend hcut => simp [cutLines, hend, hcut] at hlines
  | case5 c rest hpair hend line others hcut => simp [cutLines, hend, hcut] at hlines

/-- The first line of a stripped text has characters. -/
theorem ne_empty_of_head?_lines_strip {s line : String}
    (hline : (lines (strip s)).head? = some line) : line ≠ "" := by
  rw [lines, strip, String.toList_ofList] at hline
  rintro rfl
  cases hcut : cutLines (trimWhile isBlank s.toList) with
  | nil =>
      rw [hcut] at hline
      cases hline
  | cons first more =>
      have hfirst : first = [] := by simpa [hcut] using hline
      obtain ⟨c, rest, htrim, hend⟩ := exists_lineEnd_of_cutLines (hfirst ▸ hcut)
      have hblank := isBlank_of_isLineEnd hend
      rw [not_of_trimWhile_eq_cons htrim] at hblank
      cases hblank

end Text

theorem StepDocument.ne_empty_of_label? {step : StepDocument} {name : String}
    (hlabel : step.label? = some name) : name ≠ "" := by
  unfold label? at hlabel
  split at hlabel
  · exact Text.ne_empty_of_head?_lines_strip hlabel
  · split at hlabel
    · exact Text.ne_empty_of_head?_lines_strip hlabel
    · next hname =>
        cases hlabel
        exact fun heq => hname (String.isEmpty_iff.mpr heq)

/-! ## Jobs -/

/-- There is some time in an amount of it. -/
def Seconds.IsPositive : Seconds → Prop
  | whole n => 0 < n
  | binary x => x.isPositive = true

/-- What is relied on of a job. -/
structure JobTemplate.WellFormed (job : JobTemplate) : Prop where
  steps_ne_nil : job.steps ≠ []
  named : ∀ step ∈ job.steps, step.name ≠ ""
  limits_positive : ∀ step ∈ job.steps, ∀ limit, step.timeout = some limit → limit.IsPositive
  nodup_axes : job.axes.keys.Nodup
  axis_ne_nil : ∀ axis ∈ job.axes.entries, axis.2 ≠ []
  exclude_not_axis : "exclude" ∉ job.axes.keys

theorem readPositive_isPositive {value : Value} {x : Number.Binary64}
    (hread : readPositive value = .meaning x) : x.isPositive = true := by
  obtain ⟨own, _, hlook⟩ := Reading.andThen_eq_meaning_iff.mp hread
  split at hlook
  · next hpositive =>
      cases hlook
      exact hpositive
  · cases hlook

/-- A step that was read from a document has no limit without time. -/
theorem StepDocument.isPositive_of_read {value : Value} {step : StepDocument}
    (hread : read value = .meaning step) {limit : Number.Binary64}
    (hlimit : step.timeout = some limit) : limit.isPositive = true := by
  obtain ⟨fields, _, hfields⟩ := exists_of_objectOf hread
  simp only [readFields, Reading.ap_eq_meaning_iff, Reading.map_eq_meaning_iff] at hfields
  obtain ⟨_, timeout, ⟨_, _, ⟨_, _, ⟨_, _, ⟨_, _, ⟨_, _, ⟨_, _, rfl⟩, _, rfl⟩, _, rfl⟩, _, rfl⟩, _,
    rfl⟩, _, rfl⟩, htimeout, rfl⟩ := hfields
  cases hlimit
  obtain ⟨written, hwritten⟩ := optionalField_eq_meaning_some htimeout
  exact readPositive_isPositive hwritten

/-- A step that is declared has a name, and the limit that was written for it. -/
theorem StepDocument.exists_of_toStep {document : StepDocument} {step : Step}
    (hok : document.toStep = .ok step) :
    step.name ≠ "" ∧ step.timeout = document.timeout.map .binary := by
  unfold toStep at hok
  split at hok
  · cases hok
  · next name hlabel =>
      have hdeclare := mapError_eq_ok_iff.mp hok
      obtain ⟨condition, _, hreturn⟩ := bind_eq_ok_iff.mp hdeclare
      cases hreturn
      exact ⟨ne_empty_of_label? hlabel, rfl⟩

namespace MatrixDocument

/-- The axes of a matrix come from its entries, and each has values. The entry of the rules is none. -/
theorem mem_of_ofEntries {entries : List (String × List Value)} {matrix : MatrixDocument}
    (hok : ofEntries entries = .ok matrix) {axis : String × List Value}
    (haxis : axis ∈ matrix.axes) : axis.1 ≠ excludeKey ∧ axis.2 ≠ [] := by
  induction entries generalizing matrix with
  | nil =>
      cases hok
      cases haxis
  | cons entry rest ih =>
      obtain ⟨name, values⟩ := entry
      unfold ofEntries at hok
      split at hok
      · split at hok
        · cases hok
        · obtain ⟨own, hown, hreturn⟩ := bind_eq_ok_iff.mp hok
          cases hreturn
          exact ih hown haxis
      · next hname =>
          split at hok
          · cases hok
          · next hvalues =>
              split at hok
              · cases hok
              · obtain ⟨own, hown, hreturn⟩ := bind_eq_ok_iff.mp hok
                cases hreturn
                rcases List.mem_cons.mp haxis with rfl | haxis
                · exact ⟨hname, fun hnil => hvalues (List.isEmpty_iff.mpr hnil)⟩
                · exact ih hown haxis

theorem mem_of_read {value : Value} {matrix : MatrixDocument} (hread : read value = .meaning matrix)
    {axis : String × List Value} (haxis : axis ∈ matrix.axes) :
    axis.1 ≠ excludeKey ∧ axis.2 ≠ [] := by
  obtain ⟨table, _, hlook⟩ := Reading.andThen_eq_meaning_iff.mp hread
  split at hlook
  · next own hown =>
      cases hlook
      exact mem_of_ofEntries hown haxis
  · cases hlook

end MatrixDocument

/-- What reading leaves for sure of a job of a document. -/
structure JobDocument.Sound (document : JobDocument) : Prop where
  limits_positive : ∀ step ∈ document.steps, ∀ limit, step.timeout = some limit →
    limit.isPositive = true
  axes : ∀ axis ∈ document.matrix.axes, axis.1 ≠ MatrixDocument.excludeKey ∧ axis.2 ≠ []

theorem JobDocument.sound_of_read {value : Value} {document : JobDocument}
    (hread : read value = .meaning document) : document.Sound := by
  obtain ⟨fields, _, hfields⟩ := exists_of_objectOf hread
  simp only [readFields, Reading.ap_eq_meaning_iff, Reading.map_eq_meaning_iff] at hfields
  obtain ⟨_, steps, ⟨_, matrix, ⟨_, _, ⟨_, _, ⟨_, _, ⟨_, _, rfl⟩, _, rfl⟩, _, rfl⟩, _, rfl⟩, hmatrix,
    rfl⟩, hsteps, rfl⟩ := hfields
  constructor
  · intro step hstep limit hlimit
    obtain ⟨listed, _, hlisted⟩ := exists_of_required hsteps
    obtain ⟨items, _, hitems⟩ := exists_of_listOf (requireSome_eq_meaning_iff.mp hlisted).1
    obtain ⟨item, _, hitem⟩ := exists_of_mem_forall₂ hitems hstep
    exact StepDocument.isPositive_of_read hitem hlimit
  · intro axis haxis
    rcases eq_or_exists_of_defaulted hmatrix with rfl | ⟨written, _, hwritten⟩
    · cases haxis
    · exact MatrixDocument.mem_of_read hwritten haxis

theorem JobDocument.wellFormed_of_toTemplate {name : String} {document : JobDocument}
    {template : JobTemplate} (hsound : document.Sound)
    (hok : document.toTemplate name = .ok template) : template.WellFormed := by
  obtain ⟨steps, hsteps, hdeclare⟩ := bind_eq_ok_iff.mp hok
  obtain ⟨condition, rfl, hsome, hvalues⟩ :=
    JobTemplate.of_declare (mapError_eq_ok_iff.mp hdeclare)
  have hdeclared : ∀ step ∈ steps.map (Step.withDefaultCwd none), ∃ own ∈ document.steps,
      step.name ≠ "" ∧ step.timeout = own.timeout.map .binary := by
    intro step hstep
    obtain ⟨declared, hmem, rfl⟩ := List.mem_map.mp hstep
    obtain ⟨own, hown, htoStep⟩ := exists_of_mem_forall₂ (forall₂_of_mapM hsteps) hmem
    obtain ⟨hname, htimeout⟩ := StepDocument.exists_of_toStep htoStep
    exact ⟨own, hown, hname, htimeout⟩
  refine
    { steps_ne_nil := by simpa [JobParts.template] using hsome
      named := ?_
      limits_positive := ?_
      nodup_axes := Table.nodup_keys _
      axis_ne_nil := ?_
      exclude_not_axis := ?_ }
  · intro step hstep
    obtain ⟨_, _, hname, _⟩ := hdeclared step hstep
    exact hname
  · intro step hstep limit hlimit
    obtain ⟨own, hown, _, htimeout⟩ := hdeclared step hstep
    rw [htimeout] at hlimit
    obtain ⟨written, hwritten, rfl⟩ := Option.map_eq_some_iff.mp hlimit
    exact hsound.limits_positive own hown written hwritten
  · intro axis haxis
    obtain ⟨written, hwritten, rfl⟩ := List.mem_map.mp haxis
    simpa using hvalues written hwritten
  · rw [JobParts.template, Table.keys_mapValues, Table.mem_keys_ofList_iff]
    intro hexclude
    obtain ⟨axis, haxis, hname⟩ := List.mem_map.mp hexclude
    exact (hsound.axes axis haxis).1 hname

/-! ## Jobs by name -/

theorem Value.field?_append (name : String) (first rest : Fields) :
    field? name (first ++ rest) = (field? name first).or (field? name rest) := by
  induction first with
  | nil => rfl
  | cons entry first ih =>
      obtain ⟨key, value⟩ := entry
      cases key with
      | text own =>
          simp only [List.cons_append, field?, ih]
          split <;> rfl
      | _ => exact ih

namespace Document

/-- Taking out the keys that count as true takes out no text. -/
theorem field?_filter_not_isTrue (name : String) (fields : Fields) :
    Value.field? name (fields.filter fun entry => !isTrue entry.1) = Value.field? name fields := by
  induction fields with
  | nil => rfl
  | cons entry rest ih =>
      obtain ⟨key, value⟩ := entry
      cases key with
      | text own =>
          have hkept : isTrue (.text own) = false := rfl
          simp [hkept, Value.field?, ih]
      | _ =>
          rw [List.filter_cons]
          split <;> exact ih

/-- Putting the events under their own key changes no other one. -/
theorem field?_restoreEventsKey {name : String} (hother : name ≠ eventsKey) (fields : Fields) :
    Value.field? name (restoreEventsKey fields) = Value.field? name fields := by
  unfold restoreEventsKey
  split
  · rfl
  · split
    · rw [Value.field?_append, field?_filter_not_isTrue, Value.field?, if_neg hother.symm]
      exact Option.or_none
    · rfl

/-- The entries of the jobs of a document. -/
def jobEntries? (document : Value) : Option Fields :=
  (document.entries?.bind (Value.field? "jobs")).bind Value.entries?

/-- The value of the last of some entries whose key is read as a name. -/
def LastNamed (entries : Fields) (name : String) (value : Value) : Prop :=
  ∃ before key after, entries = before ++ (key, value) :: after ∧ readText key = .meaning name ∧
    ∀ entry ∈ after, readText entry.1 ≠ .meaning name

/-- What the entries of the jobs of a document mean is what is left of them by name. -/
theorem exists_jobEntries_of_means {document : Value} {content : PipelineDocument}
    (hmeans : Means document content) :
    ∃ entries named, jobEntries? document = some entries ∧ content.jobs = .ofList named ∧
      List.Forall₂ (fun entry part => readText entry.1 = .meaning part.1 ∧
        JobDocument.read entry.2 = .meaning part.2) entries named := by
  obtain ⟨fields, hfields, hread⟩ := hmeans
  obtain ⟨own, hown, rfl⟩ := Option.map_eq_some_iff.mp hfields
  obtain ⟨_, hopened, hobject⟩ := exists_of_objectOf hread
  cases hopened
  simp only [Reading.ap_eq_meaning_iff, Reading.map_eq_meaning_iff] at hobject
  obtain ⟨_, jobs, ⟨_, _, ⟨_, _, rfl⟩, _, rfl⟩, hjobs, rfl⟩ := hobject
  obtain ⟨value, hvalue, hrequired⟩ := exists_of_required hjobs
  obtain ⟨entries, named, hentries, htable, hnamed⟩ :=
    exists_of_mappingOf (meaning_of_requireEntry hrequired)
  rw [field?_restoreEventsKey (by decide)] at hvalue
  exact ⟨entries, named, by simp [jobEntries?, hown, hvalue, hentries], htable, hnamed⟩

end Document

/-- The jobs of a pipeline are those that some entries declare: one for each name that the keys are
read as, in the order in which the names first occur, and declared by the last entry of the name. -/
structure Pipeline.DeclaredBy (pipeline : Pipeline) (entries : Fields) : Prop where
  names : ∃ names, List.Forall₂ (fun entry name => readText entry.1 = .meaning name) entries names ∧
    pipeline.jobNames = names.eraseDups ∧ (names.Nodup → pipeline.jobNames = names)
  bodies : ∀ job ∈ pipeline.jobs, ∃ value content, LastNamed entries job.name value ∧
    JobDocument.read value = .meaning content ∧ content.toTemplate job.name = .ok job

theorem PipelineDocument.jobs_of_toPipeline {content : PipelineDocument} {pipeline : Pipeline}
    (hok : content.toPipeline = .ok pipeline) :
    (content.jobs.entries.mapM fun (name, job) => job.toTemplate name) = .ok pipeline.jobs := by
  obtain ⟨templates, htemplates, hdeclare⟩ := bind_eq_ok_iff.mp hok
  obtain ⟨rules, _, hpipeline⟩ := bind_eq_ok_iff.mp (mapError_eq_ok_iff.mp hdeclare)
  rw [declare_of_mapM htemplates] at hpipeline
  cases hpipeline
  exact htemplates

theorem PipelineDocument.jobNames_of_toPipeline {content : PipelineDocument} {pipeline : Pipeline}
    (hok : content.toPipeline = .ok pipeline) : pipeline.jobNames = content.jobs.keys :=
  map_eq_map_of_mapM (fun _ _ htemplate => JobDocument.name_of_toTemplate htemplate)
    (jobs_of_toPipeline hok)

/-- Each job comes from the entry of the table under its name. -/
theorem PipelineDocument.exists_of_mem_jobs {content : PipelineDocument} {pipeline : Pipeline}
    (hok : content.toPipeline = .ok pipeline) {job : JobTemplate} (hjob : job ∈ pipeline.jobs) :
    ∃ body, content.jobs.get? job.name = some body ∧ body.toTemplate job.name = .ok job := by
  obtain ⟨⟨name, body⟩, hbody, htemplate⟩ :=
    exists_of_mem_forall₂ (forall₂_of_mapM (jobs_of_toPipeline hok)) hjob
  cases JobDocument.name_of_toTemplate htemplate
  exact ⟨body, Table.get?_eq_some_iff.mpr hbody, htemplate⟩

theorem Pipeline.declaredBy_of_toPipeline {content : PipelineDocument} {pipeline : Pipeline}
    {entries : Fields} {named : List (String × JobDocument)} (htable : content.jobs = .ofList named)
    (hnamed : List.Forall₂ (fun entry part => readText entry.1 = .meaning part.1 ∧
      JobDocument.read entry.2 = .meaning part.2) entries named)
    (hok : content.toPipeline = .ok pipeline) : pipeline.DeclaredBy entries := by
  have hnames := PipelineDocument.jobNames_of_toPipeline hok
  constructor
  · refine ⟨named.map Prod.fst, ?_, ?_, ?_⟩
    · exact List.forall₂_map_right_iff.mpr (hnamed.imp fun _ _ hpart => hpart.1)
    · rw [hnames, htable, Table.keys_ofList]
    · intro hnodup
      rw [hnames, htable, Table.keys, Table.entries_ofList_of_nodup hnodup]
  · intro job hjob
    obtain ⟨body, hbody, htemplate⟩ := PipelineDocument.exists_of_mem_jobs hok hjob
    rw [htable] at hbody
    obtain ⟨before, after, rfl, hlast⟩ := Table.exists_last_of_get?_ofList hbody
    obtain ⟨first, ⟨key, value⟩, rest, rfl, ⟨hkey, hread⟩, hrest⟩ := exists_split_of_forall₂ hnamed
    refine ⟨value, body, ⟨first, key, rest, rfl, hkey, ?_⟩, hread, htemplate⟩
    intro entry hentry hsame
    obtain ⟨part, hpart, hown, _⟩ := exists_of_mem_forall₂ hrest.flip hentry
    have hname : part.1 = job.name := Reading.meaning.inj (hown.symm.trans hsame)
    exact hlast (hname ▸ List.mem_map_of_mem hpart)

/-- A pipeline that a document declares is well formed: its jobs are those that the entries of the
document's jobs declare, with distinct names; each has steps with names and limits above zero, and
axes with distinct names and some values, none of them named like the rules of a matrix. For every
event there is a plan, or the first fault of the declaration is reported. -/
theorem Pipeline.ofDocument_wellFormed {document : Value} {pipeline : Pipeline}
    (hok : ofDocument document = .ok pipeline) :
    (∃ entries, jobEntries? document = some entries ∧ pipeline.DeclaredBy entries) ∧
      pipeline.jobNames.Nodup ∧ (∀ job ∈ pipeline.jobs, job.WellFormed) ∧
      ∀ event, (∃ plan, Plan.ofPipeline pipeline event = .ok plan) ∨
        ∃ error, Plan.ofPipeline pipeline event = .error error ∧ pipeline.FirstFault error := by
  rcases ofDocument_cases document with
    ⟨_, _, hfails⟩ | ⟨_, _, _, hfails⟩ | ⟨_, content, hmeans, hcontent⟩
  · cases hfails.symm.trans hok
  · cases hfails.symm.trans hok
  · have htoPipeline := hcontent.symm.trans hok
    obtain ⟨entries, named, hentries, htable, hnamed⟩ := exists_jobEntries_of_means hmeans
    refine ⟨⟨entries, hentries, declaredBy_of_toPipeline htable hnamed htoPipeline⟩, ?_, ?_, ?_⟩
    · rw [PipelineDocument.jobNames_of_toPipeline htoPipeline]
      exact content.jobs.nodup_keys
    · intro job hjob
      obtain ⟨body, hbody, htemplate⟩ := PipelineDocument.exists_of_mem_jobs htoPipeline hjob
      rw [htable] at hbody
      obtain ⟨before, after, rfl, _⟩ := Table.exists_last_of_get?_ofList hbody
      obtain ⟨_, _, _, _, ⟨_, hread⟩, _⟩ := exists_split_of_forall₂ hnamed
      exact JobDocument.wellFormed_of_toTemplate (JobDocument.sound_of_read hread) htemplate
    · intro event
      rw [Plan.ofPipeline_eq]
      rcases Plan.graphOf_cases pipeline with ⟨⟨graph, hgraph⟩, _⟩ | ⟨error, herror, hfault⟩
      · exact Or.inl ⟨_, by rw [hgraph]; rfl⟩
      · exact Or.inr ⟨error, by rw [herror]; rfl, hfault⟩

/-- Two jobs, the name of the second in bytes. -/
def encodedDocument : Value :=
  .mapping [(.text "jobs", .mapping [
    (.text "a", .mapping [(.text "steps", .list [.mapping [(.text "run", .text "make")]])]),
    (.bytes [97], .mapping [(.text "steps", .list [.mapping [(.text "run", .text "test")]])])])]

theorem jobNames_encodedDocument :
    (Pipeline.ofDocument encodedDocument).map Pipeline.jobNames = .ok ["a"] := by
  decide +kernel

theorem Pipeline.ofDocument_wellFormed_encoded :
    ∃ pipeline, ofDocument encodedDocument = .ok pipeline ∧ pipeline.jobNames.Nodup ∧
      ∀ job ∈ pipeline.jobs, job.WellFormed := by
  obtain ⟨pipeline, hok, _⟩ := map_eq_ok_iff.mp jobNames_encodedDocument
  obtain ⟨_, hnames, hjobs, _⟩ := ofDocument_wellFormed hok
  exact ⟨pipeline, hok, hnames, hjobs⟩

/-- There need not be a job for each entry: bytes are read as a text, which another key may be. -/
theorem Pipeline.ofDocument_joins_names :
    (∃ entries, jobEntries? encodedDocument = some entries ∧ entries.length = 2) ∧
      (ofDocument encodedDocument).map Pipeline.jobNames = .ok ["a"] ∧
    ¬ ∀ document pipeline entries, ofDocument document = .ok pipeline →
      jobEntries? document = some entries → pipeline.jobs.length = entries.length := by
  obtain ⟨pipeline, hok, hnames⟩ := map_eq_ok_iff.mp jobNames_encodedDocument
  refine ⟨⟨_, rfl, rfl⟩, jobNames_encodedDocument, ?_⟩
  intro hall
  have hlength := hall encodedDocument pipeline _ hok rfl
  have hone := congrArg List.length hnames
  rw [jobNames, List.length_map, hlength] at hone
  cases hone

end CiPipeline
