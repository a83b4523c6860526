import CiPipeline.Proofs.Completion
import CiPipeline.Proofs.Plan
import CiPipeline.Proofs.Text.Occurrence
import CiPipeline.Report.Value

/-!
The exported report and its jobs. Each job stands under the text of its identity, and different
identities may have one text: then the export has the last of them only, and a look-up by the text
finds the first. Every job is exported exactly if no two texts are the same, which is so where the
names of jobs and the values of axes do not have what separates them in a text.
-/

namespace CiPipeline

/-! ## Mappings with textual keys -/

namespace Value

/-- The entry of a field in a mapping. -/
def ofField (field : String × Value) : Value × Value :=
  (.text field.1, field.2)

@[simp] theorem sameKey_text (a b : String) : sameKey (.text a) (.text b) = (a == b) := rfl

theorem writeEntry_ofField (name : String) (value : Value) (fields : List (String × Value)) :
    writeEntry (.text name) value (fields.map ofField) =
      (Table.write name value fields).map ofField := by
  induction fields with
  | nil => rfl
  | cons field rest ih =>
      obtain ⟨key, old⟩ := field
      by_cases hsame : key = name
      · simp [writeEntry, Table.write, ofField, hsame]
      · simp [writeEntry, Table.write, ofField, hsame, ih]

theorem ofFields_eq (fields : List (String × Value)) :
    ofFields fields = .mapping ((Table.ofList fields).entries.map ofField) := by
  have hwrite : ∀ table : Table String Value,
      (fields.map ofField).foldl (fun written entry => writeEntry entry.1 entry.2 written)
        (table.entries.map ofField) = (table.insertAll fields).entries.map ofField := by
    induction fields with
    | nil => exact fun table => rfl
    | cons field rest ih =>
        intro table
        rw [List.map_cons, List.foldl_cons]
        change (rest.map ofField).foldl _
          (writeEntry (.text field.1) field.2 (table.entries.map ofField)) = _
        rw [writeEntry_ofField]
        exact ih (table.insert field.1 field.2)
  exact congrArg Value.mapping (hwrite .empty)

theorem field?_map_ofField (name : String) (fields : List (String × Value)) :
    field? name (fields.map ofField) = Table.lookup name fields := by
  induction fields with
  | nil => rfl
  | cons field rest ih =>
      obtain ⟨key, value⟩ := field
      rw [List.map_cons, ofField, field?, Table.lookup, ih]

/-- The value of a field of a mapping. -/
def fieldOf? (name : String) : Value → Option Value
  | .mapping entries => field? name entries
  | _ => none

theorem fieldOf?_ofFields (name : String) (fields : List (String × Value)) :
    (ofFields fields).fieldOf? name = Table.lookup name fields.reverse := by
  rw [ofFields_eq, fieldOf?, field?_map_ofField]
  exact Table.get?_ofList fields name

end Value

/-! ## The exported jobs -/

namespace RunReport

variable {report : RunReport} {ids : List InstanceId} {entries : List (Value × Value)}

/-- What every export of some instances is like, given the entries of its jobs: one entry for each text
of an identity, with the record of the last instance of this text, while a look-up by the text finds
the record of the first. -/
structure Exports (report : RunReport) (ids : List InstanceId) (entries : List (Value × Value)) :
    Prop where
  jobs_eq : report.toValue.fieldOf? "jobs" = some (.mapping entries)
  nodup_keys : (entries.map Prod.fst).Nodup
  mem_keys_iff : ∀ key, key ∈ entries.map Prod.fst ↔ ∃ id ∈ ids, key = .text id.text
  field?_eq : ∀ text, Value.field? text entries =
    ((ids.reverse.find? fun id => id.text == text).bind report.byId?).map JobRecord.toValue
  byText?_eq : ∀ text, report.byText? text =
    (ids.find? fun id => id.text == text).bind report.byId?

/-- An export has each of some instances: as many entries as there are instances, and under the text of
an instance its own record, which is also found by the text. -/
structure ExportsEach (report : RunReport) (ids : List InstanceId)
    (entries : List (Value × Value)) : Prop where
  length_eq : entries.length = ids.length
  own : ∀ id ∈ ids, ∃ record, report.byId? id = some record ∧ record.id = id ∧
    Value.field? id.text entries = some record.toValue ∧ report.byText? id.text = some record

/-- The exported jobs, by the texts of their identities. -/
def recordsByText (report : RunReport) : Table String Value :=
  .ofList (report.jobs.entries.map fun entry => (entry.1.text, entry.2.toValue))

theorem fieldOf?_jobs (report : RunReport) : report.toValue.fieldOf? "jobs" =
    some (.mapping (report.recordsByText.entries.map Value.ofField)) := by
  rw [recordsByText, ← Value.ofFields_eq, toValue, Value.fieldOf?_ofFields]
  rfl

theorem mem_keys_recordsByText_iff {text : String} :
    text ∈ report.recordsByText.keys ↔ ∃ id ∈ report.jobs.keys, text = id.text := by
  rw [recordsByText, Table.mem_keys_ofList_iff, List.map_map, Table.keys]
  simp [eq_comm]

/-- Each record was written over those of the same text before it. -/
theorem get?_recordsByText (report : RunReport) (text : String) :
    report.recordsByText.get? text =
      ((report.jobs.keys.reverse.find? fun id => id.text == text).bind report.byId?).map
        JobRecord.toValue := by
  have hlast : (report.jobs.entries.reverse.find? fun entry => entry.1.text == text).map Prod.snd =
      (report.jobs.keys.reverse.find? fun id => id.text == text).bind report.byId? := by
    rw [Table.keys, ← List.map_reverse]
    exact Table.find?_map_snd
      (fun _ hentry => Table.get?_eq_some_iff.mpr (List.mem_reverse.mp hentry))
      fun id : InstanceId => id.text == text
  rw [recordsByText, Table.get?_ofList, Table.lookup_eq_find?, ← List.map_reverse, List.find?_map,
    Option.map_map, ← hlast, Option.map_map]
  rfl

theorem byText?_eq_bind (report : RunReport) (text : String) : report.byText? text =
    (report.jobs.keys.find? fun id => id.text == text).bind report.byId? :=
  Table.find?_map_snd (fun _ hentry => Table.get?_eq_some_iff.mpr hentry)
    fun id : InstanceId => id.text == text

/-- Every report can be exported, and its export is as far as the texts of the identities allow. -/
theorem exists_exports (hkeys : report.jobs.keys = ids) : ∃ entries, report.Exports ids entries := by
  subst hkeys
  have htexts : (report.recordsByText.entries.map Value.ofField).map Prod.fst =
      report.recordsByText.keys.map Value.text := by
    rw [Table.keys, List.map_map, List.map_map]
    rfl
  refine ⟨report.recordsByText.entries.map Value.ofField, report.fieldOf?_jobs, ?_, ?_, ?_,
    report.byText?_eq_bind⟩
  · rw [htexts]
    exact report.recordsByText.nodup_keys.map fun _ _ => Value.text.inj
  · intro key
    rw [htexts, List.mem_map]
    constructor
    · rintro ⟨text, htext, rfl⟩
      obtain ⟨id, hid, rfl⟩ := mem_keys_recordsByText_iff.mp htext
      exact ⟨id, hid, rfl⟩
    · rintro ⟨id, hid, rfl⟩
      exact ⟨id.text, mem_keys_recordsByText_iff.mpr ⟨id, hid, rfl⟩, rfl⟩
  · intro text
    rw [Value.field?_map_ofField]
    exact report.get?_recordsByText text

theorem find?_text_eq {list : List InstanceId} {id : InstanceId} (hid : id ∈ list)
    (hdistinct : ∀ other ∈ list, other.text = id.text → other = id) :
    list.find? (fun other => other.text == id.text) = some id := by
  cases hfound : list.find? fun other => other.text == id.text with
  | none =>
      have hnone := List.find?_eq_none.mp hfound id hid
      simp at hnone
  | some other =>
      have htext : other.text = id.text := by simpa using List.find?_some hfound
      rw [hdistinct other (List.mem_of_find?_eq_some hfound) htext]

/-- Every instance is exported exactly if no two of them have one text. -/
theorem exportsEach_iff (hkeys : report.jobs.keys = ids) (hnodup : ids.Nodup)
    (hown : ∀ id record, report.jobs.get? id = some record → record.id = id)
    (hexports : report.Exports ids entries) :
    report.ExportsEach ids entries ↔ (ids.map InstanceId.text).Nodup := by
  constructor
  · intro heach
    refine hnodup.map_on ?_
    intro a ha b hb htext
    obtain ⟨first, _, hfirst, _, hfoundFirst⟩ := heach.own a ha
    obtain ⟨second, _, hsecond, _, hfoundSecond⟩ := heach.own b hb
    rw [htext, hfoundSecond] at hfoundFirst
    cases hfoundFirst
    exact hfirst.symm.trans hsecond
  · intro htexts
    have hdistinct : ∀ id ∈ ids, ∀ other ∈ ids, other.text = id.text → other = id :=
      fun _ hid _ hother => List.inj_on_of_nodup_map htexts hother hid
    constructor
    · have hperm : (entries.map Prod.fst).Perm ((ids.map InstanceId.text).map Value.text) := by
        refine (List.perm_ext_iff_of_nodup hexports.nodup_keys
          (htexts.map fun _ _ => Value.text.inj)).mpr ?_
        intro key
        rw [hexports.mem_keys_iff]
        simp [eq_comm]
      simpa using hperm.length_eq
    · intro id hid
      obtain ⟨record, hrecord⟩ := Table.mem_keys_iff.mp (hkeys ▸ hid)
      refine ⟨record, hrecord, hown id record hrecord, ?_, ?_⟩
      · rw [hexports.field?_eq, find?_text_eq (List.mem_reverse.mpr hid)
          fun other hother => hdistinct id hid other (List.mem_reverse.mp hother)]
        exact congrArg (Option.map JobRecord.toValue) hrecord
      · rw [hexports.byText?_eq, find?_text_eq hid (hdistinct id hid)]
        exact hrecord

end RunReport

/-! ## Texts that are told apart -/

/-- The jobs of a pipeline have no name with the sign that opens a coordinate in a text, and no value
of an axis with the one that separates the parts of a coordinate. -/
structure Pipeline.IsPlain (pipeline : Pipeline) : Prop where
  names : ∀ job ∈ pipeline.jobs, ¬ Text.Occurs " (" job.name
  values : ∀ job ∈ pipeline.jobs, ∀ axis ∈ job.axes.entries, ∀ value ∈ axis.2,
    ¬ Text.Occurs ", " value

namespace InstanceId

/-- The parts of a coordinate in the text of an identity. -/
def parts (coordinate : Coordinate) : List (List Char) :=
  coordinate.map fun (axis, value) => (axis ++ "=" ++ value).toList

theorem toList_text_cons (template : String) (entry : String × String) (rest : Coordinate) :
    (InstanceId.mk template (entry :: rest)).text.toList = template.toList ++
      ' ' :: '(' :: ([',', ' '].intercalate (parts (entry :: rest)) ++ [')']) := by
  have hopen : " (".toList = [' ', '('] := rfl
  have hbetween : ", ".toList = [',', ' '] := rfl
  have hclose : ")".toList = [')'] := rfl
  change (template ++ " (" ++ ", ".intercalate
    ((entry :: rest).map fun (axis, value) => axis ++ "=" ++ value) ++ ")").toList = _
  rw [String.toList_append, String.toList_append, String.toList_append, String.toList_intercalate,
    hopen, hbetween, hclose, List.map_map, List.append_assoc, List.append_assoc]
  rfl

/-- The text of an identity tells the template, and then the parts of the coordinate. -/
theorem text_inj {a b : InstanceId} (ha : ¬ Text.Occurs " (" a.template)
    (hb : ¬ Text.Occurs " (" b.template) (htext : a.text = b.text) :
    a.template = b.template ∧
      [',', ' '].intercalate (parts a.coordinate) = [',', ' '].intercalate (parts b.coordinate) := by
  obtain ⟨name, coordinate⟩ := a
  obtain ⟨other, coordinate'⟩ := b
  -- a text with a coordinate is no name, since it has the sign that opens one
  have hopens : ∀ {front name : String} {rest : List Char}, ¬ Text.Occurs " (" name →
      name.toList ≠ front.toList ++ ' ' :: '(' :: rest := by
    intro front name rest habsent heq
    exact habsent ⟨front.toList, rest, by rw [heq]; simp⟩
  cases coordinate with
  | nil =>
      cases coordinate' with
      | nil => exact ⟨htext, rfl⟩
      | cons entry rest =>
          exact absurd ((congrArg String.toList htext).trans (toList_text_cons other entry rest))
            (hopens ha)
  | cons entry rest =>
      cases coordinate' with
      | nil =>
          exact absurd ((congrArg String.toList htext).symm.trans
            (toList_text_cons name entry rest)) (hopens hb)
      | cons entry' rest' =>
          have heq := congrArg String.toList htext
          rw [toList_text_cons, toList_text_cons] at heq
          obtain ⟨hname, hparts⟩ := Text.append_pair_inj (by decide) ha hb heq
          exact ⟨String.toList_inj.mp hname, List.append_cancel_right hparts⟩

theorem parts_cons (axis value : String) (rest : Coordinate) :
    parts ((axis, value) :: rest) = ((axis ++ "=").toList ++ value.toList) :: parts rest := by
  change (axis ++ "=" ++ value).toList :: parts rest = _
  rw [String.toList_append]

/-- Where a coordinate goes on depends on the axes alone. -/
theorem parts_ne_nil {axes : List (String × List String)} (haxes : axes ≠ [])
    {coordinate : Coordinate} (hcoordinate : coordinate ∈ Matrix.product axes) :
    parts coordinate ≠ [] := by
  obtain ⟨axis, rest, rfl⟩ := List.exists_cons_of_ne_nil haxes
  simp only [Matrix.product, List.mem_flatMap, List.mem_map] at hcoordinate
  obtain ⟨value, _, more, _, rfl⟩ := hcoordinate
  rw [parts_cons]
  exact List.cons_ne_nil _ _

/-- Of two coordinates of one matrix with plain values the parts tell which is which. -/
theorem coordinate_inj {axes : List (String × List String)}
    (hplain : ∀ axis ∈ axes, ∀ value ∈ axis.2, ¬ Text.Occurs ", " value)
    {coordinate other : Coordinate} (hcoordinate : coordinate ∈ Matrix.product axes)
    (hother : other ∈ Matrix.product axes)
    (hparts : [',', ' '].intercalate (parts coordinate) = [',', ' '].intercalate (parts other)) :
    coordinate = other := by
  induction axes generalizing coordinate other with
  | nil =>
      rw [Matrix.product, List.mem_singleton] at hcoordinate hother
      rw [hcoordinate, hother]
  | cons axis rest ih =>
      obtain ⟨name, values⟩ := axis
      obtain ⟨hvalues, hrest⟩ := List.forall_mem_cons.mp hplain
      simp only [Matrix.product, List.mem_flatMap, List.mem_map] at hcoordinate hother
      obtain ⟨value, hvalue, more, hmore, rfl⟩ := hcoordinate
      obtain ⟨value', hvalue', more', hmore', rfl⟩ := hother
      rw [parts_cons, parts_cons] at hparts
      by_cases hlast : rest = []
      · subst hlast
        rw [Matrix.product, List.mem_singleton] at hmore hmore'
        subst hmore hmore'
        rw [parts, List.map_nil, List.intercalate_singleton, List.intercalate_singleton] at hparts
        rw [String.toList_inj.mp (List.append_cancel_left hparts)]
      · rw [List.intercalate_cons_of_ne_nil (parts_ne_nil hlast hmore),
          List.intercalate_cons_of_ne_nil (parts_ne_nil hlast hmore'), List.append_assoc,
          List.append_assoc, List.append_assoc, List.append_assoc] at hparts
        obtain ⟨heq, hparts⟩ := Text.append_pair_inj (by decide) (hvalues value hvalue)
          (hvalues value' hvalue') (List.append_cancel_left hparts)
        rw [String.toList_inj.mp heq, ih hrest hmore hmore' hparts]

end InstanceId

/-- The instances of a plain declaration have different texts. -/
theorem Plan.nodup_texts {pipeline : Pipeline} {event : Event} {plan : Plan}
    (hplan : Plan.ofPipeline pipeline event = .ok plan) (hplain : pipeline.IsPlain) :
    (plan.graph.ids.map InstanceId.text).Nodup := by
  have hnames : pipeline.jobNames.Nodup := by
    by_contra hrepeated
    rw [Plan.ofPipeline, requireDistinct_eq_error hrepeated] at hplan
    cases hplan
  refine (Plan.wellFormed_of_ofPipeline hplan).nodup_ids.map_on ?_
  rw [Plan.ids_of_ofPipeline hplan]
  intro a ha b hb htext
  obtain ⟨_, hjob, rfl⟩ := List.mem_map.mp ha
  obtain ⟨_, hother, rfl⟩ := List.mem_map.mp hb
  obtain ⟨template, htemplate, coordinate, hcoordinate, rfl⟩ := Matrix.mem_instances_iff.mp hjob
  obtain ⟨template', htemplate', coordinate', hcoordinate', rfl⟩ :=
    Matrix.mem_instances_iff.mp hother
  obtain ⟨hname, hparts⟩ := InstanceId.text_inj (hplain.names template htemplate)
    (hplain.names template' htemplate') htext
  cases List.inj_on_of_nodup_map hnames htemplate htemplate' hname
  have hsame := InstanceId.coordinate_inj (hplain.values template htemplate)
    (List.mem_filter.mp hcoordinate).1 (List.mem_filter.mp hcoordinate').1 hparts
  exact congrArg (InstanceId.mk template.name) hsame

/-! ## Every run -/

/-- A run that was started comes to a report if its secrets can be looked up. The report exports each of
its jobs, under the text of its identity and found by it, exactly if no two identities have one text, as
it is for a plain declaration. Otherwise it exports for each text the last job of this text, and finds
the first. -/
theorem report_exports_each_iff {pipeline : Pipeline} {event : Event} {plan : Plan}
    (hplan : Plan.ofPipeline pipeline event = .ok plan) (hruns : plan.decision.runs = true)
    (settings : Settings) (hworkers : 1 ≤ settings.maxWorkers) (executor : Executor)
    (hcalm : ∀ call, executor.runner call ≠ .interrupted) (duration : InstanceId → Nat) :
    (executor.secrets.Answers pipeline.secretNames →
      ∃ report, (pipeline.run event settings executor duration).report = .ok report ∧
        pipeline.Yields event settings executor duration
          (pipeline.run event settings executor duration).log report) ∧
    (∀ log report, pipeline.Yields event settings executor duration log report →
      ∃ entries, report.Exports plan.graph.ids entries ∧
        (report.ExportsEach plan.graph.ids entries ↔
          (plan.graph.ids.map InstanceId.text).Nodup)) ∧
    (pipeline.IsPlain → (plan.graph.ids.map InstanceId.text).Nodup) := by
  refine ⟨fun hanswers => Pipeline.exists_report hplan hworkers hanswers hcalm duration, ?_,
    Plan.nodup_texts hplan⟩
  intro log report hyields
  obtain ⟨hkeys, hown⟩ := hyields.jobs hplan hruns
  obtain ⟨entries, hexports⟩ := RunReport.exists_exports hkeys
  have hnodup := (Plan.wellFormed_of_ofPipeline hplan).nodup_ids
  exact ⟨entries, hexports, RunReport.exportsEach_iff hkeys hnodup hown hexports⟩

/-- A pipeline of a job with some name and of tests on two systems. -/
def systemsPipeline (name : String) : Pipeline where
  name := "systems"
  triggers := { manual := true }
  jobs := [
    { name := name, steps := [{ name := "lint", command := "make lint" }] },
    { name := "test", steps := [{ name := "test", command := "make test" }]
      axes := .ofList [("os", ["linux", "macos"])] }]

theorem exists_ofPipeline_systemsPipeline {name : String} (hname : name ≠ "test") (event : Event) :
    ∃ graph, Plan.ofPipeline (systemsPipeline name) event =
      .ok ⟨systemsPipeline name, event, { manual := true : TriggerRules }.decide event, graph⟩ := by
  have hcoordinates : ∀ job ∈ (systemsPipeline name).jobs,
      Matrix.coordinates job ∈ [[[]], [[("os", "linux")], [("os", "macos")]]] := by
    intro job hjob
    exact List.mem_map_of_mem (f := Matrix.coordinates) hjob
  refine Plan.exists_ofPipeline_eq_ok ?_ ?_ ?_ ?_ event
  · simp [systemsPipeline]
  · simpa [Pipeline.HasDistinctNames, Pipeline.jobNames, systemsPipeline] using hname
  · intro job hjob hnone
    have hmem := hcoordinates job hjob
    rw [hnone] at hmem
    simp at hmem
  · intro job hjob
    have hnodup : ∀ coordinates ∈ [[[]], [[("os", "linux")], [("os", "macos")]]],
        coordinates.Nodup := by decide
    exact hnodup _ (hcoordinates job hjob)

theorem report_exports_each_iff_systems :
    ∃ plan report entries,
      Plan.ofPipeline (systemsPipeline "lint") { kind := .manual, ref := "main" } = .ok plan ∧
      ((systemsPipeline "lint").run { kind := .manual, ref := "main" } {} failingExecutor
        fun _ => 1).report = .ok report ∧
      report.toValue.fieldOf? "jobs" = some (.mapping entries) ∧
      report.ExportsEach plan.graph.ids entries := by
  obtain ⟨graph, hplan⟩ := exists_ofPipeline_systemsPipeline (by decide : "lint" ≠ "test")
    { kind := .manual, ref := "main" }
  have hplain : (systemsPipeline "lint").IsPlain := ⟨by decide, by decide⟩
  obtain ⟨hcomes, hexport, hdistinct⟩ := report_exports_each_iff hplan rfl {}
    (by decide) failingExecutor (by simp [failingExecutor]) fun _ => 1
  obtain ⟨report, hreport, hyields⟩ := hcomes (SecretProvider.answers_none _)
  obtain ⟨entries, hexports, heach⟩ := hexport _ report hyields
  exact ⟨_, report, entries, hplan, hreport, hexports.jobs_eq, heach.mpr (hdistinct hplain)⟩

/-- Where the job is named like the tests on one system, the pipeline is planned and run as well, but
of its three jobs the export has two. -/
theorem report_loses_job_of_shared_text :
    ∃ plan report entries,
      Plan.ofPipeline (systemsPipeline "test (os=linux)") { kind := .manual, ref := "main" } =
        .ok plan ∧
      plan.decision.runs = true ∧
      ((systemsPipeline "test (os=linux)").run { kind := .manual, ref := "main" } {} failingExecutor
        fun _ => 1).report = .ok report ∧
      plan.graph.ids = [⟨"test (os=linux)", []⟩, ⟨"test", [("os", "linux")]⟩,
        ⟨"test", [("os", "macos")]⟩] ∧
      report.toValue.fieldOf? "jobs" = some (.mapping entries) ∧ entries.length = 2 ∧
      ¬ report.ExportsEach plan.graph.ids entries := by
  have hworkers : 1 ≤ ({} : Settings).maxWorkers := by decide
  have hcalm : ∀ call, failingExecutor.runner call ≠ .interrupted := by simp [failingExecutor]
  obtain ⟨graph, hplan⟩ := exists_ofPipeline_systemsPipeline
    (by decide : "test (os=linux)" ≠ "test") { kind := .manual, ref := "main" }
  have hids : graph.ids = [⟨"test (os=linux)", []⟩, ⟨"test", [("os", "linux")]⟩,
      ⟨"test", [("os", "macos")]⟩] := Plan.ids_of_ofPipeline hplan
  obtain ⟨report, hreport, hyields⟩ :=
    Pipeline.exists_report hplan hworkers (SecretProvider.answers_none _) hcalm fun _ => 1
  obtain ⟨hkeys, _⟩ := hyields.jobs hplan rfl
  obtain ⟨entries, hexports⟩ := RunReport.exists_exports hkeys
  have hperm : (entries.map Prod.fst).Perm [.text "test (os=linux)", .text "test (os=macos)"] := by
    refine (List.perm_ext_iff_of_nodup hexports.nodup_keys (by simp)).mpr ?_
    intro key
    rw [hexports.mem_keys_iff, hids]
    simp [InstanceId.text, InstanceId.label]
  have hlength : entries.length = 2 := by simpa using hperm.length_eq
  refine ⟨_, report, entries, hplan, rfl, hreport, hids, hexports.jobs_eq, hlength, ?_⟩
  intro heach
  have hthree := heach.length_eq
  rw [hlength, hids] at hthree
  cases hthree

end CiPipeline
