import CiPipeline.Plan
import CiPipeline.Proofs.Graph.Cycle
import CiPipeline.Proofs.Matrix

/-!
Which declarations are planned. Each instance of a job waits for every instance of the jobs it needs,
so spreading jobs over their matrices neither makes a circle nor breaks one. Main statement: a plan is
made exactly of what is well declared, the first fault is the one that is reported, and the event has
no part in it.
-/

namespace CiPipeline

namespace Pipeline

variable (pipeline : Pipeline)

/-- No two jobs have one name. -/
def HasDistinctNames : Prop :=
  pipeline.jobNames.Nodup

/-- Of each job a coordinate is left that no rule takes out. -/
def KeepsCoordinates : Prop :=
  ∀ job ∈ pipeline.jobs, Matrix.coordinates job ≠ []

/-- The coordinates that are left of a job are distinct. -/
def HasDistinctCoordinates : Prop :=
  ∀ job ∈ pipeline.jobs, (Matrix.coordinates job).Nodup

/-- Every need names a declared job. -/
def DeclaresNeeds : Prop :=
  ∀ job ∈ pipeline.jobs, ∀ need ∈ job.needs, need ∈ pipeline.jobNames

/-- A job of one name needs the job of another one. -/
def Needs (name need : String) : Prop :=
  ∃ job ∈ pipeline.jobs, job.name = name ∧ need ∈ job.needs

/-- No job needs itself, directly or through others. -/
def IsAcyclic : Prop :=
  ∀ name, ¬ Relation.TransGen pipeline.Needs name name

/-- What is asked of a declaration. -/
structure IsWellDeclared : Prop where
  names : pipeline.HasDistinctNames
  kept : pipeline.KeepsCoordinates
  coordinates : pipeline.HasDistinctCoordinates
  needs : pipeline.DeclaresNeeds
  acyclic : pipeline.IsAcyclic

/-- The first thing that is wrong with a declaration, by the error that tells it. -/
inductive FirstFault : ConfigurationError → Prop
  | repeatedName (hnames : ¬ pipeline.HasDistinctNames) :
      FirstFault (.duplicateJobs (duplicateNames pipeline.jobNames))
  | emptyMatrix (hnames : pipeline.HasDistinctNames) {job : JobTemplate}
      (hjob : job ∈ pipeline.jobs) (hempty : Matrix.coordinates job = []) :
      FirstFault (.declaration (.emptyMatrix job.name))
  | repeatedCoordinate (hnames : pipeline.HasDistinctNames) (hkept : pipeline.KeepsCoordinates)
      (hcoordinates : ¬ pipeline.HasDistinctCoordinates) (instances : List String) :
      FirstFault (.duplicateJobs instances)
  | unknownNeed (hnames : pipeline.HasDistinctNames) (hkept : pipeline.KeepsCoordinates)
      (hcoordinates : pipeline.HasDistinctCoordinates) {job : JobTemplate} {need : String}
      (hjob : job ∈ pipeline.jobs) (hneed : need ∈ job.needs) (hunknown : need ∉ pipeline.jobNames)
      (known : List String) : FirstFault (.unknownNeed job.name need known)
  | cycle (hnames : pipeline.HasDistinctNames) (hkept : pipeline.KeepsCoordinates)
      (hcoordinates : pipeline.HasDistinctCoordinates) (hneeds : pipeline.DeclaresNeeds)
      (hcycle : ¬ pipeline.IsAcyclic) (path : List InstanceId) : FirstFault (.cycle path)

variable {pipeline}

theorem FirstFault.not_isWellDeclared {error : ConfigurationError}
    (hfault : pipeline.FirstFault error) : ¬ pipeline.IsWellDeclared := by
  intro hwell
  cases hfault with
  | repeatedName hnames => exact hnames hwell.names
  | emptyMatrix _ hjob hempty => exact hwell.kept _ hjob hempty
  | repeatedCoordinate _ _ hcoordinates => exact hcoordinates hwell.coordinates
  | unknownNeed _ _ _ hjob hneed hunknown => exact hunknown (hwell.needs _ hjob _ hneed)
  | cycle _ _ _ _ hcycle => exact hcycle hwell.acyclic

/-! ## Needs among jobs and among their instances -/

/-- The instances of a pipeline wait for each other as their jobs need each other. -/
theorem waitsFor_iff (hnames : pipeline.HasDistinctNames) {id other : InstanceId} :
    Graph.WaitsFor (Matrix.instances pipeline.jobs) (Graph.declaredNeeds none) id other ↔
      id ∈ (Matrix.instances pipeline.jobs).map JobInstance.id ∧
        other ∈ (Matrix.instances pipeline.jobs).map JobInstance.id ∧
          pipeline.Needs id.template other.template := by
  constructor
  · rintro ⟨job, hjob, rfl, peer, hpeer, rfl, hneed⟩
    refine ⟨List.mem_map_of_mem hjob, List.mem_map_of_mem hpeer, ?_⟩
    obtain ⟨template, htemplate, _, _, rfl⟩ := Matrix.mem_instances_iff.mp hjob
    exact ⟨template, htemplate, rfl, hneed⟩
  · rintro ⟨hid, hother, template, htemplate, hname, hneed⟩
    obtain ⟨job, hjob, rfl⟩ := List.mem_map.mp hid
    obtain ⟨peer, hpeer, rfl⟩ := List.mem_map.mp hother
    refine ⟨job, hjob, rfl, peer, hpeer, rfl, ?_⟩
    obtain ⟨own, hown, _, _, rfl⟩ := Matrix.mem_instances_iff.mp hjob
    have heq : template = own := List.inj_on_of_nodup_map hnames htemplate hown hname
    exact heq ▸ hneed

/-- From an instance a way of waiting leads to another one exactly if needs lead from job to job. -/
theorem transGen_waitsFor_iff (hnames : pipeline.HasDistinctNames)
    (hkept : pipeline.KeepsCoordinates) {id other : InstanceId}
    (hid : id ∈ (Matrix.instances pipeline.jobs).map JobInstance.id)
    (hother : other ∈ (Matrix.instances pipeline.jobs).map JobInstance.id) :
    Relation.TransGen
        (Graph.WaitsFor (Matrix.instances pipeline.jobs) (Graph.declaredNeeds none)) id other ↔
      Relation.TransGen pipeline.Needs id.template other.template := by
  constructor
  · exact Relation.TransGen.lift InstanceId.template
      (fun _ _ hwaits => ((waitsFor_iff hnames).mp hwaits).2.2) id other
  · intro hneeds
    generalize hname : other.template = name at hneeds
    induction hneeds generalizing other with
    | single hneed =>
        subst hname
        exact .single ((waitsFor_iff hnames).mpr ⟨hid, hother, hneed⟩)
    | @tail middle last hfirst hlast ih =>
        subst hname
        -- any instance of the job between them will do, and there is one
        have hmiddle : middle ∈ pipeline.jobs.map JobTemplate.name := by
          obtain ⟨template, htemplate, rfl, _⟩ := hlast
          exact List.mem_map_of_mem htemplate
        obtain ⟨job, hjob, rfl⟩ := (Matrix.exists_instance_iff hkept).mpr hmiddle
        have hmem := List.mem_map_of_mem (f := JobInstance.id) hjob
        exact .tail (ih hmem rfl) ((waitsFor_iff hnames).mpr ⟨hmem, hother, hlast⟩)

theorem isAcyclic_iff (hnames : pipeline.HasDistinctNames) (hkept : pipeline.KeepsCoordinates) :
    pipeline.IsAcyclic ↔ ∀ id, ¬ Relation.TransGen
      (Graph.WaitsFor (Matrix.instances pipeline.jobs) (Graph.declaredNeeds none)) id id := by
  constructor
  · intro hacyclic id hcircle
    obtain ⟨_, hfirst, _⟩ := Relation.TransGen.head'_iff.mp hcircle
    have hid := ((waitsFor_iff hnames).mp hfirst).1
    exact hacyclic id.template ((transGen_waitsFor_iff hnames hkept hid hid).mp hcircle)
  · intro hacyclic name hcircle
    obtain ⟨_, ⟨template, htemplate, rfl, _⟩, _⟩ := Relation.TransGen.head'_iff.mp hcircle
    obtain ⟨job, hjob, hname⟩ :=
      (Matrix.exists_instance_iff hkept).mpr (List.mem_map_of_mem htemplate)
    have hid := List.mem_map_of_mem (f := JobInstance.id) hjob
    rw [← hname] at hcircle
    exact hacyclic job.id ((transGen_waitsFor_iff hnames hkept hid hid).mpr hcircle)

theorem declaresNeeds_iff (hkept : pipeline.KeepsCoordinates) :
    pipeline.DeclaresNeeds ↔
      Graph.NeedsKnown (Matrix.instances pipeline.jobs) (Graph.declaredNeeds none) := by
  constructor
  · intro hneeds job hjob need hneed
    obtain ⟨template, htemplate, _, _, rfl⟩ := Matrix.mem_instances_iff.mp hjob
    exact (Matrix.exists_instance_iff hkept).mpr (hneeds template htemplate need hneed)
  · intro hknown template htemplate need hneed
    obtain ⟨coordinate, hcoordinate⟩ := List.exists_mem_of_ne_nil _ (hkept template htemplate)
    have hjob : Matrix.instanceAt template coordinate ∈ Matrix.instances pipeline.jobs :=
      Matrix.mem_instances_iff.mpr ⟨template, htemplate, coordinate, hcoordinate, rfl⟩
    exact (Matrix.exists_instance_iff hkept).mp (hknown _ hjob need hneed)

end Pipeline

namespace Plan

variable {pipeline : Pipeline}

/-- The graph of a plan, for whatever event. -/
def graphOf (pipeline : Pipeline) : Except ConfigurationError Graph := do
  requireDistinct pipeline.jobNames
  Graph.build (← Matrix.expandAll pipeline.jobs)

theorem ofPipeline_eq (pipeline : Pipeline) (event : Event) :
    ofPipeline pipeline event =
      (graphOf pipeline).map fun graph => ⟨pipeline, event, pipeline.triggers.decide event, graph⟩ := by
  rw [ofPipeline, graphOf]
  cases requireDistinct pipeline.jobNames with
  | error fault => rfl
  | ok _ =>
      simp only [ok_bind]
      cases Matrix.expandAll pipeline.jobs with
      | error fault => rfl
      | ok jobs =>
          simp only [ok_bind]
          cases Graph.build jobs with
          | error fault => rfl
          | ok graph => rfl

theorem graphOf_eq_build (hnames : pipeline.HasDistinctNames) (hkept : pipeline.KeepsCoordinates) :
    graphOf pipeline = Graph.build (Matrix.instances pipeline.jobs) := by
  rw [graphOf, requireDistinct_eq_ok hnames, Matrix.expandAll_eq_ok hkept]
  rfl

/-- Where names are distinct and coordinates are left, the graph decides about the rest. -/
theorem build_instances_cases (hnames : pipeline.HasDistinctNames)
    (hkept : pipeline.KeepsCoordinates) :
    (∃ graph, Graph.build (Matrix.instances pipeline.jobs) = .ok graph) ∧ pipeline.IsWellDeclared ∨
      ∃ error, Graph.build (Matrix.instances pipeline.jobs) = .error error ∧
        pipeline.FirstFault error := by
  have hids := Matrix.nodup_ids_instances_iff hnames
  have hknown := Pipeline.declaresNeeds_iff hkept
  have hcircles := Pipeline.isAcyclic_iff hnames hkept
  by_cases hcoordinates : pipeline.HasDistinctCoordinates
  · have hdistinct := hids.mpr hcoordinates
    by_cases hneeds : pipeline.DeclaresNeeds
    · rcases Graph.build_ok_or_cycle hdistinct (hknown.mp hneeds) with
        ⟨hok, hnone⟩ | ⟨⟨path, herror⟩, id, hcircle⟩
      · exact Or.inl ⟨hok, hnames, hkept, hcoordinates, hneeds, hcircles.mpr hnone⟩
      · have hcycle : ¬ pipeline.IsAcyclic := fun hacyclic => hcircles.mp hacyclic id hcircle
        exact Or.inr ⟨_, herror, .cycle hnames hkept hcoordinates hneeds hcycle path⟩
    · obtain ⟨job, hjob, need, hneed, hunknown, herror⟩ :=
        Graph.build_eq_unknownNeed hdistinct fun known => hneeds (hknown.mpr known)
      obtain ⟨template, htemplate, _, _, rfl⟩ := Matrix.mem_instances_iff.mp hjob
      have hnot : need ∉ pipeline.jobNames := fun hname =>
        hunknown (Graph.mem_templateNames_iff.mpr ((Matrix.exists_instance_iff hkept).mpr hname))
      exact Or.inr ⟨_, herror, .unknownNeed hnames hkept hcoordinates htemplate hneed hnot _⟩
  · obtain ⟨instances, herror⟩ :=
      Graph.build_eq_duplicateJobs fun hdistinct => hcoordinates (hids.mp hdistinct)
    exact Or.inr ⟨_, herror, .repeatedCoordinate hnames hkept hcoordinates instances⟩

/-- There is a graph of what is well declared, and else the first fault is reported. -/
theorem graphOf_cases (pipeline : Pipeline) :
    (∃ graph, graphOf pipeline = .ok graph) ∧ pipeline.IsWellDeclared ∨
      ∃ error, graphOf pipeline = .error error ∧ pipeline.FirstFault error := by
  by_cases hnames : pipeline.HasDistinctNames
  · by_cases hkept : pipeline.KeepsCoordinates
    · rw [graphOf_eq_build hnames hkept]
      exact build_instances_cases hnames hkept
    · have hempty : ∃ job ∈ pipeline.jobs, Matrix.coordinates job = [] := by
        simpa [Pipeline.KeepsCoordinates] using hkept
      obtain ⟨before, job, after, hjobs, _, hnone, herror⟩ :=
        Matrix.exists_expandAll_eq_error hempty
      refine Or.inr ⟨_, ?_, .emptyMatrix hnames (hjobs ▸ by simp) hnone⟩
      rw [graphOf, requireDistinct_eq_ok hnames, herror]
      rfl
  · refine Or.inr ⟨_, ?_, .repeatedName hnames⟩
    rw [graphOf, requireDistinct_eq_error hnames]
    rfl

/-- Jobs that need nothing are planned for every event, if they are told apart and have instances. -/
theorem exists_ofPipeline_eq_ok (hneeds : ∀ job ∈ pipeline.jobs, job.needs = [])
    (hnames : pipeline.HasDistinctNames) (hkept : pipeline.KeepsCoordinates)
    (hcoordinates : pipeline.HasDistinctCoordinates) (event : Event) :
    ∃ graph, ofPipeline pipeline event =
      .ok ⟨pipeline, event, pipeline.triggers.decide event, graph⟩ := by
  have hnone : ∀ job ∈ pipeline.jobs, ∀ need, need ∉ job.needs := by
    intro job hjob need hneed
    rw [hneeds job hjob] at hneed
    cases hneed
  have hwell : pipeline.IsWellDeclared := by
    refine ⟨hnames, hkept, hcoordinates, ?_, ?_⟩
    · intro job hjob need hneed
      exact absurd hneed (hnone job hjob need)
    · intro name hcircle
      obtain ⟨_, ⟨job, hjob, _, hneed⟩, _⟩ := Relation.TransGen.head'_iff.mp hcircle
      exact hnone job hjob _ hneed
  rcases graphOf_cases pipeline with ⟨⟨graph, hok⟩, _⟩ | ⟨error, _, hfault⟩
  · refine ⟨graph, ?_⟩
    rw [ofPipeline_eq, hok]
    rfl
  · exact absurd hwell hfault.not_isWellDeclared

/-- A plan is made exactly of what is well declared; otherwise the first fault is the reason, in the
order in which faults are looked for. For any other event the graph or the reason is the same. -/
theorem ofPipeline_accepts_well_declared (pipeline : Pipeline) (event : Event) :
    ((∃ plan, ofPipeline pipeline event = .ok plan) ↔ pipeline.IsWellDeclared) ∧
    (∀ error, ofPipeline pipeline event = .error error → pipeline.FirstFault error) ∧
    ∀ other, (ofPipeline pipeline other).map Plan.graph = (ofPipeline pipeline event).map Plan.graph := by
  have hgraph : ∀ event, (ofPipeline pipeline event).map Plan.graph = graphOf pipeline := by
    intro event
    rw [ofPipeline_eq]
    cases graphOf pipeline with
    | error fault => rfl
    | ok graph => rfl
  refine ⟨?_, ?_, fun other => (hgraph other).trans (hgraph event).symm⟩
  · rw [ofPipeline_eq]
    rcases graphOf_cases pipeline with ⟨⟨graph, hok⟩, hwell⟩ | ⟨error, herror, hfault⟩
    · rw [hok]
      exact ⟨fun _ => hwell, fun _ => ⟨_, rfl⟩⟩
    · rw [herror]
      refine ⟨?_, fun hwell => absurd hwell hfault.not_isWellDeclared⟩
      rintro ⟨_, ⟨⟩⟩
  · intro error herror
    rw [ofPipeline_eq, map_eq_error_iff] at herror
    rcases graphOf_cases pipeline with ⟨⟨graph, hok⟩, _⟩ | ⟨fault, hfound, hfault⟩
    · cases hok.symm.trans herror
    · cases hfound.symm.trans herror
      exact hfault

/-- A pipeline of one job with two instances, no event starting it. -/
def lintPipeline (needs : List String) : Pipeline where
  name := "lint"
  triggers := {}
  jobs := [{
    name := "lint", steps := [{ name := "lint", command := "make lint" }], needs := needs,
    axes := .ofList [("os", ["linux", "mac"])] }]

/-- Alone the job is planned; where it needs itself its instances wait for each other. -/
theorem ofPipeline_accepts_well_declared_lint :
    (∃ plan, ofPipeline (lintPipeline []) { kind := .push, ref := "main" } = .ok plan) ∧
      ∃ path, ofPipeline (lintPipeline ["lint"]) { kind := .push, ref := "main" } =
        .error (.cycle path) := by
  have hnames : ∀ needs, (lintPipeline needs).HasDistinctNames := by
    intro needs
    simp [Pipeline.HasDistinctNames, Pipeline.jobNames, lintPipeline]
  have hlist : ∀ needs, ∀ job ∈ (lintPipeline needs).jobs,
      Matrix.coordinates job = [[("os", "linux")], [("os", "mac")]] := by
    intro needs job hjob
    rw [List.mem_singleton.mp hjob]
    rfl
  have hkept : ∀ needs, (lintPipeline needs).KeepsCoordinates := by
    intro needs job hjob
    rw [hlist needs job hjob]
    decide
  have hcoordinates : ∀ needs, (lintPipeline needs).HasDistinctCoordinates := by
    intro needs job hjob
    rw [hlist needs job hjob]
    decide
  have hneeds : ∀ name need, (lintPipeline []).Needs name need → False := by
    rintro name need ⟨job, hjob, _, hneed⟩
    rw [List.mem_singleton.mp hjob] at hneed
    simp at hneed
  constructor
  · refine (ofPipeline_accepts_well_declared (lintPipeline []) _).1.mpr
      ⟨hnames [], hkept [], hcoordinates [], ?_, ?_⟩
    · intro job hjob need hneed
      exact absurd ⟨job, hjob, rfl, hneed⟩ (hneeds job.name need)
    · intro name hcircle
      obtain ⟨need, hfirst, _⟩ := Relation.TransGen.head'_iff.mp hcircle
      exact hneeds name need hfirst
  · have hcycle : ¬ (lintPipeline ["lint"]).IsAcyclic := fun hacyclic =>
      hacyclic "lint" (.single ⟨_, List.mem_cons_self, rfl, by simp⟩)
    obtain ⟨haccepts, hfirst, _⟩ := ofPipeline_accepts_well_declared (lintPipeline ["lint"])
      { kind := .push, ref := "main" }
    cases hresult : ofPipeline (lintPipeline ["lint"]) { kind := .push, ref := "main" } with
    | ok plan => exact absurd (haccepts.mp ⟨plan, hresult⟩).acyclic hcycle
    | error error =>
        cases hfirst error hresult with
        | repeatedName hnot => exact absurd (hnames _) hnot
        | emptyMatrix _ hjob hempty => exact absurd hempty (hkept _ _ hjob)
        | repeatedCoordinate _ _ hnot => exact absurd (hcoordinates _) hnot
        | unknownNeed _ _ _ hjob hneed hunknown =>
            rw [List.mem_singleton.mp hjob] at hneed
            rw [List.mem_singleton.mp hneed] at hunknown
            exact absurd List.mem_cons_self hunknown
        | cycle _ _ _ _ _ path => exact ⟨path, rfl⟩

end Plan
end CiPipeline
