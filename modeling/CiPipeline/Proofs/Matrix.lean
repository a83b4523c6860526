import CiPipeline.Matrix
import CiPipeline.Proofs.Except
import Mathlib.Data.List.Nodup

/-!
Expansion of templates into instances. It fails at the first template of which no coordinate is kept;
else the instances stand in the order of the templates, and within one in the order of its coordinates.
Their identities are as distinct as the coordinates of each template are.
-/

namespace CiPipeline.Matrix

/-- The instances of some templates: one for each coordinate that is kept. -/
def instances (templates : List JobTemplate) : List JobInstance :=
  templates.flatMap fun template => (coordinates template).map (instanceAt template)

variable {templates : List JobTemplate}

theorem mem_instances_iff {job : JobInstance} :
    job ∈ instances templates ↔
      ∃ template ∈ templates, ∃ coordinate ∈ coordinates template,
        instanceAt template coordinate = job := by
  simp [instances]

theorem expand_eq_ok {template : JobTemplate} (hkept : coordinates template ≠ []) :
    expand template = .ok ((coordinates template).map (instanceAt template)) := by
  unfold expand
  split
  · next hnone => exact absurd hnone hkept
  · rfl

theorem expand_eq_error {template : JobTemplate} (hnone : coordinates template = []) :
    expand template = .error (.declaration (.emptyMatrix template.name)) := by
  rw [expand, hnone]

theorem expand_eq_error_iff {template : JobTemplate} {error : ConfigurationError} :
    expand template = .error error ↔
      coordinates template = [] ∧ error = .declaration (.emptyMatrix template.name) := by
  by_cases hnone : coordinates template = []
  · rw [expand_eq_error hnone, Except.error.injEq, eq_comm]
    exact (and_iff_right hnone).symm
  · rw [expand_eq_ok hnone]
    exact iff_of_false nofun fun h => hnone h.1

theorem map_id_instanceAt (template : JobTemplate) (kept : List Coordinate) :
    (kept.map (instanceAt template)).map JobInstance.id = kept.map (InstanceId.mk template.name) :=
  List.map_map

theorem expandAll_eq_ok (hkept : ∀ template ∈ templates, coordinates template ≠ []) :
    expandAll templates = .ok (instances templates) := by
  induction templates with
  | nil => rfl
  | cons template rest ih =>
      obtain ⟨htemplate, hrest⟩ := List.forall_mem_cons.mp hkept
      rw [expandAll, expand_eq_ok htemplate, ih hrest]
      rfl

/-- The first template without a coordinate is reported. -/
theorem exists_expandAll_eq_error (hempty : ∃ template ∈ templates, coordinates template = []) :
    ∃ before template after, templates = before ++ template :: after ∧
      (∀ other ∈ before, coordinates other ≠ []) ∧ coordinates template = [] ∧
      expandAll templates = .error (.declaration (.emptyMatrix template.name)) := by
  induction templates with
  | nil => simp at hempty
  | cons first rest ih =>
      by_cases hfirst : coordinates first = []
      · refine ⟨[], first, rest, rfl, by simp, hfirst, ?_⟩
        rw [expandAll, expand_eq_error hfirst]
        rfl
      · obtain ⟨found, hfound, hnone⟩ := hempty
        have hrest : found ∈ rest := by
          rcases List.mem_cons.mp hfound with rfl | hrest
          · exact absurd hnone hfirst
          · exact hrest
        obtain ⟨before, template, after, rfl, hbefore, htemplate, herror⟩ :=
          ih ⟨found, hrest, hnone⟩
        refine ⟨first :: before, template, after, rfl, ?_, htemplate, ?_⟩
        · exact List.forall_mem_cons.mpr ⟨hfirst, hbefore⟩
        · rw [expandAll, expand_eq_ok hfirst, herror]
          rfl

theorem eq_instances_of_expandAll {jobs : List JobInstance} (hjobs : expandAll templates = .ok jobs) :
    jobs = instances templates := by
  by_cases hkept : ∀ template ∈ templates, coordinates template ≠ []
  · exact Except.ok.inj (hjobs.symm.trans (expandAll_eq_ok hkept))
  · have hempty : ∃ template ∈ templates, coordinates template = [] := by simpa using hkept
    obtain ⟨_, _, _, _, _, _, herror⟩ := exists_expandAll_eq_error hempty
    cases hjobs.symm.trans herror

/-- With distinct names two instances are one only within a template, at a coordinate listed twice. -/
theorem nodup_ids_instances_iff (hnames : (templates.map JobTemplate.name).Nodup) :
    ((instances templates).map JobInstance.id).Nodup ↔
      ∀ template ∈ templates, (coordinates template).Nodup := by
  have hids : (instances templates).map JobInstance.id =
      templates.flatMap fun template => (coordinates template).map (InstanceId.mk template.name) := by
    rw [instances, List.map_flatMap]
    simp only [map_id_instanceAt]
  have hmap : ∀ template : JobTemplate,
      ((coordinates template).map (InstanceId.mk template.name)).Nodup ↔
        (coordinates template).Nodup := by
    intro template
    refine List.nodup_map_iff ?_
    intro a b heq
    exact congrArg InstanceId.coordinate heq
  have hapart : templates.Pairwise (Function.onFun List.Disjoint fun template =>
      (coordinates template).map (InstanceId.mk template.name)) := by
    refine (List.pairwise_map.mp hnames).imp ?_
    intro first second hne id hfirst hsecond
    obtain ⟨_, _, rfl⟩ := List.mem_map.mp hfirst
    obtain ⟨_, _, heq⟩ := List.mem_map.mp hsecond
    exact hne (congrArg InstanceId.template heq).symm
  rw [hids, List.nodup_flatMap, and_iff_left hapart]
  simp only [hmap]

/-- Every template has instances, so the names of the instances are the names of the templates. -/
theorem exists_instance_iff (hkept : ∀ template ∈ templates, coordinates template ≠ [])
    {name : String} :
    (∃ job ∈ instances templates, job.id.template = name) ↔ name ∈ templates.map JobTemplate.name := by
  constructor
  · rintro ⟨job, hjob, rfl⟩
    obtain ⟨template, htemplate, _, _, rfl⟩ := mem_instances_iff.mp hjob
    exact List.mem_map_of_mem htemplate
  · intro hname
    obtain ⟨template, htemplate, rfl⟩ := List.mem_map.mp hname
    obtain ⟨coordinate, hcoordinate⟩ := List.exists_mem_of_ne_nil _ (hkept template htemplate)
    exact ⟨instanceAt template coordinate,
      mem_instances_iff.mpr ⟨template, htemplate, coordinate, hcoordinate, rfl⟩, rfl⟩

end CiPipeline.Matrix
