import CiPipeline.Proofs.Declaration
import CiPipeline.Proofs.Matrix
import CiPipeline.Proofs.Table
import Mathlib.Algebra.BigOperators.Group.List.Basic
import Mathlib.Data.List.Forall2

/-!
Which coordinates a declared matrix has, and in which order. A tuple of places, one on each axis, picks
one combination of values. The combinations stand in the lexicographic order of their tuples, and those
that no rule matches are the coordinates.
-/

namespace CiPipeline

/-- The axes of some parts, with the texts of their values. -/
def JobParts.textAxes (parts : JobParts) : List (String × List String) :=
  parts.axes.entries.map fun axis => (axis.1, axis.2.map Value.asText)

namespace Matrix

variable {axes : List (String × List String)} {coordinate : Coordinate}

/-! ## The product -/

/-- The combination of the values at some places, one on each axis, under the names of the axes. -/
inductive Picks : List (String × List String) → List Nat → Coordinate → Prop
  | nil : Picks [] [] []
  | cons {axis value : String} {values : List String} {place : Nat}
      {axes : List (String × List String)} {tuple : List Nat} {coordinate : Coordinate}
      (hvalue : values[place]? = some value) (hrest : Picks axes tuple coordinate) :
      Picks ((axis, values) :: axes) (place :: tuple) ((axis, value) :: coordinate)

/-- Combinations in the order of the tuples that pick them, where every tuple of places is listed. -/
structure InOrder (axes : List (String × List String)) (tuples : List (List Nat))
    (combinations : List Coordinate) : Prop where
  sorted : tuples.Pairwise (· < ·)
  mem_iff : ∀ tuple, tuple ∈ tuples ↔
    List.Forall₂ (fun place axis => place < axis.2.length) tuple axes
  picked : List.Forall₂ (Picks axes) tuples combinations

theorem Picks.map_fst {tuple : List Nat} (hpicks : Picks axes tuple coordinate) :
    coordinate.map Prod.fst = axes.map Prod.fst := by
  induction hpicks with
  | nil => rfl
  | cons hvalue hrest ih => rw [List.map_cons, List.map_cons, ih]

/-- The tuples of places, the last place changing fastest. -/
def placeTuples : List (String × List String) → List (List Nat)
  | [] => [[]]
  | (_, values) :: rest =>
    (List.range values.length).flatMap fun place => (placeTuples rest).map (place :: ·)

theorem pairwise_placeTuples (axes : List (String × List String)) :
    (placeTuples axes).Pairwise (· < ·) := by
  induction axes with
  | nil => exact List.pairwise_singleton ..
  | cons axis rest ih =>
      refine List.pairwise_flatMap.mpr ⟨?_, ?_⟩
      · intro place _
        refine List.pairwise_map.mpr (ih.imp ?_)
        intro first second hlt
        exact List.cons_lt_cons_iff.mpr (Or.inr ⟨rfl, hlt⟩)
      · refine List.pairwise_lt_range.imp ?_
        intro place later hlt first hfirst second hsecond
        obtain ⟨_, _, rfl⟩ := List.mem_map.mp hfirst
        obtain ⟨_, _, rfl⟩ := List.mem_map.mp hsecond
        exact List.cons_lt_cons_iff.mpr (Or.inl hlt)

theorem mem_placeTuples_iff {tuple : List Nat} :
    tuple ∈ placeTuples axes ↔
      List.Forall₂ (fun place axis => place < axis.2.length) tuple axes := by
  induction axes generalizing tuple with
  | nil => simp [placeTuples]
  | cons axis rest ih =>
      simp only [placeTuples, List.mem_flatMap, List.mem_range, List.mem_map, ih,
        List.forall₂_cons_right_iff]
      constructor
      · rintro ⟨place, hplace, others, hothers, rfl⟩
        exact ⟨place, others, hplace, hothers, rfl⟩
      · rintro ⟨place, others, hplace, hothers, rfl⟩
        exact ⟨place, hplace, others, hothers, rfl⟩

theorem forall₂_range_getElem? (values : List String) :
    List.Forall₂ (fun place value => values[place]? = some value) (List.range values.length)
      values := by
  refine List.forall₂_iff_get.mpr ⟨List.length_range, ?_⟩
  intro place _ hplace
  simp [hplace]

theorem forall₂_picks_product (axes : List (String × List String)) :
    List.Forall₂ (Picks axes) (placeTuples axes) (product axes) := by
  induction axes with
  | nil => exact .cons .nil .nil
  | cons axis rest ih =>
      refine List.rel_flatMap (forall₂_range_getElem? axis.2) ?_
      intro place value hvalue
      refine List.rel_map ?_ ih
      intro tuple coordinate hpicks
      exact .cons hvalue hpicks

theorem inOrder_product (axes : List (String × List String)) :
    InOrder axes (placeTuples axes) (product axes) where
  sorted := pairwise_placeTuples axes
  mem_iff _ := mem_placeTuples_iff
  picked := forall₂_picks_product axes

theorem map_fst_of_mem_product (hmem : coordinate ∈ product axes) :
    coordinate.map Prod.fst = axes.map Prod.fst := by
  obtain ⟨tuple, _, hpicks⟩ := exists_of_mem_forall₂ (forall₂_picks_product axes) hmem
  exact hpicks.map_fst

theorem length_product (axes : List (String × List String)) :
    (product axes).length = (axes.map fun axis => axis.2.length).prod := by
  induction axes with
  | nil => rfl
  | cons axis rest ih => simp [product, List.length_flatMap, ih]

/-- Where no axis has a value twice, no combination comes twice. -/
theorem nodup_product (hvalues : ∀ axis ∈ axes, axis.2.Nodup) : (product axes).Nodup := by
  induction axes with
  | nil => exact List.nodup_singleton []
  | cons axis rest ih =>
      obtain ⟨hhere, hrest⟩ := List.forall_mem_cons.mp hvalues
      refine List.nodup_flatMap.mpr ⟨?_, ?_⟩
      · intro value _
        exact (ih hrest).map fun _ _ heq => (List.cons.inj heq).2
      · refine hhere.imp ?_
        intro value other hne coordinate hfirst hsecond
        obtain ⟨_, _, rfl⟩ := List.mem_map.mp hfirst
        obtain ⟨_, _, heq⟩ := List.mem_map.mp hsecond
        cases heq
        exact hne rfl

/-! ## The rules -/

instance (key : Value) (axis : String) : Decidable (key = .text axis) :=
  match key with
  | .text own => decidable_of_iff (own = axis) (by rw [Value.text.injEq])
  | .null | .bool _ | .int _ | .float _ | .nan _ | .time _ | .bytes _ | .list _ | .pair _ _
  | .set _ | .mapping _ | .knot _ _ | .again _ => isFalse nofun

/-- A rule with an entry matches where each of its keys is an axis that has the text of its value. -/
def Matches (rule : List (Value × Value)) (coordinate : Coordinate) : Prop :=
  rule.isEmpty = false ∧ ∀ entry ∈ rule, ∃ label ∈ coordinate,
    entry.1 = .text label.1 ∧ entry.2.asText = label.2

instance (rule : List (Value × Value)) (coordinate : Coordinate) :
    Decidable (Matches rule coordinate) :=
  inferInstanceAs (Decidable (_ ∧ _))

theorem excludes_declare_iff {rule : List (Value × Value)}
    (hnodup : (coordinate.map Prod.fst).Nodup) :
    excludes (Exclusion.declare rule) coordinate = true ↔ Matches rule coordinate := by
  simp only [excludes, Exclusion.declare, List.isEmpty_map, List.all_map, Bool.and_eq_true,
    Bool.not_eq_true', List.all_eq_true, Matches]
  refine and_congr_right fun _ => forall₂_congr fun entry _ => ?_
  obtain ⟨key, value⟩ := entry
  cases key with
  | text axis =>
      have hlookup : agrees coordinate (.axis axis, value.asText) = true ↔
          (axis, value.asText) ∈ coordinate :=
        beq_iff_eq.trans (Table.lookup_eq_some_iff hnodup)
      refine hlookup.trans ⟨fun hmem => ⟨_, hmem, rfl, rfl⟩, ?_⟩
      rintro ⟨label, hmem, hkey, hvalue⟩
      have hlabel : (axis, value.asText) = label := Prod.ext (Value.text.inj hkey) hvalue
      rw [hlabel]
      exact hmem
  | _ => simp [agrees]

/-! ## What is kept -/

section Declared

variable {parts : JobParts} {template : JobTemplate}

theorem axes_of_declare (hbuilt : JobTemplate.declare parts = .ok template) :
    template.axes.entries = parts.textAxes := by
  obtain ⟨condition, rfl, _⟩ := JobTemplate.of_declare hbuilt
  rfl

/-- The combinations that no rule matches are kept, in order. -/
theorem coordinates_of_declare (hbuilt : JobTemplate.declare parts = .ok template) :
    coordinates template =
      (product parts.textAxes).filter fun coordinate =>
        ∀ rule ∈ parts.exclude, ¬ Matches rule coordinate := by
  rw [coordinates, axes_of_declare hbuilt]
  refine List.filter_congr fun coordinate hmem => ?_
  have hnodup : (coordinate.map Prod.fst).Nodup := by
    rw [map_fst_of_mem_product hmem, ← axes_of_declare hbuilt]
    exact template.axes.nodup_keys
  obtain ⟨condition, rfl, _⟩ := JobTemplate.of_declare hbuilt
  rw [Bool.eq_iff_iff]
  simp [JobParts.template, excludes_declare_iff hnodup]

/--
The coordinates of a declared template are the combinations of its axes in the order of their places,
less those that a rule matches. The instances are those of the coordinates, and there must be one.
-/
theorem coordinates_filter_ordered_product (hbuilt : JobTemplate.declare parts = .ok template) :
    ∃ tuples combinations, InOrder parts.textAxes tuples combinations ∧
      coordinates template =
        combinations.filter (fun coordinate => ∀ rule ∈ parts.exclude, ¬ Matches rule coordinate) ∧
      (parts.exclude = [] →
        (coordinates template).length = (parts.textAxes.map fun axis => axis.2.length).prod) ∧
      ((∀ axis ∈ parts.textAxes, axis.2.Nodup) → (coordinates template).Nodup) ∧
      (∀ error, expand template = .error error ↔
        coordinates template = [] ∧ error = .declaration (.emptyMatrix parts.name)) ∧
      (coordinates template ≠ [] → ∃ jobs, expand template = .ok jobs ∧
        jobs.map JobInstance.id = (coordinates template).map (InstanceId.mk parts.name)) := by
  have hkept := coordinates_of_declare hbuilt
  refine ⟨placeTuples parts.textAxes, product parts.textAxes, inOrder_product _, hkept, ?_, ?_, ?_, ?_⟩
  · intro hrules
    rw [hkept, ← length_product, List.filter_eq_self.mpr]
    simp [hrules]
  · intro hvalues
    rw [hkept]
    exact (nodup_product hvalues).filter _
  · intro error
    rw [← JobTemplate.name_of_declare hbuilt]
    exact expand_eq_error_iff
  · intro hsome
    rw [← JobTemplate.name_of_declare hbuilt]
    exact ⟨_, expand_eq_ok hsome, map_id_instanceAt template _⟩

/-- Parts with values that are the same text, and with rules of every kind. -/
def mixedParts : JobParts where
  name := "test"
  steps := [{ name := "run", command := "make" }]
  axes := .ofList
    [("os", [.text "linux", .text "mac"]), ("debug", [.bool true, .text "True", .text "no"])]
  exclude := [[], [(.text "os", .text "mac")],
    [(.text "debug", .bool true), (.text "os", .text "mac")],
    [(.int 1, .text "True")], [(.text "arch", .text "")]]

theorem coordinates_filter_ordered_product_mixed :
    coordinates (mixedParts.template none) =
        [[("os", "linux"), ("debug", "True")], [("os", "linux"), ("debug", "True")],
          [("os", "linux"), ("debug", "no")]] ∧
      ∃ jobs, expand (mixedParts.template none) = .ok jobs ∧ jobs.length = 3 := by
  have hbuilt : JobTemplate.declare mixedParts = .ok (mixedParts.template none) := rfl
  obtain ⟨_, _, _, _, _, _, _, hexpand⟩ := coordinates_filter_ordered_product hbuilt
  have hkept : coordinates (mixedParts.template none) =
      [[("os", "linux"), ("debug", "True")], [("os", "linux"), ("debug", "True")],
        [("os", "linux"), ("debug", "no")]] := by
    decide
  obtain ⟨jobs, hjobs, hids⟩ := hexpand (by rw [hkept]; exact List.cons_ne_nil _ _)
  refine ⟨hkept, jobs, hjobs, ?_⟩
  rw [← List.length_map JobInstance.id, hids, List.length_map, hkept]
  rfl

end Declared

end Matrix
end CiPipeline
