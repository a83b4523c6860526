import CiPipeline.Proofs.Graph.Countdown
import CiPipeline.Proofs.Graph.Overtaken
import Mathlib.Logic.Relation

/-!
Every instance stands in the earliest stage it can. A stage holds what waits for nothing but earlier
stages and is in none of them, so the stage of an instance is the one behind the latest of what it
waits for.
-/

namespace CiPipeline.Graph

variable {graph : Graph} {passed front level : List InstanceId} {id need : InstanceId}
  {rounds number : Nat}

/-! ## The stages one by one -/

theorem ne_nil_of_mem_levelsFrom (hlevel : level ∈ graph.levelsFrom rounds passed front) :
    level ≠ [] := by
  induction rounds generalizing passed front with
  | zero => cases hlevel
  | succ rounds ih =>
      cases front with
      | nil => cases hlevel
      | cons first rest =>
          rcases List.mem_cons.mp hlevel with rfl | hmore
          · exact List.cons_ne_nil first rest
          · exact ih hmore

/-- A stage holds what waits for nothing but what was passed before it, and was not passed itself. -/
theorem Frontier.mem_level_iff (hnodup : graph.ids.Nodup) (hfrontier : graph.Frontier passed front)
    (hlevel : (graph.levelsFrom rounds passed front)[number]? = some level) :
    id ∈ level ↔ id ∈ graph.ids ∧
      (∀ need ∈ graph.dependencies id,
        need ∈ passed ++ ((graph.levelsFrom rounds passed front).take number).flatten) ∧
      id ∉ passed ++ ((graph.levelsFrom rounds passed front).take number).flatten := by
  induction rounds generalizing passed front number with
  | zero => simp [levelsFrom] at hlevel
  | succ rounds ih =>
      cases front with
      | nil => simp [levelsFrom] at hlevel
      | cons first rest =>
          simp only [levelsFrom] at hlevel ⊢
          cases number with
          | zero =>
              rw [List.getElem?_cons_zero, Option.some.injEq] at hlevel
              subst hlevel
              have hmem := hfrontier.mem_iff id
              have happart := (List.nodup_append.mp hfrontier.nodup).2.2
              rw [List.take_zero, List.flatten_nil, List.append_nil, ← and_assoc, ← hmem,
                List.mem_append]
              constructor
              · intro hid
                exact ⟨Or.inr hid, fun hpassed => happart id hpassed id hid rfl⟩
              · rintro ⟨hid, hnew⟩
                exact hid.resolve_left hnew
          | succ number =>
              obtain ⟨hpassed, hnext⟩ := hfrontier.nextLevel_front hnodup
              rw [List.getElem?_cons_succ] at hlevel
              rw [ih hnext hlevel, hpassed]
              -- the front is passed in the order of the stage there, and in reverse here
              simp only [List.take_succ_cons, List.flatten_cons, List.mem_append, List.mem_reverse]
              grind

/-- Rounds beyond those that pass everything find no further stage. -/
theorem Frontier.levelsFrom_of_le (hnodup : graph.ids.Nodup)
    (hfrontier : graph.Frontier passed front)
    (hrounds : graph.ids.length ≤ passed.length + rounds) {more : Nat} (hmore : rounds ≤ more) :
    graph.levelsFrom more passed front = graph.levelsFrom rounds passed front := by
  induction rounds generalizing passed front more with
  | zero =>
      obtain rfl := hfrontier.eq_nil_of_length_le hrounds
      cases more <;> rfl
  | succ rounds ih =>
      obtain ⟨more, rfl⟩ : ∃ fewer, more = fewer + 1 := ⟨more - 1, by omega⟩
      cases front with
      | nil => rfl
      | cons first rest =>
          obtain ⟨hpassed, hnext⟩ := hfrontier.nextLevel_front hnodup
          have hlength :
              graph.ids.length ≤ (graph.nextLevel passed (first :: rest)).1.length + rounds := by
            rw [hpassed]
            simp
            omega
          have hsame := ih hnext hlength (Nat.le_of_succ_le_succ hmore)
          simp only [levelsFrom, hsame]

/-- However long the counting goes on, it finds the stages. -/
theorem stages_countdown_eq_levels (hgraph : graph.WellFormed)
    (hrounds : graph.nodes.length ≤ rounds) :
    graph.countdown.stages graph rounds = graph.levels := by
  have hlength : graph.ids.length ≤ ([] : List InstanceId).length + graph.nodes.length := by
    simp [length_ids]
  rw [stages_countdown hgraph, levels,
    (frontier_roots hgraph.nodup_ids).levelsFrom_of_le hgraph.nodup_ids hlength hrounds]

/-! ## The stage of an instance -/

/-- The number of the first stage that holds an instance. -/
def levelOf (graph : Graph) (id : InstanceId) : Nat :=
  graph.levels.findIdx fun level => level.contains id

/-- What comes before a stage is what has a smaller number. -/
theorem mem_take_levels_iff (hgraph : graph.WellFormed) (hid : id ∈ graph.ids) :
    id ∈ (graph.levels.take number).flatten ↔ graph.levelOf id < number := by
  rw [List.mem_flatten]
  constructor
  · rintro ⟨level, hlevel, hin⟩
    obtain ⟨place, hplace, rfl⟩ := List.mem_iff_getElem.mp hlevel
    rw [List.length_take] at hplace
    rw [List.getElem_take] at hin
    by_contra hle
    have hnot := List.not_of_lt_findIdx (show place < graph.levelOf id by omega)
    rw [← List.contains_iff_mem, hnot] at hin
    cases hin
  · intro hlt
    obtain ⟨level, hlevel, hin⟩ :=
      List.mem_flatten.mp ((levels_flatten_perm hgraph).mem_iff.mpr hid)
    have hbound : graph.levelOf id < graph.levels.length :=
      List.findIdx_lt_length_of_exists ⟨level, hlevel, by simpa using hin⟩
    have hholds : graph.levels[graph.levelOf id].contains id = true := List.findIdx_getElem
    refine ⟨graph.levels[graph.levelOf id], ?_, List.contains_iff_mem.mp hholds⟩
    rw [List.mem_take_iff_getElem]
    exact ⟨graph.levelOf id, by omega, rfl⟩

/-- A stage holds what waits for nothing but smaller stages and has no smaller one itself. -/
theorem mem_level_iff (hgraph : graph.WellFormed) (hlevel : graph.levels[number]? = some level) :
    id ∈ level ↔ id ∈ graph.ids ∧
      (∀ need ∈ graph.dependencies id, graph.levelOf need < number) ∧
      ¬ graph.levelOf id < number := by
  have hroots := frontier_roots hgraph.nodup_ids
  rw [hroots.mem_level_iff hgraph.nodup_ids hlevel, List.nil_append]
  refine and_congr_right fun hid => and_congr ?_ (not_congr (mem_take_levels_iff hgraph hid))
  exact forall₂_congr fun need hneed =>
    mem_take_levels_iff hgraph (hgraph.needs_mem id hid need hneed)

theorem exists_level_of_mem (hgraph : graph.WellFormed) (hid : id ∈ graph.ids) :
    ∃ level, graph.levels[graph.levelOf id]? = some level ∧ id ∈ level := by
  have hbehind := (mem_take_levels_iff hgraph hid).mpr (Nat.lt_succ_self _)
  rw [List.take_add_one, List.flatten_append, List.mem_append,
    mem_take_levels_iff hgraph hid] at hbehind
  obtain ⟨level, hlevel, hin⟩ := List.mem_flatten.mp (hbehind.resolve_left (Nat.lt_irrefl _))
  exact ⟨level, Option.mem_toList.mp hlevel, hin⟩

/-- An instance is in the stage of its number and in no other. -/
theorem mem_level_iff_levelOf_eq (hgraph : graph.WellFormed)
    (hlevel : graph.levels[number]? = some level) :
    id ∈ level ↔ id ∈ graph.ids ∧ graph.levelOf id = number := by
  constructor
  · intro hin
    obtain ⟨hid, hneeds, hnot⟩ := (mem_level_iff hgraph hlevel).mp hin
    refine ⟨hid, ?_⟩
    by_contra hne
    have hlater : graph.levelOf id < number + 1 := by
      rw [← mem_take_levels_iff hgraph hid, List.take_add_one, hlevel, List.flatten_append,
        List.mem_append]
      exact Or.inr (List.mem_flatten.mpr ⟨level, List.mem_singleton_self level, hin⟩)
    omega
  · rintro ⟨hid, rfl⟩
    obtain ⟨found, hfound, hin⟩ := exists_level_of_mem hgraph hid
    rw [hlevel, Option.some.injEq] at hfound
    exact hfound ▸ hin

/-- What an instance waits for stands in a smaller stage. -/
theorem levelOf_lt_of_mem_dependencies (hgraph : graph.WellFormed)
    (hneed : need ∈ graph.dependencies id) : graph.levelOf need < graph.levelOf id := by
  obtain ⟨level, hlevel, hin⟩ := exists_level_of_mem hgraph (mem_ids_of_mem_dependencies hneed)
  exact ((mem_level_iff hgraph hlevel).mp hin).2.1 need hneed

/-- An instance is not kept back: when all that it waits for comes before a stage, it is in that stage
or before it. -/
theorem levelOf_le_of_forall_lt (hgraph : graph.WellFormed) (hid : id ∈ graph.ids)
    (hneeds : ∀ need ∈ graph.dependencies id, graph.levelOf need < number) :
    graph.levelOf id ≤ number := by
  by_contra hlater
  obtain ⟨level, hlevel, -⟩ := exists_level_of_mem hgraph hid
  have hbound : number < graph.levels.length := by
    have := (List.getElem?_eq_some_iff.mp hlevel).1
    omega
  have hnumber : graph.levels[number]? = some graph.levels[number] := List.getElem?_eq_getElem hbound
  have hin := (mem_level_iff hgraph hnumber).mpr ⟨hid, hneeds, by omega⟩
  have := ((mem_level_iff_levelOf_eq hgraph hnumber).mp hin).2
  omega

/-- The stage of an instance comes right behind the latest of what it waits for. -/
theorem levelOf_eq (hgraph : graph.WellFormed) (hid : id ∈ graph.ids) :
    graph.levelOf id =
      match ((graph.dependencies id).map graph.levelOf).max? with
      | none => 0
      | some last => last + 1 := by
  cases hlast : ((graph.dependencies id).map graph.levelOf).max? with
  | none =>
      have hnone : graph.dependencies id = [] := by simpa using hlast
      have hfirst : graph.levelOf id ≤ 0 := levelOf_le_of_forall_lt hgraph hid (by simp [hnone])
      exact Nat.le_zero.mp hfirst
  | some last =>
      obtain ⟨hmem, hmax⟩ := List.max?_eq_some_iff.mp hlast
      obtain ⟨latest, hlatest, rfl⟩ := List.mem_map.mp hmem
      refine Nat.le_antisymm (levelOf_le_of_forall_lt hgraph hid fun need hneed => ?_)
        (levelOf_lt_of_mem_dependencies hgraph hlatest)
      exact Nat.lt_succ_of_le (hmax _ (List.mem_map_of_mem hneed))

/-- However the instances are spread over stages with what they wait for in smaller ones, none comes
earlier. -/
theorem levelOf_le_stage (hgraph : graph.WellFormed) {stage : InstanceId → Nat}
    (hstage : ∀ id ∈ graph.ids, ∀ need ∈ graph.dependencies id, stage need < stage id) :
    ∀ id ∈ graph.ids, graph.levelOf id ≤ stage id := by
  refine hgraph.induction fun id hid hneeds => ?_
  refine levelOf_le_of_forall_lt hgraph hid fun need hneed => ?_
  exact Nat.lt_of_le_of_lt (hneeds need hneed) (hstage id hid need hneed)

theorem levelOf_lt_of_transGen (hgraph : graph.WellFormed)
    (hpath : Relation.TransGen (fun need id => need ∈ graph.dependencies id) need id) :
    graph.levelOf need < graph.levelOf id := by
  induction hpath with
  | single hneed => exact levelOf_lt_of_mem_dependencies hgraph hneed
  | tail _ hneed ih => exact Nat.lt_trans ih (levelOf_lt_of_mem_dependencies hgraph hneed)

theorem not_transGen_of_mem_level (hgraph : graph.WellFormed) (hlevel : level ∈ graph.levels)
    (hid : id ∈ level) (hneed : need ∈ level) :
    ¬ Relation.TransGen (fun need id => need ∈ graph.dependencies id) need id := by
  intro hpath
  obtain ⟨number, hnumber⟩ := List.mem_iff_getElem?.mp hlevel
  have hlater := levelOf_lt_of_transGen hgraph hpath
  rw [((mem_level_iff_levelOf_eq hgraph hnumber).mp hid).2,
    ((mem_level_iff_levelOf_eq hgraph hnumber).mp hneed).2] at hlater
  exact Nat.lt_irrefl number hlater

/-- The stages of a graph that was built hold every instance once, and none of them is empty. The stage
of an instance is the first if it waits for nothing, else the one behind the latest of what it waits for.
So no way leads from one instance of a stage to another, and no instance could come earlier. Counting off
what is passed, as long as something is queued, finds these stages. -/
theorem levels_longest_path {jobs : List JobInstance}
    {needs : Option (Table String (List String))} (hbuild : build jobs needs = .ok graph) :
    graph.levels.flatten.Perm (jobs.map JobInstance.id) ∧
    (∀ level ∈ graph.levels, level ≠ []) ∧
    (∀ number level, graph.levels[number]? = some level → ∀ id,
      id ∈ level ↔ id ∈ jobs.map JobInstance.id ∧ graph.levelOf id = number) ∧
    (∀ id ∈ jobs.map JobInstance.id, graph.levelOf id =
      match ((graph.dependencies id).map graph.levelOf).max? with
      | none => 0
      | some last => last + 1) ∧
    (∀ level ∈ graph.levels, ∀ id ∈ level, ∀ need ∈ level,
      ¬ Relation.TransGen (fun need id => need ∈ graph.dependencies id) need id) ∧
    (∀ stage : InstanceId → Nat,
      (∀ id ∈ jobs.map JobInstance.id, ∀ need ∈ graph.dependencies id, stage need < stage id) →
      ∀ id ∈ jobs.map JobInstance.id, graph.levelOf id ≤ stage id) ∧
    ∀ rounds, jobs.length ≤ rounds → graph.countdown.stages graph rounds = graph.levels := by
  have hgraph := build_wellFormed hbuild
  have hids : graph.ids = jobs.map JobInstance.id := by
    rw [← jobs_of_build hbuild, List.map_map]
    rfl
  have hlength : graph.nodes.length = jobs.length := by
    rw [← jobs_of_build hbuild, List.length_map]
  rw [← hids, ← hlength]
  exact ⟨levels_flatten_perm hgraph, fun _ => ne_nil_of_mem_levelsFrom,
    fun _ _ hlevel _ => mem_level_iff_levelOf_eq hgraph hlevel, fun _ => levelOf_eq hgraph,
    fun _ hlevel _ hid _ => not_transGen_of_mem_level hgraph hlevel hid,
    fun _ => levelOf_le_stage hgraph, fun _ => stages_countdown_eq_levels hgraph⟩

/-- The deployment waits for the build, and for the check that comes behind the build, so its stage is
the third. The check and the note are in one stage, and neither leads to the other. -/
theorem levels_longest_path_forked :
    build forkedJobs = .ok forkedGraph ∧
      forkedGraph.levels =
        [[⟨"build", []⟩], [⟨"check", []⟩, ⟨"note", []⟩], [⟨"deploy", []⟩]] ∧
      forkedGraph.levelOf ⟨"deploy", []⟩ = 2 ∧
      ¬ Relation.TransGen (fun need id => need ∈ forkedGraph.dependencies id)
        ⟨"check", []⟩ ⟨"note", []⟩ := by
  have hlevels : forkedGraph.levels =
      [[⟨"build", []⟩], [⟨"check", []⟩, ⟨"note", []⟩], [⟨"deploy", []⟩]] := by
    cbv
  obtain ⟨-, -, hnumber, -, hapart, -⟩ := levels_longest_path build_forkedJobs
  rw [hlevels] at hnumber hapart
  have hdeploy := (hnumber 2 _ rfl ⟨"deploy", []⟩).mp List.mem_cons_self
  have hmiddle := hapart [⟨"check", []⟩, ⟨"note", []⟩] (by simp)
  exact ⟨build_forkedJobs, hlevels, hdeploy.2,
    hmiddle ⟨"note", []⟩ (by simp) ⟨"check", []⟩ (by simp)⟩

end CiPipeline.Graph
