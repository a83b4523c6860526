import CiPipeline.Proofs.Exposure

/-!
Protection adds up. Names that are protected one call after the other leave what one call with all of
them leaves: the same environment and the same values. Neither the order of the names nor a name that is
repeated matters, and no value is ever there twice.
-/

namespace CiPipeline

/-! ## Values that are added -/

section Values

variable {value : String} {known values more : List String}

/-- What is added stands behind what was known, each value once. -/
theorem exists_addValues (known values : List String) :
    ∃ fresh, addValues known values = known ++ fresh ∧ fresh.Nodup ∧
      ∀ value, value ∈ fresh ↔ value ∈ values ∧ value ≠ "" ∧ value ∉ known := by
  induction values generalizing known with
  | nil => exact ⟨[], by simp [addValues], List.nodup_nil, by simp⟩
  | cons first rest ih =>
      unfold addValues
      split
      · next hidle =>
          obtain ⟨fresh, heq, hnodup, hmem⟩ := ih known
          refine ⟨fresh, heq, hnodup, ?_⟩
          intro value
          have hfirst : value = first → ¬ (value ≠ "" ∧ value ∉ known) := by
            rintro rfl ⟨hvalue, hnew⟩
            exact hnew ((mem_or_eq_iff hidle).mp (Or.inr ⟨rfl, hvalue⟩))
          rw [hmem, List.mem_cons, or_and_right]
          exact (or_iff_right fun h => hfirst h.1 h.2).symm
      · next hnew =>
          obtain ⟨fresh, heq, hnodup, hmem⟩ := ih (known ++ [first])
          have hfirst := ne_empty_of_added hnew
          have hunknown : first ∉ known := by
            intro hknown
            simp [hknown] at hnew
          refine ⟨first :: fresh, ?_, ?_, ?_⟩
          · rw [heq, List.append_assoc, List.singleton_append]
          · refine List.nodup_cons.mpr ⟨?_, hnodup⟩
            intro hin
            exact ((hmem first).mp hin).2.2 (by simp)
          · intro value
            rw [List.mem_cons, List.mem_cons, hmem, List.mem_append, List.mem_singleton, not_or]
            by_cases hvalue : value = first
            · subst hvalue
              simp [hfirst, hunknown]
            · simp [hvalue]

theorem addValues_append (known values more : List String) :
    addValues known (values ++ more) = addValues (addValues known values) more := by
  induction values generalizing known with
  | nil => rfl
  | cons first rest ih =>
      simp only [List.cons_append, addValues]
      split
      · exact ih known
      · exact ih (known ++ [first])

/-- Nothing is added of values that are known already. -/
theorem addValues_eq_self (hknown : ∀ value ∈ values, value ≠ "" → value ∈ known) :
    addValues known values = known := by
  obtain ⟨fresh, heq, _, hmem⟩ := exists_addValues known values
  have hnone : fresh = [] := by
    rw [List.eq_nil_iff_forall_not_mem]
    intro value hvalue
    obtain ⟨hin, hsome, hnew⟩ := (hmem value).mp hvalue
    exact hnew (hknown value hin hsome)
  rw [heq, hnone, List.append_nil]

/-- The order of values that are added, and how often each is there, tells only where they stand. -/
theorem addValues_perm (known : List String) (hsame : ∀ value, value ∈ values ↔ value ∈ more) :
    (addValues known values).Perm (addValues known more) := by
  obtain ⟨fresh, heq, hnodup, hmem⟩ := exists_addValues known values
  obtain ⟨others, heq', hnodup', hmem'⟩ := exists_addValues known more
  rw [heq, heq']
  refine List.Perm.append_left known ((List.perm_ext_iff_of_nodup hnodup hnodup').mpr ?_)
  intro value
  rw [hmem, hmem', hsame]

theorem nodup_addValues (hnodup : known.Nodup) (values : List String) :
    (addValues known values).Nodup := by
  obtain ⟨fresh, heq, hfresh, hmem⟩ := exists_addValues known values
  rw [heq, List.nodup_append']
  exact ⟨hnodup, hfresh, fun value hknown hin => ((hmem value).mp hin).2.2 hknown⟩

end Values

/-! ## Environments that are scrubbed -/

namespace Environment

variable {environment : Environment} {values more names others : List String}

/-- What is scrubbed of an environment hangs on the names and on the values that are not empty, and not
on how they are listed. -/
theorem scrub_congr (hvalues : ∀ value, value ≠ "" → (value ∈ values ↔ value ∈ more))
    (hnames : ∀ name, name ∈ names ↔ name ∈ others) :
    environment.scrub values names = environment.scrub more others := by
  have hsame : ∀ entry : String × String,
      (!(names.contains entry.1 || (!entry.2.isEmpty && values.contains entry.2))) =
        !(others.contains entry.1 || (!entry.2.isEmpty && more.contains entry.2)) := by
    rintro ⟨name, value⟩
    by_cases hvalue : value = ""
    · have hempty : value.isEmpty = true := String.isEmpty_iff.mpr hvalue
      simp [hempty, hnames]
    · simp [hnames, hvalues value hvalue]
  simp only [scrub, Table.filter, hsame]

/-- An environment that is scrubbed twice has lost what one scrubbing takes with all the names and the
values of the second time, if these include the first ones. -/
theorem scrub_scrub (hvalues : ∀ value ∈ values, value ∈ more) :
    (environment.scrub values names).scrub more others =
      environment.scrub more (names ++ others) := by
  have hboth : ∀ entry : String × String,
      (!(others.contains entry.1 || (!entry.2.isEmpty && more.contains entry.2)) &&
        !(names.contains entry.1 || (!entry.2.isEmpty && values.contains entry.2))) =
        !((names ++ others).contains entry.1 || (!entry.2.isEmpty && more.contains entry.2)) := by
    rintro ⟨name, value⟩
    have hvalue : values.contains value = true → more.contains value = true := by
      simpa using hvalues value
    rw [List.contains_append]
    cases hin : values.contains value
    · grind
    · grind
  simp only [scrub, Table.filter, List.filter_filter, hboth]

/-- Nothing is scrubbed of an environment in which none of the values is found. -/
theorem scrub_eq_self (hvalues : ∀ value ∈ environment.values, value ∉ values) :
    environment.scrub values [] = environment := by
  have hall : environment.entries.filter
      (fun entry => !([].contains entry.1 || (!entry.2.isEmpty && values.contains entry.2))) =
        environment.entries := by
    rw [List.filter_eq_self]
    intro entry hentry
    have habsent := hvalues entry.2 (List.mem_map_of_mem hentry)
    simp [habsent]
  cases environment
  simp only [scrub, Table.filter, hall]

end Environment

namespace Executor

variable {executor : Executor} {names others : List String}

/-! ## Guarding one after the other -/

theorem guarding_guarding (executor : Executor) (names others : List String) :
    (executor.guarding names).guarding others = executor.guarding (names ++ others) := by
  have hvalues := addValues_append executor.protectedValues
    (names.filterMap executor.secrets.value?) (others.filterMap executor.secrets.value?)
  simp only [guarding, List.filterMap_append, hvalues]
  rw [Environment.scrub_scrub fun value hvalue => mem_addValues_iff.mpr (Or.inl hvalue)]

/-- Names that are guarded already change nothing. -/
theorem guarding_of_subset (hknown : others ⊆ names) :
    (executor.guarding names).guarding others = executor.guarding names := by
  rw [guarding_guarding]
  have hvalues :
      addValues executor.protectedValues ((names ++ others).filterMap executor.secrets.value?) =
        addValues executor.protectedValues (names.filterMap executor.secrets.value?) := by
    rw [List.filterMap_append, addValues_append]
    apply addValues_eq_self
    intro value hvalue hsome
    obtain ⟨name, hname, hsecret⟩ := List.mem_filterMap.mp hvalue
    exact mem_addValues_iff.mpr
      (Or.inr ⟨List.mem_filterMap.mpr ⟨name, hknown hname, hsecret⟩, hsome⟩)
  have hnames : ∀ name, name ∈ names ++ others ↔ name ∈ names := by
    intro name
    rw [List.mem_append]
    exact or_iff_left_of_imp fun hname => hknown hname
  simp only [guarding, hvalues]
  rw [Environment.scrub_congr (fun _ _ => Iff.rfl) hnames]

/-- Of the same names in another order the environment is the same, and so are the values but for
their order. -/
theorem guarding_congr (hsame : ∀ name, name ∈ names ↔ name ∈ others) :
    (executor.guarding names).baseEnv = (executor.guarding others).baseEnv ∧
      (executor.guarding names).protectedValues.Perm (executor.guarding others).protectedValues := by
  have hvalues : ∀ value, value ∈ names.filterMap executor.secrets.value? ↔
      value ∈ others.filterMap executor.secrets.value? := by
    intro value
    simp only [List.mem_filterMap, hsame]
  have hperm := addValues_perm executor.protectedValues hvalues
  exact ⟨Environment.scrub_congr (fun value _ => hperm.mem_iff) hsame, hperm⟩

/-! ## Calls one after the other -/

theorem protect_protect (executor : Executor) (names others : List String) :
    (executor.protect names >>= fun after => after.protect others) =
      executor.protect (names ++ others) := by
  have happend : executor.secrets.crashAmong? (names ++ others) =
      (executor.secrets.crashAmong? names).or (executor.secrets.crashAmong? others) :=
    List.findSome?_append
  have hsecrets : (executor.guarding names).secrets = executor.secrets := rfl
  unfold protect
  rw [happend]
  cases executor.secrets.crashAmong? names with
  | some crash => rfl
  | none => rw [ok_bind, hsecrets, Option.none_or, guarding_guarding]

/-- Names that are protected already change nothing. -/
theorem protect_of_subset (hknown : others ⊆ names) :
    (executor.protect names >>= fun after => after.protect others) = executor.protect names := by
  cases hprotect : executor.protect names with
  | error crash => rfl
  | ok after =>
      obtain ⟨hanswers, rfl⟩ := protect_eq_ok_iff.mp hprotect
      exact protect_eq_ok_iff.mpr ⟨hanswers.mono hknown, (guarding_of_subset hknown).symm⟩

theorem protect_congr (hsame : ∀ name, name ∈ names ↔ name ∈ others) {after : Executor}
    (hprotect : executor.protect names = .ok after) :
    ∃ other, executor.protect others = .ok other ∧ after.baseEnv = other.baseEnv ∧
      after.protectedValues.Perm other.protectedValues := by
  obtain ⟨hanswers, rfl⟩ := protect_eq_ok_iff.mp hprotect
  have hothers : executor.secrets.Answers others := hanswers.mono fun name => (hsame name).mpr
  exact ⟨_, protect_eq_ok_iff.mpr ⟨hothers, rfl⟩, guarding_congr hsame⟩

/-! ## Executors as they come to be -/

/-- An executor as it comes to be: nothing is protected at first, and then some names after others. -/
inductive Arises : Executor → Prop
  | fresh {executor : Executor} (hfresh : executor.protectedValues = []) : Arises executor
  | protect {executor after : Executor} {names : List String} (hbefore : Arises executor)
      (hprotect : executor.protect names = .ok after) : Arises after

/-- What protecting keeps up: the values differ and none is empty, and nothing that jobs inherit has
one of them. -/
structure Sealed (executor : Executor) : Prop where
  nodup : executor.protectedValues.Nodup
  ne_empty : "" ∉ executor.protectedValues
  scrubbed : ∀ value ∈ executor.baseEnv.values, value ∉ executor.protectedValues

theorem Sealed.guarding (hsealed : executor.Sealed) (names : List String) :
    (executor.guarding names).Sealed where
  nodup := nodup_addValues hsealed.nodup _
  ne_empty := by
    intro hempty
    rcases mem_addValues_iff.mp hempty with hknown | ⟨_, hsome⟩
    · exact hsealed.ne_empty hknown
    · exact hsome rfl
  scrubbed := by
    intro value hinherited hprotected
    obtain ⟨key, hkey⟩ := Table.mem_values_iff.mp hinherited
    rcases (Environment.get?_scrub_eq_some_iff.mp hkey).2.2 with rfl | hgone
    · rcases mem_addValues_iff.mp hprotected with hknown | ⟨_, hsome⟩
      · exact hsealed.ne_empty hknown
      · exact hsome rfl
    · exact hgone hprotected

theorem Sealed.protect (hsealed : executor.Sealed) {after : Executor}
    (hprotect : executor.protect names = .ok after) : after.Sealed := by
  obtain ⟨_, rfl⟩ := protect_eq_ok_iff.mp hprotect
  exact hsealed.guarding names

theorem Arises.sealed (harises : executor.Arises) : executor.Sealed := by
  induction harises with
  | fresh hfresh => exact ⟨by simp [hfresh], by simp [hfresh], by simp [hfresh]⟩
  | protect _ hprotect ih => exact ih.protect hprotect

/-- Protecting no names changes nothing, since what is protected was scrubbed before. -/
theorem Sealed.protect_nil (hsealed : executor.Sealed) : executor.protect [] = .ok executor := by
  have henv := Environment.scrub_eq_self hsealed.scrubbed
  refine protect_eq_ok_iff.mpr ⟨by simp [SecretProvider.Answers], ?_⟩
  cases executor
  simp only [Executor.guarding, List.filterMap_nil, addValues] at henv ⊢
  rw [henv]

/-- Any calls leave what one call with all of their names leaves. -/
theorem Sealed.foldlM_protect (hsealed : executor.Sealed) (calls : List (List String)) :
    calls.foldlM Executor.protect executor = executor.protect calls.flatten := by
  induction calls generalizing executor with
  | nil => exact hsealed.protect_nil.symm
  | cons names rest ih =>
      rw [List.foldlM_cons, List.flatten_cons, ← protect_protect]
      cases hprotect : executor.protect names with
      | error crash => rfl
      | ok after => exact ih (hsealed.protect hprotect)

/-- However names come to be protected, in one call or in many, in any order and however often: the
environment that jobs inherit is that of one call with these names, and so are the values, which come
once each and are not empty. A call leaves an executor exactly if all of its names can be looked up. -/
theorem protection_adds_up (harises : executor.Arises) (names others : List String) :
    (executor.protect names >>= fun after => after.protect others) =
      executor.protect (names ++ others) ∧
    (others ⊆ names →
      (executor.protect names >>= fun after => after.protect others) = executor.protect names) ∧
    (∀ calls : List (List String),
      calls.foldlM protect executor = executor.protect calls.flatten) ∧
    ((∀ name, name ∈ names ↔ name ∈ others) → ∀ after, executor.protect names = .ok after →
      ∃ other, executor.protect others = .ok other ∧ after.baseEnv = other.baseEnv ∧
        after.protectedValues.Perm other.protectedValues) ∧
    (∀ after, executor.protect names = .ok after →
      after.protectedValues.Nodup ∧ "" ∉ after.protectedValues) ∧
    ((∃ after, executor.protect names = .ok after) ↔ executor.secrets.Answers names) := by
  have hsealed := harises.sealed
  refine ⟨protect_protect executor names others, protect_of_subset, hsealed.foldlM_protect,
    fun hsame _ => protect_congr hsame, ?_, ?_⟩
  · intro after hprotect
    have hafter := hsealed.protect hprotect
    exact ⟨hafter.nodup, hafter.ne_empty⟩
  · simp only [protect_eq_ok_iff, exists_and_left, exists_eq, and_true]

/-- An executor with two names of one secret, one of an empty secret and one of none, and with
variables that have their names and their values. -/
def guardedExecutor : Executor where
  secrets := .ofTable (.ofList [("TOKEN", "s3cret"), ("COPY", "s3cret"), ("EMPTY", "")])
  runner := fun _ => .exited 0 ""
  directories := Workspace.directories { root := [], isDirectory := fun path => path == [] }
  baseEnv := .ofList [("TOKEN", "old"), ("KEY", "s3cret"), ("BLANK", ""), ("LOST", "x"), ("PATH", "/bin")]
  now := ⟨0⟩

/-- The names are protected in two calls, turned round and once more. -/
theorem protection_adds_up_guarded :
    (guardedExecutor.protect ["TOKEN", "EMPTY"] >>= fun after => after.protect ["LOST", "COPY"]) =
      guardedExecutor.protect ["TOKEN", "EMPTY", "LOST", "COPY"] ∧
    (guardedExecutor.protect ["TOKEN", "EMPTY", "LOST", "COPY"] >>= fun after =>
      after.protect ["COPY"]) = guardedExecutor.protect ["TOKEN", "EMPTY", "LOST", "COPY"] ∧
    [["COPY"], [], ["LOST", "EMPTY", "TOKEN"]].foldlM protect guardedExecutor =
      guardedExecutor.protect ["COPY", "LOST", "EMPTY", "TOKEN"] ∧
    ∃ after, guardedExecutor.protect ["COPY", "LOST", "EMPTY", "TOKEN"] = .ok after ∧
      after.baseEnv = .ofList [("BLANK", ""), ("PATH", "/bin")] ∧
      ["s3cret"].Perm after.protectedValues := by
  have harises : guardedExecutor.Arises := .fresh rfl
  obtain ⟨htwo, _, _⟩ := protection_adds_up harises ["TOKEN", "EMPTY"] ["LOST", "COPY"]
  obtain ⟨_, hagain, hcalls, _⟩ :=
    protection_adds_up harises ["TOKEN", "EMPTY", "LOST", "COPY"] ["COPY"]
  obtain ⟨_, _, _, hturned, _⟩ := protection_adds_up harises
    ["TOKEN", "EMPTY", "LOST", "COPY"] ["COPY", "LOST", "EMPTY", "TOKEN"]
  have hprotect : guardedExecutor.protect ["TOKEN", "EMPTY", "LOST", "COPY"] =
      .ok (guardedExecutor.guarding ["TOKEN", "EMPTY", "LOST", "COPY"]) :=
    protect_eq_ok_iff.mpr ⟨SecretProvider.answers_ofTable _ _, rfl⟩
  obtain ⟨other, hother, henv, hvalues⟩ := hturned (by simp; grind) _ hprotect
  refine ⟨htwo, hagain (by simp), hcalls _, other, hother, henv.symm.trans ?_, hvalues⟩
  decide +kernel

end Executor
end CiPipeline
