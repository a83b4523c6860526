import CiPipeline.Execution
import CiPipeline.Proofs.Except
import CiPipeline.Proofs.Text.Occurrence

/-!
Masking leaves nothing of a secret behind. Where one value is masked it does not occur any more, and
masking the others never puts it together again, since the mask has a character that it has not. A
job masks every secret that is protected, whatever its own steps ask for.
-/

namespace CiPipeline

/-! ## Masking a text -/

section Mask

variable {part target : List Char}

theorem mask_toList : mask.toList = ['*', '*', '*'] := rfl

/-- A front of the masked text is a front of the text: no occurrence before its end was replaced. -/
theorem prefix_of_prefix_replaceFrom (target : List Char) (hmask : '*' ∉ part) {s : List Char}
    (hpart : part <+: Text.replaceFrom target mask.toList 0 s) : part <+: s := by
  induction s generalizing part with
  | nil => exact hpart
  | cons c rest ih =>
      cases part with
      | nil => exact List.nil_prefix
      | cons first more =>
          rw [List.mem_cons, not_or] at hmask
          simp only [Text.replaceFrom] at hpart
          split at hpart
          · rw [mask_toList, List.cons_append, List.cons_prefix_cons] at hpart
            exact absurd hpart.1.symm hmask.1
          · rw [List.cons_prefix_cons] at hpart
            exact List.cons_prefix_cons.mpr ⟨hpart.1, ih hmask.2 hpart.2⟩

/-- What occurs in the masked text occurs in the text, and is not what was masked. -/
theorem of_infix_replaceFrom (hmask : '*' ∉ part) (hpart : part ≠ []) {skip : Nat} {s : List Char}
    (hoccurs : part <:+: Text.replaceFrom target mask.toList skip s) :
    part ≠ target ∧ part <:+: s := by
  induction s generalizing skip with
  | nil =>
      cases skip <;> exact absurd (List.infix_nil.mp hoccurs) hpart
  | cons c rest ih =>
      cases skip with
      | succ skip => exact (ih hoccurs).imp_right List.infix_cons
      | zero =>
          simp only [Text.replaceFrom] at hoccurs
          split at hoccurs
          · have hrest := Text.infix_of_infix_cons hmask
              (Text.infix_of_infix_cons hmask (Text.infix_of_infix_cons hmask hoccurs))
            exact (ih hrest).imp_right List.infix_cons
          · next hother =>
              rcases List.infix_cons_iff.mp hoccurs with hprefix | hrest
              · have hfront : part <+: c :: rest := by
                  apply prefix_of_prefix_replaceFrom target hmask
                  rwa [Text.replaceFrom, if_neg hother]
                refine ⟨?_, hfront.isInfix⟩
                rintro rfl
                exact hother (List.isPrefixOf_iff_prefix.mpr hfront)
              · exact (ih hrest).imp_right List.infix_cons

end Mask

/-! ## Masking many values -/

section Values

variable {value other : String} {known : List String}

/-- Nothing is to be added of a value that is empty or known. -/
theorem mem_or_eq_iff (hidle : (other.isEmpty || known.contains other) = true) :
    value ∈ known ∨ value = other ∧ value ≠ "" ↔ value ∈ known := by
  rw [Bool.or_eq_true, String.isEmpty_iff, List.contains_iff_mem] at hidle
  constructor
  · rintro (hmem | ⟨rfl, hvalue⟩)
    · exact hmem
    · exact hidle.resolve_left hvalue
  · exact Or.inl

theorem ne_empty_of_added (hnew : ¬ (other.isEmpty || known.contains other) = true) :
    other ≠ "" := by
  rw [Bool.or_eq_true, not_or, String.isEmpty_iff] at hnew
  exact hnew.1

theorem mem_addValues_iff {values : List String} :
    value ∈ addValues known values ↔ value ∈ known ∨ value ∈ values ∧ value ≠ "" := by
  induction values generalizing known with
  | nil => simp [addValues]
  | cons first rest ih =>
      unfold addValues
      rw [List.mem_cons, or_and_right, ← or_assoc]
      split
      · next hidle => rw [ih, mem_or_eq_iff hidle]
      · next hnew =>
          have hfirst : value = first → value ≠ "" := fun heq => heq ▸ ne_empty_of_added hnew
          rw [ih, List.mem_append, List.mem_singleton, and_iff_left_of_imp hfirst]

end Values

namespace Redactor

variable {redactor : Redactor} {value other : String}

theorem not_infix_foldl_maskValue (hmask : '*' ∉ value.toList) (hvalue : value ≠ "")
    {values : List String} {s : List Char}
    (hgone : value ∈ values ∨ ¬ value.toList <:+: s) :
    ¬ value.toList <:+: values.foldl maskValue s := by
  have hne : value.toList ≠ [] := fun hnil => hvalue (String.toList_eq_nil_iff.mp hnil)
  induction values generalizing s with
  | nil => exact hgone.resolve_left List.not_mem_nil
  | cons first rest ih =>
      apply ih
      rcases hgone with hmem | hnot
      · rcases List.mem_cons.mp hmem with rfl | hrest
        · exact Or.inr fun hoccurs => (of_infix_replaceFrom hmask hne hoccurs).1 rfl
        · exact Or.inl hrest
      · exact Or.inr fun hoccurs => hnot (of_infix_replaceFrom hmask hne hoccurs).2

/-- A masked value does not occur in what was redacted. -/
theorem not_occurs_redact (hmem : value ∈ redactor.values) (hmask : '*' ∉ value.toList)
    (hvalue : value ≠ "") (text : String) : ¬ Text.Occurs value (redactor.redact text) := by
  rw [Text.Occurs, redact, String.toList_ofList]
  exact not_infix_foldl_maskValue hmask hvalue (Or.inl hmem)

/-- A text is left as it is where none of the values occurs in it. -/
theorem redact_eq_self {text : String}
    (habsent : ∀ value ∈ redactor.values, ¬ Text.Occurs value text) :
    redactor.redact text = text := by
  obtain ⟨values⟩ := redactor
  rw [redact]
  induction values with
  | nil => exact String.ofList_toList
  | cons first rest ih =>
      have hfirst : maskValue text.toList first = text.toList :=
        Text.replaceFrom_eq_self mask.toList (habsent first List.mem_cons_self)
      rw [List.foldl_cons, hfirst]
      exact ih fun value hvalue => habsent value (List.mem_cons_of_mem first hvalue)

theorem mem_insertByLength_iff {values : List String} :
    value ∈ insertByLength other values ↔ value = other ∨ value ∈ values := by
  induction values with
  | nil => simp [insertByLength]
  | cons first rest ih =>
      unfold insertByLength
      split
      · rw [List.mem_cons]
      · rw [List.mem_cons, ih, List.mem_cons]
        exact or_left_comm

theorem mem_add_iff :
    value ∈ (redactor.add other).values ↔
      value ∈ redactor.values ∨ value = other ∧ value ≠ "" := by
  unfold add
  split
  · next hidle => exact (mem_or_eq_iff hidle).symm
  · next hnew =>
      have hother : value = other → value ≠ "" := fun heq => heq ▸ ne_empty_of_added hnew
      rw [mem_insertByLength_iff, and_iff_left_of_imp hother]
      exact or_comm

theorem mem_addAll_iff {values : List String} :
    value ∈ (redactor.addAll values).values ↔
      value ∈ redactor.values ∨ value ∈ values ∧ value ≠ "" := by
  induction values generalizing redactor with
  | nil => simp [addAll]
  | cons first rest ih =>
      change value ∈ ((redactor.add first).addAll rest).values ↔ _
      rw [ih, mem_add_iff, List.mem_cons, or_and_right, or_assoc]

theorem mem_ofList_iff {values : List String} :
    value ∈ (ofList values).values ↔ value ∈ values ∧ value ≠ "" := by
  rw [ofList, mem_addAll_iff]
  exact or_iff_right List.not_mem_nil

/-- Whatever values were added, in any order and however often, none without the character of the mask
is left in a redacted text. Without that character in any value a second redaction changes nothing, and a
text in which no value occurs is not changed at all. -/
theorem redact_leaves_no_value (values : List String) (text : String) :
    (∀ value ∈ values, value ≠ "" → '*' ∉ value.toList →
      ¬ Text.Occurs value ((ofList values).redact text)) ∧
    ((∀ value ∈ values, '*' ∉ value.toList) →
      (ofList values).redact ((ofList values).redact text) = (ofList values).redact text) ∧
    ((∀ value ∈ values, value ≠ "" → ¬ Text.Occurs value text) →
      (ofList values).redact text = text) := by
  have hgone : ∀ value ∈ values, value ≠ "" → '*' ∉ value.toList →
      ¬ Text.Occurs value ((ofList values).redact text) := by
    intro value hmem hvalue hmask
    exact not_occurs_redact (mem_ofList_iff.mpr ⟨hmem, hvalue⟩) hmask hvalue text
  refine ⟨hgone, ?_, ?_⟩
  · intro hmasks
    apply redact_eq_self
    intro value hknown
    obtain ⟨hmem, hvalue⟩ := mem_ofList_iff.mp hknown
    exact hgone value hmem hvalue (hmasks value hmem)
  · intro habsent
    apply redact_eq_self
    intro value hknown
    obtain ⟨hmem, hvalue⟩ := mem_ofList_iff.mp hknown
    exact habsent value hmem hvalue

/-- Values that overlap themselves and each other, one of them twice. -/
theorem redact_leaves_no_value_overlapping :
    ¬ Text.Occurs "aba" ((ofList ["ab", "aba", "", "ab"]).redact "xababab") ∧
    (ofList ["ab", "aba", "", "ab"]).redact ((ofList ["ab", "aba", "", "ab"]).redact "xababab") =
      (ofList ["ab", "aba", "", "ab"]).redact "xababab" ∧
    (ofList ["ab", "aba", "", "ab"]).redact "ba*" = "ba*" := by
  obtain ⟨hgone, htwice, _⟩ := redact_leaves_no_value ["ab", "aba", "", "ab"] "xababab"
  obtain ⟨_, _, hother⟩ := redact_leaves_no_value ["ab", "aba", "", "ab"] "ba*"
  exact ⟨hgone "aba" (by decide) (by decide) (by decide), htwice (by decide), hother (by decide)⟩

end Redactor

theorem Pipeline.mem_secretNames_iff {pipeline : Pipeline} {name : String} :
    name ∈ pipeline.secretNames ↔
      ∃ job ∈ pipeline.jobs, ∃ step ∈ job.steps, name ∈ step.secrets.values := by
  simp only [secretNames, List.mem_eraseDups, List.mem_flatMap]

/-! ## Looking secrets up -/

namespace SecretProvider

/-- A provider answers for some names: looking them up tells whether there are such secrets, and does not
crash. -/
def Answers (provider : SecretProvider) (names : List String) : Prop :=
  ∀ name ∈ names, ∃ known, provider name = .ok known

variable {provider : SecretProvider} {names : List String} {name value : String} {crash : Crash}

theorem value?_eq_some_iff : provider.value? name = some value ↔ provider name = .ok (some value) := by
  unfold value?
  split
  · next hknown => simp [hknown]
  · next hcrash => simp [hcrash]

theorem crash?_eq_none_iff : provider.crash? name = Option.none ↔ ∃ known, provider name = .ok known := by
  unfold crash?
  split
  · next hknown => simp [hknown]
  · next hcrash => simp [hcrash]

/-- Looking some secrets up comes to no crash exactly if the provider answers for each. -/
theorem crashAmong?_eq_none_iff : provider.crashAmong? names = Option.none ↔ provider.Answers names := by
  simp only [crashAmong?, List.findSome?_eq_none_iff, crash?_eq_none_iff, Answers]

theorem Answers.mono {fewer : List String} (hanswers : provider.Answers names) (hfewer : fewer ⊆ names) :
    provider.Answers fewer :=
  fun name hname => hanswers name (hfewer hname)

theorem get_eq_ok_iff : provider.get name = .ok value ↔ provider.value? name = some value := by
  unfold get value?
  split
  · next hknown => simp [hknown]
  · next hunknown => simp [hunknown]
  · next hcrash => simp [hcrash]

theorem get_eq_missing_iff {other : String} :
    provider.get name = .error (.missing other) ↔ provider name = .ok Option.none ∧ other = name := by
  unfold get
  split
  · next hknown => simp [hknown]
  · next hunknown => simp [hunknown, eq_comm]
  · next hcrash => simp [hcrash]

theorem get_eq_crashed_iff :
    provider.get name = .error (.crashed crash) ↔ provider name = .error crash := by
  unfold get
  split
  · next hknown => simp [hknown]
  · next hunknown => simp [hunknown]
  · next hcrash => simp [hcrash]

theorem answers_ofTable (values : Table String String) (names : List String) :
    (ofTable values).Answers names :=
  fun _ _ => ⟨_, rfl⟩

theorem answers_none (names : List String) : SecretProvider.none.Answers names :=
  fun _ _ => ⟨_, rfl⟩

end SecretProvider

namespace Executor

variable {executor : Executor}

/-- Secrets are not resolved where one of them cannot be had. -/
theorem exists_error_of_resolveSecrets {provider : SecretProvider} {entries : List (String × String)}
    {error : SecretError} (herror : resolveSecrets provider entries = .error error) :
    ∃ name ∈ entries.map Prod.snd, provider.get name = .error error := by
  induction entries with
  | nil => cases herror
  | cons entry rest ih =>
      rcases bind_eq_error_iff.mp herror with hfirst | ⟨_, _, hrest⟩
      · exact ⟨entry.2, List.mem_cons_self, hfirst⟩
      · rcases bind_eq_error_iff.mp hrest with hmore | ⟨_, _, hreturn⟩
        · obtain ⟨name, hname, hget⟩ := ih hmore
          exact ⟨name, List.mem_cons_of_mem _ hname, hget⟩
        · cases hreturn

/-- Protecting some names leaves the executor that guards them, if all of them can be looked up. -/
theorem protect_eq_ok_iff {after : Executor} {names : List String} :
    executor.protect names = .ok after ↔
      executor.secrets.Answers names ∧ after = executor.guarding names := by
  rw [← SecretProvider.crashAmong?_eq_none_iff]
  unfold protect
  split
  · next hcrash => simp [hcrash]
  · next hnone => simp [hnone, eq_comm]

theorem protect_eq_error_iff {crash : Crash} {names : List String} :
    executor.protect names = .error crash ↔ executor.secrets.crashAmong? names = some crash := by
  unfold protect
  split
  · next hcrash => simp [hcrash]
  · next hnone => simp [hnone]

/-- A protected secret is masked in every job. -/
theorem mem_redactorFor_guarding {names : List String} {name value : String} (hname : name ∈ names)
    (hknown : executor.secrets.value? name = some value) (hvalue : value ≠ "")
    (selected : List Selection) :
    value ∈ ((executor.guarding names).redactorFor selected).values := by
  have hprotected : value ∈ (executor.guarding names).protectedValues :=
    mem_addValues_iff.mpr (Or.inr ⟨List.mem_filterMap.mpr ⟨name, hname, hknown⟩, hvalue⟩)
  rw [redactorFor, Redactor.mem_addAll_iff, Redactor.mem_ofList_iff]
  exact Or.inl ⟨hprotected, hvalue⟩

end Executor
end CiPipeline
