import CiPipeline.Proofs.Document.Events

/-!
Ways to write one document. A single need may stand for itself or in a list, the events may be written in
several ways, and they may stand under `on` or under the truth value that a bare `on` is read as. However a
document is respelled, the same pipeline is declared, or an error of the same class is reported.
-/

namespace CiPipeline

open Document

namespace Document

/-- The key of the events: `on`, or a key that counts as true. -/
def IsEventsKey (key : Value) : Prop :=
  key = .text eventsKey ∨ isTrue key = true

/-- Two ways to write the same document, which differ in one place. -/
inductive Respelled : Value → Value → Prop
  | need {document document' jobs jobs' name job job' : Value} (need : String)
      (hdocument : Replaces (.text "jobs") jobs jobs' document document')
      (hjobs : Replaces name job job' jobs jobs')
      (hjob : Replaces (.text "needs") (.text need) (.list [.text need]) job job') :
      Respelled document document'
  | events {document document' key events events' : Value} (hkey : IsEventsKey key)
      (hdocument : Replaces key events events' document document')
      (hevents : EventsRespelled events events') : Respelled document document'
  | eventsKey {document document' key events : Value} {before after : Fields}
      (hkey : isTrue key = true) (halone : ∀ entry ∈ before ++ after, ¬ IsEventsKey entry.1)
      (hdocument : document.entries? = some (before ++ (.text eventsKey, events) :: after))
      (hdocument' : document'.entries? = some (before ++ (key, events) :: after)) :
      Respelled document document'

end Document

/-- Two documents declare alike: one pipeline, or errors of one class. Of errors only the complaints
about events with parts, and those about declarations, may differ in more than their class. -/
inductive Pipeline.Alike :
    Except DocumentError Pipeline → Except DocumentError Pipeline → Prop
  | same (outcome : Except DocumentError Pipeline) : Alike outcome outcome
  | composite (found found' : Composite) :
      Alike (.error (.eventNotScalar found)) (.error (.eventNotScalar found'))
  | declaration (error error' : DeclarationError) :
      Alike (.error (.configuration (.declaration error)))
        (.error (.configuration (.declaration error')))

namespace Document

/-! ## What is compared -/

/-- Two documents say the same, but for the issues in them. -/
structure Agree (document document' : Value) : Prop where
  parts : ListsParts document ↔ ListsParts document'
  means : ∀ content, Means document content ↔ Means document' content

theorem Agree.alike {document document' : Value} (hagree : Agree document document') :
    Pipeline.Alike (Pipeline.ofDocument document) (Pipeline.ofDocument document') := by
  rcases Pipeline.ofDocument_cases document with
    ⟨hlists, found, hfails⟩ | ⟨hlists, hmeans, error, hfails⟩ | ⟨hlists, content, hmeans, hcontent⟩
  · rcases Pipeline.ofDocument_cases document' with
      ⟨_, found', hfails'⟩ | ⟨hlists', _⟩ | ⟨hlists', _⟩
    · rw [hfails, hfails']
      exact .composite found found'
    · exact absurd (hagree.parts.mp hlists) hlists'
    · exact absurd (hagree.parts.mp hlists) hlists'
  · rcases Pipeline.ofDocument_cases document' with
      ⟨hlists', _⟩ | ⟨_, _, error', hfails'⟩ | ⟨_, content, hmeans', _⟩
    · exact absurd (hagree.parts.mpr hlists') hlists
    · rw [hfails, hfails']
      exact .declaration error error'
    · exact absurd ((hagree.means content).mpr hmeans') (hmeans content)
  · rcases Pipeline.ofDocument_cases document' with
      ⟨hlists', _⟩ | ⟨_, hmeans', _⟩ | ⟨_, content', hmeans', hcontent'⟩
    · exact absurd (hagree.parts.mpr hlists') hlists
    · exact absurd ((hagree.means content).mp hmeans) (hmeans' content)
    · have hsame : content' = content := hmeans.unique ((hagree.means content').mpr hmeans')
      rw [hcontent, hcontent', hsame]
      exact .same _

/-- Two lists of fields that say the same of a pipeline. -/
structure FieldsAgree (fields fields' : Fields) : Prop where
  parts : (∃ events, Value.field? eventsKey fields = some events ∧ EventsHaveParts events) ↔
    ∃ events, Value.field? eventsKey fields' = some events ∧ EventsHaveParts events
  meaning_eq : (PipelineDocument.read (.mapping fields)).meaning? =
    (PipelineDocument.read (.mapping fields')).meaning?

theorem FieldsAgree.refl (fields : Fields) : FieldsAgree fields fields :=
  ⟨Iff.rfl, rfl⟩

theorem listsParts_iff {document : Value} {fields : Fields} (hfields : fields? document = some fields) :
    ListsParts document ↔
      ∃ events, Value.field? eventsKey fields = some events ∧ EventsHaveParts events := by
  unfold ListsParts EventsHaveParts
  rw [hfields]
  constructor
  · rintro ⟨_, listed, ⟨⟩, hlisted, hparts⟩
    obtain ⟨events, hevents, hown⟩ := Option.bind_eq_some_iff.mp hlisted
    exact ⟨events, hevents, listed, hown, hparts⟩
  · rintro ⟨events, hevents, listed, hown, hparts⟩
    exact ⟨fields, listed, rfl, by rw [hevents, Option.bind_some, hown], hparts⟩

theorem agree_of_fields {document document' : Value} {entries entries' : Fields}
    (hentries : document.entries? = some entries) (hentries' : document'.entries? = some entries')
    (hagree : FieldsAgree (restoreEventsKey entries) (restoreEventsKey entries')) :
    Agree document document' := by
  have hfields : fields? document = some (restoreEventsKey entries) := by
    rw [fields?, hentries, Option.map_some]
  have hfields' : fields? document' = some (restoreEventsKey entries') := by
    rw [fields?, hentries', Option.map_some]
  constructor
  · rw [listsParts_iff hfields, listsParts_iff hfields']
    exact hagree.parts
  · intro content
    rw [means_iff hfields, means_iff hfields', ← Reading.meaning?_eq_some_iff,
      ← Reading.meaning?_eq_some_iff, hagree.meaning_eq]

/-! ## Another value under a key of a document -/

/-- An entry is still found after the events were put under their own key, or nothing of it is left. -/
theorem restoreEventsKey_replace (before after : Fields) (key first second : Value) :
    restoreEventsKey (before ++ (key, first) :: after) =
        restoreEventsKey (before ++ (key, second) :: after) ∨
      ∃ before' key' after', (key' = key ∨ isTrue key = true ∧ key' = .text eventsKey) ∧
        restoreEventsKey (before ++ (key, first) :: after) = before' ++ (key', first) :: after' ∧
        restoreEventsKey (before ++ (key, second) :: after) = before' ++ (key', second) :: after' := by
  unfold restoreEventsKey
  rw [isSome_field?_replace eventsKey before after key first second]
  split
  · exact Or.inr ⟨before, key, after, Or.inl rfl, rfl, rfl⟩
  · simp only [List.find?_append, List.find?_cons, List.filter_append, List.filter_cons]
    cases hkey : isTrue key with
    | true =>
        cases before.find? fun entry => isTrue entry.1 with
        | some entry => exact Or.inl (by simp)
        | none => exact Or.inr ⟨_, _, [], Or.inr ⟨rfl, rfl⟩, rfl, rfl⟩
    | false =>
        right
        cases (before.find? fun entry => isTrue entry.1).or
            (after.find? fun entry => isTrue entry.1) with
        | some entry =>
            refine ⟨before.filter fun entry => !isTrue entry.1, key,
              (after.filter fun entry => !isTrue entry.1) ++ [(.text eventsKey, entry.2)],
              Or.inl rfl, ?_, ?_⟩
            · simp
            · simp
        | none => exact ⟨before, key, after, Or.inl rfl, rfl, rfl⟩

/-- A document is read by its keys and by three of its fields. -/
theorem readPipeline_congr {fields fields' : Fields}
    (hkeys : fields.any (fun entry => isUnnameable entry.1) =
      fields'.any fun entry => isUnnameable entry.1)
    (hstrange : ∀ known, strangers known fields = [] ↔ strangers known fields' = [])
    (hname : (defaulted "name" "pipeline" readText fields).meaning? =
      (defaulted "name" "pipeline" readText fields').meaning?)
    (hevents : (defaulted "on" {} EventsDocument.read fields).meaning? =
      (defaulted "on" {} EventsDocument.read fields').meaning?)
    (hjobs : (required "jobs" (fun value => requireEntry (mappingOf JobDocument.read value))
        fields).meaning? =
      (required "jobs" (fun value => requireEntry (mappingOf JobDocument.read value))
        fields').meaning?) :
    (PipelineDocument.read (.mapping fields)).meaning? =
      (PipelineDocument.read (.mapping fields')).meaning? := by
  unfold PipelineDocument.read
  rw [meaning?_objectOf (Value.entries?_mapping fields),
    meaning?_objectOf (Value.entries?_mapping fields'), hkeys]
  simp only [ne_eq, hstrange, Reading.meaning?_ap, Reading.meaning?_map, hname, hevents, hjobs]

theorem fieldsAgree_replace {before after : Fields} {key first second : Value}
    (hname : key ≠ .text "name") (hevents : key = .text eventsKey → EventsAgree first second)
    (hjobs : key = .text "jobs" → (mappingOf JobDocument.read first).meaning? =
      (mappingOf JobDocument.read second).meaning?) :
    FieldsAgree (before ++ (key, first) :: after) (before ++ (key, second) :: after) := by
  constructor
  · rcases field?_replace eventsKey before after key first second with heq | ⟨hkey, hfirst, hsecond⟩
    · rw [heq]
    · simp only [hfirst, hsecond, Option.some.injEq, exists_eq_left']
      exact (hevents hkey).parts
  · apply readPipeline_congr
    · simp only [List.any_append, List.any_cons]
    · intro known
      rw [strangers_replace known before after key first second]
    · exact defaulted_replace fun hkey => absurd hkey hname
    · exact defaulted_replace fun hkey => (hevents hkey).meaning_eq
    · apply required_replace
      intro hkey
      simp only [requireEntry, Reading.meaning?_andThen, hjobs hkey]

theorem agree_of_replaces {document document' key first second : Value}
    (hreplaces : Replaces key first second document document') (hname : key ≠ .text "name")
    (hevents : IsEventsKey key → EventsAgree first second)
    (hjobs : key = .text "jobs" → (mappingOf JobDocument.read first).meaning? =
      (mappingOf JobDocument.read second).meaning?) : Agree document document' := by
  obtain ⟨before, after, hentries, hentries'⟩ := hreplaces
  apply agree_of_fields hentries hentries'
  rcases restoreEventsKey_replace before after key first second with
    heq | ⟨before', key', after', hkey, heq, heq'⟩
  · rw [heq]
    exact .refl _
  · rw [heq, heq']
    rcases hkey with rfl | ⟨htrue, rfl⟩
    · exact fieldsAgree_replace hname (fun hkey => hevents (Or.inl hkey)) hjobs
    · exact fieldsAgree_replace (by simp [eventsKey]) (fun _ => hevents (Or.inr htrue))
        (by simp [eventsKey])

/-! ## A single need -/

/-- A need that stands for itself is read as one in a list. -/
theorem readNeeds_list (need : String) :
    JobDocument.readNeeds (.list [.text need]) = JobDocument.readNeeds (.text need) := rfl

theorem readJob_need {need : String} {job job' : Value}
    (hjob : Replaces (.text "needs") (.text need) (.list [.text need]) job job') :
    (JobDocument.read job).meaning? = (JobDocument.read job').meaning? := by
  obtain ⟨before, after, hentries, hentries'⟩ := hjob
  have hcondition := conditionField_replace before after (.text "needs") (.text need)
    (.list [.text need])
  apply objectOf_replace hentries hentries'
  · rw [JobDocument.fieldNames, JobDocument.fieldNames, hcondition]
  · have hneeds : (defaulted "needs" [] JobDocument.readNeeds
        (before ++ (.text "needs", .text need) :: after)).meaning? =
          (defaulted "needs" [] JobDocument.readNeeds
            (before ++ (.text "needs", .list [.text need]) :: after)).meaning? :=
      defaulted_replace fun _ => congrArg Reading.meaning? (readNeeds_list need).symm
    have hother : ∀ {α : Type} (name : String) (fallback : α) (read : Value → Reading α),
        name ≠ "needs" → (defaulted name fallback read
          (before ++ (.text "needs", .text need) :: after)).meaning? =
            (defaulted name fallback read
              (before ++ (.text "needs", .list [.text need]) :: after)).meaning? := by
      intro α name fallback read hname
      exact defaulted_replace fun hkey => absurd (Value.text.inj hkey).symm hname
    have hown : ∀ fields, conditionField fields ≠ "needs" := by
      intro fields
      unfold conditionField
      split <;> decide
    have hsteps : (required "steps" (fun value => requireSome (listOf StepDocument.read value))
        (before ++ (.text "needs", .text need) :: after)).meaning? =
          (required "steps" (fun value => requireSome (listOf StepDocument.read value))
            (before ++ (.text "needs", .list [.text need]) :: after)).meaning? :=
      required_replace fun hkey => absurd hkey (by simp)
    simp only [JobDocument.readFields, optionalField, hcondition, Reading.meaning?_ap,
      Reading.meaning?_map, hneeds, hsteps, hother "name" _ _ (by decide), hother _ _ _ (hown _),
      hother "env" _ _ (by decide), hother "matrix" _ _ (by decide)]

/-! ## Respelled documents -/

/-- The order of the entries does not count, unless it settles which value a field has. -/
theorem fieldsAgree_of_perm {fields fields' : Fields} (hperm : fields.Perm fields')
    (hfield : ∀ name, Value.field? name fields = Value.field? name fields') :
    FieldsAgree fields fields' := by
  constructor
  · rw [hfield]
  · apply readPipeline_congr
    · exact hperm.any_eq
    · intro known
      have hstranger : stranger? known fields = stranger? known fields' := by
        funext key
        simp only [stranger?, hfield]
      rw [strangers, strangers, hstranger, ← List.perm_nil, ← List.perm_nil]
      have hsame := hperm.filterMap fun entry => stranger? known fields' entry.1
      exact ⟨hsame.symm.trans, hsame.trans⟩
    · simp only [defaulted, hfield]
    · simp only [defaulted, hfield]
    · simp only [required, hfield]

theorem field?_eq_none {name : String} {fields : Fields}
    (hnone : ∀ entry ∈ fields, entry.1 ≠ .text name) : Value.field? name fields = none := by
  induction fields with
  | nil => rfl
  | cons entry rest ih =>
      rw [List.forall_mem_cons] at hnone
      exact (field?_cons_of_ne hnone.1 rest).trans (ih hnone.2)

section EventsKey

variable {before after : Fields} {key events : Value}

theorem field?_eventsKey (hbefore : ∀ entry ∈ before, ¬ IsEventsKey entry.1) :
    Value.field? eventsKey (before ++ (.text eventsKey, events) :: after) = some events := by
  rw [Value.field?_append, field?_eq_none fun entry hentry heq => hbefore entry hentry (Or.inl heq)]
  simp [Value.field?]

theorem restoreEventsKey_of_own (hbefore : ∀ entry ∈ before, ¬ IsEventsKey entry.1) :
    restoreEventsKey (before ++ (.text eventsKey, events) :: after) =
      before ++ (.text eventsKey, events) :: after := by
  rw [restoreEventsKey, field?_eventsKey hbefore, Option.isSome_some, if_pos rfl]

theorem filter_not_isTrue {fields : Fields} (hnone : ∀ entry ∈ fields, ¬ IsEventsKey entry.1) :
    fields.filter (fun entry => !isTrue entry.1) = fields := by
  rw [List.filter_eq_self]
  intro entry hentry
  rw [Bool.not_eq_true', ← Bool.not_eq_true]
  exact fun htrue => hnone entry hentry (Or.inr htrue)

/-- A lone key that counts as true gives its value to the events, which are put last. -/
theorem restoreEventsKey_of_isTrue (hkey : isTrue key = true)
    (hbefore : ∀ entry ∈ before, ¬ IsEventsKey entry.1)
    (hafter : ∀ entry ∈ after, ¬ IsEventsKey entry.1) :
    restoreEventsKey (before ++ (key, events) :: after) =
      before ++ after ++ [(.text eventsKey, events)] := by
  have hother : key ≠ .text eventsKey := by
    rintro rfl
    simp [isTrue, Value.sameKey, Value.asInt?] at hkey
  have hmissing : Value.field? eventsKey (before ++ (key, events) :: after) = none := by
    rw [field?_eq_none]
    intro entry hentry heq
    rcases List.mem_append.mp hentry with hmem | hmem
    · exact hbefore entry hmem (Or.inl heq)
    · rcases List.mem_cons.mp hmem with rfl | hmem
      · exact hother heq
      · exact hafter entry hmem (Or.inl heq)
  have hfind : (before ++ (key, events) :: after).find? (fun entry => isTrue entry.1) =
      some (key, events) := by
    have hnone : before.find? (fun entry => isTrue entry.1) = none := by
      rw [List.find?_eq_none]
      exact fun entry hentry htrue => hbefore entry hentry (Or.inr htrue)
    rw [List.find?_append, hnone, Option.none_or]
    simp [hkey]
  have hfilter : (before ++ (key, events) :: after).filter (fun entry => !isTrue entry.1) =
      before ++ after := by
    rw [List.filter_append, filter_not_isTrue hbefore, List.filter_cons_of_neg (by simp [hkey]),
      filter_not_isTrue hafter]
  simp only [restoreEventsKey, hmissing, Option.isSome_none, Bool.false_eq_true, if_false, hfind,
    hfilter]

/-- The events are found under a key that counts as true as they are under their own. -/
theorem agree_of_eventsKey {document document' : Value}
    (hkey : isTrue key = true) (halone : ∀ entry ∈ before ++ after, ¬ IsEventsKey entry.1)
    (hdocument : document.entries? = some (before ++ (.text eventsKey, events) :: after))
    (hdocument' : document'.entries? = some (before ++ (key, events) :: after)) :
    Agree document document' := by
  obtain ⟨hbefore, hafter⟩ := List.forall_mem_append.mp halone
  apply agree_of_fields hdocument hdocument'
  rw [restoreEventsKey_of_own hbefore, restoreEventsKey_of_isTrue hkey hbefore hafter]
  apply fieldsAgree_of_perm
  · exact List.perm_middle.trans (List.perm_append_singleton _ _).symm
  · intro name
    by_cases hname : Value.text eventsKey = .text name
    · cases hname
      rw [field?_eventsKey hbefore, field?_eventsKey halone]
    · rw [Value.field?_append, Value.field?_append, Value.field?_append,
        field?_cons_of_ne hname, field?_cons_of_ne hname]
      simp [Value.field?]

end EventsKey

theorem agree_of_respelled {document document' : Value} (hspelled : Respelled document document') :
    Agree document document' := by
  cases hspelled with
  | need need hdocument hjobs hjob =>
      apply agree_of_replaces hdocument (by simp)
      · rintro (hkey | hkey)
        · simp [eventsKey] at hkey
        · simp [isTrue, Value.sameKey, Value.asInt?] at hkey
      · intro _
        exact mappingOf_replace hjobs (readJob_need hjob)
  | events hkey hdocument hevents =>
      have hown := eventsAgree_of_respelled hevents
      have hother : ∀ name, name ≠ eventsKey → IsEventsKey (.text name) → False := by
        rintro name hname (heq | htrue)
        · exact hname (Value.text.inj heq)
        · simp [isTrue, Value.sameKey, Value.asInt?] at htrue
      apply agree_of_replaces hdocument
      · rintro rfl
        exact hother "name" (by decide) hkey
      · exact fun _ => hown
      · rintro rfl
        exact (hother "jobs" (by decide) hkey).elim
  | eventsKey hkey halone hdocument hdocument' =>
      exact agree_of_eventsKey hkey halone hdocument hdocument'

theorem Agree.refl (document : Value) : Agree document document :=
  ⟨Iff.rfl, fun _ => Iff.rfl⟩

theorem Agree.symm {document document' : Value} (hagree : Agree document document') :
    Agree document' document :=
  ⟨hagree.parts.symm, fun content => (hagree.means content).symm⟩

theorem Agree.trans {document document' document'' : Value} (hagree : Agree document document')
    (hagree' : Agree document' document'') : Agree document document'' :=
  ⟨hagree.parts.trans hagree'.parts,
    fun content => (hagree.means content).trans (hagree'.means content)⟩

end Document

/-- However often a document is respelled, it declares alike. -/
theorem Pipeline.ofDocument_respelled {document document' : Value}
    (hspelled : Relation.EqvGen Respelled document document') :
    Alike (ofDocument document) (ofDocument document') := by
  have hagree : Agree document document' := by
    induction hspelled with
    | rel _ _ hstep => exact agree_of_respelled hstep
    | refl document => exact .refl document
    | symm _ _ _ ih => exact ih.symm
    | trans _ _ _ _ _ ih ih' => exact ih.trans ih'
  exact hagree.alike

/-- Two jobs, of which the second has some needs. -/
def spelledJobs (needs : Value) : Value × Value :=
  (.text "jobs", .mapping [
    (.text "a", .mapping [(.text "steps", .list [.mapping [(.text "run", .text "make")]])]),
    (.text "b", .mapping [(.text "needs", needs),
      (.text "steps", .list [.mapping [(.text "run", .text "test")]])])])

/-- A document with two jobs, whose events stand under some key. -/
def spelledDocument (key events needs : Value) : Value :=
  .mapping [(key, events), spelledJobs needs]

theorem jobNames_spelledDocument :
    (Pipeline.ofDocument (spelledDocument (.bool true) (.text "push") (.text "a"))).map
      Pipeline.jobNames = .ok ["a", "b"] := by
  decide +kernel

theorem Pipeline.ofDocument_respelled_push :
    ∃ pipeline, pipeline.jobNames = ["a", "b"] ∧
      ofDocument (spelledDocument (.bool true) (.text "push") (.text "a")) = .ok pipeline ∧
      ofDocument (spelledDocument (.text "on") (.mapping [(.text "push", .null)])
        (.list [.text "a"])) = .ok pipeline := by
  have hkey : Respelled (spelledDocument (.text "on") (.text "push") (.text "a"))
      (spelledDocument (.bool true) (.text "push") (.text "a")) := by
    have halone : ∀ entry ∈ ([] : Fields) ++ [spelledJobs (.text "a")], ¬ IsEventsKey entry.1 := by
      intro entry hentry
      cases List.mem_singleton.mp hentry
      rintro (hon | htrue)
      · simp [spelledJobs, eventsKey] at hon
      · cases htrue
    exact .eventsKey rfl halone rfl rfl
  have hevents : Respelled (spelledDocument (.text "on") (.text "push") (.text "a"))
      (spelledDocument (.text "on") (.mapping [(.text "push", .null)]) (.text "a")) :=
    .events (Or.inl rfl) ⟨[], _, rfl, rfl⟩ (.lone "push" (by simp [loneEvent]) (by simp [loneEvent]))
  have hneeds : Respelled (spelledDocument (.text "on") (.mapping [(.text "push", .null)]) (.text "a"))
      (spelledDocument (.text "on") (.mapping [(.text "push", .null)]) (.list [.text "a"])) :=
    .need "a" ⟨[_], [], rfl, rfl⟩ ⟨[_], [], rfl, rfl⟩ ⟨[], _, rfl, rfl⟩
  have hspelled := ((Relation.EqvGen.rel _ _ hkey).symm.trans _ _ _ (.rel _ _ hevents)).trans _ _ _
    (.rel _ _ hneeds)
  obtain ⟨pipeline, hok, hnames⟩ := map_eq_ok_iff.mp jobNames_spelledDocument
  have halike := ofDocument_respelled hspelled
  rw [hok] at halike
  refine ⟨pipeline, hnames, hok, ?_⟩
  generalize ofDocument _ = outcome at halike
  cases halike
  rfl

end CiPipeline
