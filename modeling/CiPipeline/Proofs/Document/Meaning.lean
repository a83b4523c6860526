import CiPipeline.Proofs.Document.WellFormed

/-!
What a part of a document means, whatever its issues are. Two parts that mean the same may stand for each
other: an object means the same when one of its entries gets another value that its reader takes for the
same, since which fields it has, and which keys are strange to it, hangs on the keys alone.
-/

namespace CiPipeline

namespace Reading

variable {α β : Type}

/-- The meaning of a part, if it has one. -/
def meaning? : Reading α → Option α
  | meaning a => some a
  | refused _ => none

theorem meaning?_eq_some_iff {reading : Reading α} {a : α} :
    reading.meaning? = some a ↔ reading = .meaning a := by
  cases reading <;> simp [meaning?]

theorem meaning?_map (f : α → β) (reading : Reading α) :
    (f <$> reading).meaning? = reading.meaning?.map f := by
  cases reading <;> rfl

theorem meaning?_ap (f : Reading (α → β)) (reading : Reading α) :
    (f <*> reading).meaning? = f.meaning?.bind fun g => reading.meaning?.map g := by
  cases f <;> cases reading <;> rfl

theorem meaning?_seq (f : Reading (α → β)) (reading : Reading α) :
    (f.seq reading).meaning? = f.meaning?.bind fun g => reading.meaning?.map g :=
  meaning?_ap f reading

theorem meaning?_inside (step : Place) (reading : Reading α) :
    (reading.inside step).meaning? = reading.meaning? := by
  cases reading <;> rfl

theorem meaning?_alongside (reading : Reading α) (found : List Issue) :
    (reading.alongside found).meaning? = if found = [] then reading.meaning? else none := by
  cases found <;> rfl

theorem meaning?_andThen (reading : Reading α) (look : α → Reading β) :
    (reading.andThen look).meaning? = reading.meaning?.bind fun a => (look a).meaning? := by
  cases reading <;> rfl

/-- Of readings side by side one may be put for another that means the same. -/
theorem meaning?_all_replace (before after : List (Reading α)) {first second : Reading α}
    (hsame : first.meaning? = second.meaning?) :
    (all (before ++ first :: after)).meaning? = (all (before ++ second :: after)).meaning? := by
  induction before with
  | nil => simp only [List.nil_append, all, meaning?_seq, meaning?_map, hsame]
  | cons reading before ih => simp only [List.cons_append, all, meaning?_seq, meaning?_map, ih]

end Reading

namespace Document

variable {α : Type} {before after : Fields} {key first second : Value} {name : String}

/-! ## Entries with another value -/

theorem field?_cons_of_ne (hkey : key ≠ .text name) (rest : Fields) :
    Value.field? name ((key, first) :: rest) = Value.field? name rest := by
  cases key with
  | text own =>
      have hname : ¬ own = name := fun heq => hkey (heq ▸ rfl)
      rw [Value.field?, if_neg hname]
  | _ => rfl

/-- A field of another name does not see the value. -/
theorem field?_replace_of_ne (hkey : key ≠ .text name) :
    Value.field? name (before ++ (key, first) :: after) =
      Value.field? name (before ++ (key, second) :: after) := by
  rw [Value.field?_append, Value.field?_append, field?_cons_of_ne hkey, field?_cons_of_ne hkey]

/-- A field has the value, or it does not see it. -/
theorem field?_replace (name : String) (before after : Fields) (key first second : Value) :
    Value.field? name (before ++ (key, first) :: after) =
        Value.field? name (before ++ (key, second) :: after) ∨
      key = .text name ∧ Value.field? name (before ++ (key, first) :: after) = some first ∧
        Value.field? name (before ++ (key, second) :: after) = some second := by
  by_cases hkey : key = .text name
  · subst hkey
    simp only [Value.field?_append, Value.field?, if_true]
    cases Value.field? name before with
    | none => exact Or.inr ⟨trivial, rfl, rfl⟩
    | some own => exact Or.inl rfl
  · exact Or.inl (field?_replace_of_ne hkey)

theorem isSome_field?_replace (name : String) (before after : Fields) (key first second : Value) :
    (Value.field? name (before ++ (key, first) :: after)).isSome =
      (Value.field? name (before ++ (key, second) :: after)).isSome := by
  rcases field?_replace name before after key first second with heq | ⟨_, hfirst, hsecond⟩
  · rw [heq]
  · rw [hfirst, hsecond, Option.isSome_some, Option.isSome_some]

theorem conditionField_replace (before after : Fields) (key first second : Value) :
    conditionField (before ++ (key, first) :: after) =
      conditionField (before ++ (key, second) :: after) := by
  have hsome := fun name => isSome_field?_replace name before after key first second
  simp only [conditionField, ← Option.not_isSome, hsome]

theorem strangers_replace (known : List String) (before after : Fields) (key first second : Value) :
    strangers known (before ++ (key, first) :: after) =
      strangers known (before ++ (key, second) :: after) := by
  have hstranger : stranger? known (before ++ (key, first) :: after) =
      stranger? known (before ++ (key, second) :: after) := by
    funext own
    have hsome := fun name => isSome_field?_replace name before after key first second
    simp only [stranger?, hsome]
  simp only [strangers, hstranger, List.filterMap_append, List.filterMap_cons]

/-! ## Parts that mean the same -/

theorem defaulted_replace {fallback : α} {read : Value → Reading α}
    (hsame : key = .text name → (read first).meaning? = (read second).meaning?) :
    (defaulted name fallback read (before ++ (key, first) :: after)).meaning? =
      (defaulted name fallback read (before ++ (key, second) :: after)).meaning? := by
  unfold defaulted
  rcases field?_replace name before after key first second with heq | ⟨hkey, hfirst, hsecond⟩
  · rw [heq]
  · simp only [hfirst, hsecond, Reading.meaning?_inside, hsame hkey]

theorem required_replace {read : Value → Reading α}
    (hsame : key = .text name → (read first).meaning? = (read second).meaning?) :
    (required name read (before ++ (key, first) :: after)).meaning? =
      (required name read (before ++ (key, second) :: after)).meaning? := by
  unfold required
  rcases field?_replace name before after key first second with heq | ⟨hkey, hfirst, hsecond⟩
  · rw [heq]
  · simp only [hfirst, hsecond, Option.map_some, Option.getD_some, Reading.meaning?_inside,
      hsame hkey]

/-- The meaning of an object: no key of it may be strange, and its fields must mean something. -/
theorem meaning?_objectOf {known : Fields → List String} {read : Fields → Reading α} {value : Value}
    {fields : Fields} (hfields : value.entries? = some fields) :
    (objectOf known read value).meaning? =
      if fields.any (fun entry => isUnnameable entry.1) = true ∨ strangers (known fields) fields ≠ []
      then none else (read fields).meaning? := by
  unfold objectOf
  rw [hfields]
  simp only
  split
  · next hunnameable =>
      rw [if_pos (Or.inl hunnameable)]
      rfl
  · next hnameable =>
      rw [Reading.meaning?_alongside]
      by_cases hstrange : strangers (known fields) fields = []
      · rw [if_pos hstrange, if_neg (by simp [hnameable, hstrange])]
      · rw [if_neg hstrange, if_pos (Or.inr hstrange)]

/-- A mapping with another value under one of its keys. -/
def Replaces (key first second document document' : Value) : Prop :=
  ∃ before after, document.entries? = some (before ++ (key, first) :: after) ∧
    document'.entries? = some (before ++ (key, second) :: after)

theorem objectOf_replace {known : Fields → List String} {read : Fields → Reading α}
    {value value' : Value} (hvalue : value.entries? = some (before ++ (key, first) :: after))
    (hvalue' : value'.entries? = some (before ++ (key, second) :: after))
    (hknown : known (before ++ (key, first) :: after) = known (before ++ (key, second) :: after))
    (hread : (read (before ++ (key, first) :: after)).meaning? =
      (read (before ++ (key, second) :: after)).meaning?) :
    (objectOf known read value).meaning? = (objectOf known read value').meaning? := by
  rw [meaning?_objectOf hvalue, meaning?_objectOf hvalue', hread, hknown,
    strangers_replace _ before after key first second]
  simp only [List.any_append, List.any_cons]

theorem mappingOf_replace {read : Value → Reading α} {value value' : Value}
    (hreplaces : Replaces key first second value value')
    (hsame : (read first).meaning? = (read second).meaning?) :
    (mappingOf read value).meaning? = (mappingOf read value').meaning? := by
  obtain ⟨before, after, hvalue, hvalue'⟩ := hreplaces
  have hnamed : (readNamed read key first).meaning? = (readNamed read key second).meaning? := by
    simp only [readNamed, Reading.meaning?_inside, Reading.meaning?_seq, hsame]
  unfold mappingOf
  rw [hvalue, hvalue']
  simp only [Reading.meaning?_map, List.map_append, List.map_cons]
  rw [Reading.meaning?_all_replace _ _ hnamed]

end Document
end CiPipeline
