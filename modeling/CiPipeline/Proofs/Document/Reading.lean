import CiPipeline.Document.Schema
import Mathlib.Data.List.Forall2

/-!
When a part of a document has a meaning: a whole has one exactly if its parts have, an object only if
it is a mapping of its fields, and a field only if what stands in it has the meaning that is said.
-/

namespace CiPipeline

namespace Reading

variable {α β : Type}

theorem map_eq_meaning_iff {f : α → β} {reading : Reading α} {b : β} :
    f <$> reading = .meaning b ↔ ∃ a, reading = .meaning a ∧ f a = b := by
  cases reading with
  | meaning a =>
      constructor
      · intro heq
        cases heq
        exact ⟨a, rfl, rfl⟩
      · rintro ⟨_, heq, rfl⟩
        cases heq
        rfl
  | refused found => exact iff_of_false nofun (by simp)

theorem ap_eq_meaning_iff {f : Reading (α → β)} {reading : Reading α} {b : β} :
    f <*> reading = .meaning b ↔ ∃ g a, f = .meaning g ∧ reading = .meaning a ∧ g a = b :=
  seq_eq_meaning_iff

theorem inside_eq_meaning_iff {step : Place} {reading : Reading α} {a : α} :
    reading.inside step = .meaning a ↔ reading = .meaning a := by
  cases reading <;> simp [inside]

theorem alongside_eq_meaning_iff {reading : Reading α} {found : List Issue} {a : α} :
    reading.alongside found = .meaning a ↔ found = [] ∧ reading = .meaning a := by
  cases found <;> simp [alongside]

theorem andThen_eq_meaning_iff {reading : Reading α} {look : α → Reading β} {b : β} :
    reading.andThen look = .meaning b ↔ ∃ a, reading = .meaning a ∧ look a = .meaning b := by
  cases reading <;> simp [andThen]

/-- Readings side by side mean what each of them means. -/
theorem all_eq_meaning_iff {readings : List (Reading α)} {parts : List α} :
    all readings = .meaning parts ↔
      List.Forall₂ (fun reading part => reading = .meaning part) readings parts := by
  induction readings generalizing parts with
  | nil => cases parts <;> simp [all]
  | cons reading rest ih =>
      rw [all, seq_eq_meaning_iff, List.forall₂_cons_left_iff]
      simp only [map_eq_meaning_iff, ih]
      constructor
      · rintro ⟨_, more, ⟨part, hpart, rfl⟩, hmore, rfl⟩
        exact ⟨part, more, hpart, hmore, rfl⟩
      · rintro ⟨part, more, hpart, hmore, rfl⟩
        exact ⟨_, more, ⟨part, hpart, rfl⟩, hmore, rfl⟩

end Reading

namespace Document

variable {α : Type} {read : Value → Reading α} {value : Value} {fields : Fields} {name : String}

theorem optional_eq_meaning_some {a : α} (hread : optional read value = .meaning (some a)) :
    read value = .meaning a := by
  have hsome : ∀ {reading : Reading α}, some <$> reading = .meaning (some a) →
      reading = .meaning a := by
    intro reading hmap
    obtain ⟨own, hown, heq⟩ := Reading.map_eq_meaning_iff.mp hmap
    cases heq
    exact hown
  unfold optional at hread
  split at hread
  · cases hread
  · exact hsome hread

theorem optionalField_eq_meaning_some {a : α}
    (hread : optionalField name read fields = .meaning (some a)) :
    ∃ value, read value = .meaning a := by
  unfold optionalField defaulted at hread
  split at hread
  · exact ⟨_, optional_eq_meaning_some (Reading.inside_eq_meaning_iff.mp hread)⟩
  · cases hread

theorem exists_of_required {a : α} (hread : required name read fields = .meaning a) :
    ∃ value, Value.field? name fields = some value ∧ read value = .meaning a := by
  have hfield := Reading.inside_eq_meaning_iff.mp hread
  cases hvalue : Value.field? name fields with
  | none =>
      rw [hvalue] at hfield
      cases hfield
  | some value =>
      rw [hvalue] at hfield
      exact ⟨value, rfl, hfield⟩

theorem eq_or_exists_of_defaulted {fallback a : α}
    (hread : defaulted name fallback read fields = .meaning a) :
    a = fallback ∨ ∃ value, Value.field? name fields = some value ∧ read value = .meaning a := by
  unfold defaulted at hread
  split at hread
  · next value hvalue => exact Or.inr ⟨value, hvalue, Reading.inside_eq_meaning_iff.mp hread⟩
  · cases hread
    exact Or.inl rfl

theorem exists_of_objectOf {known : Fields → List String} {readFields : Fields → Reading α} {a : α}
    (hread : objectOf known readFields value = .meaning a) :
    ∃ fields, value.entries? = some fields ∧ readFields fields = .meaning a := by
  unfold objectOf at hread
  split at hread
  · next fields hfields =>
      split at hread
      · cases hread
      · exact ⟨fields, hfields, (Reading.alongside_eq_meaning_iff.mp hread).2⟩
  · cases hread

theorem forall₂_of_readItems {items : List Value} {parts : List α}
    (hread : readItems read items = .meaning parts) :
    List.Forall₂ (fun item part => read item = .meaning part) items parts := by
  have hall := List.forall₂_map_left_iff.mp (Reading.all_eq_meaning_iff.mp hread)
  simp only [Reading.inside_eq_meaning_iff] at hall
  have hitems : items = items.zipIdx.map Prod.fst := (List.zipIdx_map_fst 0 items).symm
  rw [hitems]
  exact List.forall₂_map_left_iff.mpr hall

/-- A list means the list of what its items mean. -/
theorem exists_of_listOf {parts : List α} (hread : listOf read value = .meaning parts) :
    ∃ items, value.members? = some items ∧
      List.Forall₂ (fun item part => read item = .meaning part) items parts := by
  unfold listOf at hread
  split at hread
  · next items hitems => exact ⟨items, hitems, forall₂_of_readItems hread⟩
  · cases hread

/-- An entry of a mapping means the name that its key is read as, and what is read under it. -/
theorem readNamed_eq_meaning_iff {key : Value} {part : String × α} :
    readNamed read key value = .meaning part ↔
      readText key = .meaning part.1 ∧ read value = .meaning part.2 := by
  unfold readNamed
  simp only [Reading.inside_eq_meaning_iff, Reading.seq_eq_meaning_iff,
    Reading.map_eq_meaning_iff]
  constructor
  · rintro ⟨_, body, ⟨name, hname, rfl⟩, hbody, rfl⟩
    exact ⟨hname, hbody⟩
  · rintro ⟨hname, hbody⟩
    exact ⟨_, part.2, ⟨part.1, hname, rfl⟩, hbody, rfl⟩

/-- A mapping means the table that is left when what its entries mean is written in order. -/
theorem exists_of_mappingOf {table : Table String α}
    (hread : mappingOf read value = .meaning table) :
    ∃ entries named, value.entries? = some entries ∧ table = .ofList named ∧
      List.Forall₂ (fun entry part => readText entry.1 = .meaning part.1 ∧
        read entry.2 = .meaning part.2) entries named := by
  unfold mappingOf at hread
  split at hread
  · next entries hentries =>
      obtain ⟨named, hall, rfl⟩ := Reading.map_eq_meaning_iff.mp hread
      have hnamed := List.forall₂_map_left_iff.mp (Reading.all_eq_meaning_iff.mp hall)
      simp only [readNamed_eq_meaning_iff] at hnamed
      exact ⟨entries, named, hentries, rfl, hnamed⟩
  · cases hread

theorem requireSome_eq_meaning_iff {reading : Reading (List α)} {parts : List α} :
    requireSome reading = .meaning parts ↔ reading = .meaning parts ∧ parts ≠ [] := by
  unfold requireSome
  rw [Reading.andThen_eq_meaning_iff]
  constructor
  · rintro ⟨own, hown, hlook⟩
    cases own with
    | nil => cases hlook
    | cons part rest =>
        cases hlook
        exact ⟨hown, by simp⟩
  · rintro ⟨hreading, hsome⟩
    cases parts with
    | nil => exact absurd rfl hsome
    | cons part rest => exact ⟨_, hreading, rfl⟩

theorem meaning_of_requireEntry {reading : Reading (Table String α)} {table : Table String α}
    (hread : requireEntry reading = .meaning table) : reading = .meaning table := by
  obtain ⟨own, hown, hlook⟩ := Reading.andThen_eq_meaning_iff.mp hread
  split at hlook
  · cases hlook
  · cases hlook
    exact hown

end Document
end CiPipeline
