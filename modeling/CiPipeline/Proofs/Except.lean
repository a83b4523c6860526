import Mathlib.Data.List.Forall2

/-!
Computations that may fail: the rules by which a chain of them is taken apart, and one that is repeated
for each part of a list.
-/

namespace CiPipeline

theorem bind_eq_ok_iff {ε α β : Type} {first : Except ε α} {rest : α → Except ε β} {b : β} :
    (first >>= rest) = .ok b ↔ ∃ a, first = .ok a ∧ rest a = .ok b := by
  cases first with
  | error e => simp [bind, Except.bind]
  | ok a => simp [bind, Except.bind]

theorem bind_eq_error_iff {ε α β : Type} {first : Except ε α} {rest : α → Except ε β} {e : ε} :
    (first >>= rest) = .error e ↔ first = .error e ∨ ∃ a, first = .ok a ∧ rest a = .error e := by
  cases first with
  | error own => simp [bind, Except.bind]
  | ok a => simp [bind, Except.bind]

theorem map_eq_ok_iff {ε α β : Type} {first : Except ε α} {f : α → β} {b : β} :
    first.map f = .ok b ↔ ∃ a, first = .ok a ∧ f a = b := by
  cases first with
  | error e => simp [Except.map]
  | ok a => simp [Except.map]

theorem map_eq_error_iff {ε α β : Type} {first : Except ε α} {f : α → β} {e : ε} :
    first.map f = .error e ↔ first = .error e := by
  cases first with
  | error own => simp [Except.map]
  | ok a => simp [Except.map]

theorem mapError_eq_ok_iff {ε φ α : Type} {first : Except ε α} {f : ε → φ} {a : α} :
    first.mapError f = .ok a ↔ first = .ok a := by
  cases first with
  | error e => exact iff_of_false nofun nofun
  | ok own =>
      change (.ok own : Except φ α) = .ok a ↔ _
      simp

theorem mapError_eq_error_iff {ε φ α : Type} {first : Except ε α} {f : ε → φ} {e : φ} :
    first.mapError f = .error e ↔ ∃ own, first = .error own ∧ f own = e := by
  cases first with
  | error own =>
      change (.error (f own) : Except φ α) = .error e ↔ _
      simp
  | ok a => exact iff_of_false nofun (by simp)

theorem toOption_eq_some_iff {ε α : Type} {first : Except ε α} {a : α} :
    first.toOption = some a ↔ first = .ok a := by
  cases first with
  | error e => exact iff_of_false nofun nofun
  | ok own => simp [Except.toOption]

theorem exists_of_any_toOption {ε α : Type} {first : Except ε α} {p : α → Bool}
    (hany : first.toOption.any p = true) : ∃ a, first = .ok a ∧ p a = true := by
  cases first with
  | error e => cases hany
  | ok a => exact ⟨a, rfl, hany⟩

theorem ok_bind {ε α β : Type} (a : α) (rest : α → Except ε β) :
    ((.ok a : Except ε α) >>= rest) = rest a := rfl

theorem optionMapM_eq_error_iff {ε α β : Type} {f : α → Except ε β} {part : Option α} {e : ε} :
    part.mapM f = .error e ↔ ∃ x, part = some x ∧ f x = .error e := by
  cases part with
  | none =>
      refine iff_of_false ?_ (by simp)
      intro herror
      cases herror
  | some x =>
      rw [Option.mapM_some]
      exact map_eq_error_iff.trans (by simp)

theorem map_nil_append {ε α : Type} (first : Except ε (List α)) : first.map ([] ++ ·) = first := by
  cases first <;> rfl

/-- What is put in front of a list twice may be put there at once. -/
theorem map_append_append {ε α : Type} (first : Except ε (List α)) (front more : List α) :
    (first.map (more ++ ·)).map (front ++ ·) = first.map (front ++ more ++ ·) := by
  cases first with
  | error e => rfl
  | ok list => simp [Except.map]

section Lists

variable {ε α β γ : Type} {f : α → Except ε β} {list : List α}

/-- The first part of a list that is not good is bad in a certain way. -/
def StopsAt (good bad : α → Prop) (list : List α) : Prop :=
  ∃ before x after, list = before ++ x :: after ∧ (∀ y ∈ before, good y) ∧ bad x

theorem stopsAt_nil {good bad : α → Prop} : ¬ StopsAt good bad [] := by
  rintro ⟨before, x, after, heq, _⟩
  simp at heq

theorem stopsAt_cons_iff {good bad : α → Prop} {a : α} :
    StopsAt good bad (a :: list) ↔ bad a ∨ good a ∧ StopsAt good bad list := by
  constructor
  · rintro ⟨before, x, after, heq, hbefore, hbad⟩
    cases before with
    | nil =>
        cases heq
        exact Or.inl hbad
    | cons first before =>
        cases heq
        obtain ⟨hfirst, hbefore⟩ := List.forall_mem_cons.mp hbefore
        exact Or.inr ⟨hfirst, before, x, after, rfl, hbefore, hbad⟩
  · rintro (hbad | ⟨hgood, before, x, after, rfl, hbefore, hbad⟩)
    · exact ⟨[], a, list, rfl, by simp, hbad⟩
    · exact ⟨a :: before, x, after, rfl, List.forall_mem_cons.mpr ⟨hgood, hbefore⟩, hbad⟩

/-- What is done to each part of a list fails where it fails first. -/
theorem mapM_eq_error_iff {e : ε} :
    list.mapM f = .error e ↔ StopsAt (fun x => ∃ y, f x = .ok y) (fun x => f x = .error e) list := by
  induction list with
  | nil =>
      refine iff_of_false ?_ stopsAt_nil
      intro herror
      cases herror
  | cons a rest ih =>
      rw [List.mapM_cons, bind_eq_error_iff, stopsAt_cons_iff, ← ih]
      refine or_congr Iff.rfl ?_
      constructor
      · rintro ⟨b, hfirst, hrest⟩
        rcases bind_eq_error_iff.mp hrest with hrest | ⟨_, _, hreturn⟩
        · exact ⟨⟨b, hfirst⟩, hrest⟩
        · cases hreturn
      · rintro ⟨⟨b, hfirst⟩, hrest⟩
        exact ⟨b, hfirst, bind_eq_error_iff.mpr (Or.inl hrest)⟩

/-- A whole made from parts fails with an error that only a part has where a part has it. -/
theorem mapM_bind_eq_error_iff {rest : List β → Except ε γ} {e : ε}
    (hrest : ∀ ys, list.mapM f = .ok ys → rest ys ≠ .error e) :
    (list.mapM f >>= rest) = .error e ↔
      StopsAt (fun x => ∃ y, f x = .ok y) (fun x => f x = .error e) list := by
  rw [bind_eq_error_iff, mapM_eq_error_iff, or_iff_left]
  rintro ⟨ys, hok, hfails⟩
  exact hrest ys hok hfails

/-- A choice from a list fails only with the error of a choice about one of its members. -/
theorem exists_of_filterM_eq_error {keeps : α → Except ε Bool} {e : ε}
    (herror : list.filterM keeps = .error e) : ∃ a ∈ list, keeps a = .error e := by
  have hrounds : ∀ list kept : List α, list.filterAuxM keeps kept = .error e →
      ∃ a ∈ list, keeps a = .error e := by
    intro list
    induction list with
    | nil =>
        intro kept hkept
        cases hkept
    | cons a rest ih =>
        intro kept hkept
        rcases bind_eq_error_iff.mp hkept with hfirst | ⟨kept, _, hrest⟩
        · exact ⟨a, List.mem_cons_self, hfirst⟩
        · obtain ⟨found, hfound, hbad⟩ := ih _ hrest
          exact ⟨found, List.mem_cons_of_mem a hfound, hbad⟩
  rcases bind_eq_error_iff.mp herror with hrun | ⟨_, _, hreturn⟩
  · exact hrounds list [] hrun
  · cases hreturn

/-- What is done to each part keeps of all of them what it keeps of one. -/
theorem map_eq_map_of_mapM {g : β → γ} {h : α → γ} (hkeeps : ∀ x y, f x = .ok y → g y = h x)
    {ys : List β} (hok : list.mapM f = .ok ys) : ys.map g = list.map h := by
  induction list generalizing ys with
  | nil =>
      cases hok
      rfl
  | cons a rest ih =>
      rw [List.mapM_cons] at hok
      obtain ⟨b, hfirst, hok⟩ := bind_eq_ok_iff.mp hok
      obtain ⟨more, hrest, hreturn⟩ := bind_eq_ok_iff.mp hok
      cases hreturn
      rw [List.map_cons, List.map_cons, hkeeps a b hfirst, ih hrest]

/-- What stands beside a member of the second of two related lists, and around it. -/
theorem exists_split_of_forall₂ {R : α → β → Prop} {b : β} {before after : List β}
    (hrelated : List.Forall₂ R list (before ++ b :: after)) :
    ∃ first a rest, list = first ++ a :: rest ∧ R a b ∧ List.Forall₂ R rest after := by
  induction before generalizing list with
  | nil =>
      cases hrelated with
      | cons hfirst hrest => exact ⟨[], _, _, rfl, hfirst, hrest⟩
  | cons other before ih =>
      cases hrelated with
      | @cons own _ rest _ _ hrest =>
          obtain ⟨first, a, more, rfl, hsplit⟩ := ih hrest
          exact ⟨own :: first, a, more, rfl, hsplit⟩

theorem exists_of_mem_forall₂ {R : α → β → Prop} {results : List β}
    (hrelated : List.Forall₂ R list results) {b : β} (hb : b ∈ results) : ∃ a ∈ list, R a b := by
  obtain ⟨before, after, rfl⟩ := List.append_of_mem hb
  obtain ⟨first, a, rest, rfl, ha, _⟩ := exists_split_of_forall₂ hrelated
  exact ⟨a, by simp, ha⟩

/-- What is done to each part gives one result for each, in their order. -/
theorem forall₂_of_mapM {ys : List β} (hok : list.mapM f = .ok ys) :
    List.Forall₂ (fun x y => f x = .ok y) list ys := by
  induction list generalizing ys with
  | nil =>
      cases hok
      exact .nil
  | cons a rest ih =>
      rw [List.mapM_cons] at hok
      obtain ⟨b, hfirst, hok⟩ := bind_eq_ok_iff.mp hok
      obtain ⟨more, hrest, hreturn⟩ := bind_eq_ok_iff.mp hok
      cases hreturn
      exact .cons hfirst (ih hrest)

end Lists
end CiPipeline
