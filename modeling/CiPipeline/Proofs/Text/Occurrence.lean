import CiPipeline.Text.Lines
import CiPipeline.Text.Substitution

/-!
Where a text can occur in another one. A text that occurs in two parts put together occurs in one of
them or stands across the place where they meet; the latter is kept out by a character between the
parts that the text does not have.
-/

namespace CiPipeline.Text

/-- A text occurs in another one. -/
def Occurs (part text : String) : Prop :=
  part.toList <:+: text.toList

theorem occursIn_iff {part s : List Char} : occursIn part s = true ↔ part <:+: s := by
  induction s with
  | nil => simp [occursIn]
  | cons c rest ih =>
      rw [occursIn, Bool.or_eq_true, List.isPrefixOf_iff_prefix, ih, List.infix_cons_iff]

instance (part text : String) : Decidable (Occurs part text) :=
  decidable_of_iff (occursIn part.toList text.toList = true) occursIn_iff

/-- Where a text does not occur nothing is replaced. -/
theorem replaceFrom_eq_self {target s : List Char} (new : List Char) (habsent : ¬ target <:+: s) :
    replaceFrom target new 0 s = s := by
  induction s with
  | nil => rfl
  | cons c rest ih =>
      have hfront : ¬ target.isPrefixOf (c :: rest) = true := fun hprefix =>
        habsent (List.isPrefixOf_iff_prefix.mp hprefix).isInfix
      have hrest : ¬ target <:+: rest := fun hoccurs => habsent (List.infix_cons hoccurs)
      rw [replaceFrom, if_neg hfront, ih hrest]

/-- A text begins at the end of a lead and goes on at the start of what follows it. -/
def Across (part lead text : String) : Prop :=
  ∃ front back : List Char, front ≠ [] ∧ back ≠ [] ∧ part.toList = front ++ back ∧
    front <:+ lead.toList ∧ back <+: text.toList

theorem occurs_append_iff {part lead text : String} :
    Occurs part (lead ++ text) ↔ Occurs part lead ∨ Occurs part text ∨ Across part lead text := by
  rw [Occurs, String.toList_append]
  exact List.infix_append_iff_ne_nil

theorem Occurs.append_left {part text : String} (hoccurs : Occurs part text) (lead : String) :
    Occurs part (lead ++ text) :=
  occurs_append_iff.mpr (Or.inr (Or.inl hoccurs))

section Lists

variable {c : Char} {part a b : List Char} {pieces : List (List Char)}

theorem eq_nil_of_prefix_cons (hc : c ∉ part) (hpart : part <+: c :: b) : part = [] := by
  rcases List.prefix_cons_iff.mp hpart with hnil | ⟨rest, heq, _⟩
  · exact hnil
  · exact absurd (heq ▸ List.mem_cons_self) hc

theorem infix_of_infix_cons (hc : c ∉ part) (hpart : part <:+: c :: b) : part <:+: b := by
  rcases List.infix_cons_iff.mp hpart with hprefix | hrest
  · rw [eq_nil_of_prefix_cons hc hprefix]
    exact List.nil_infix
  · exact hrest

/-- What does not have the character between two parts occurs in one of them. -/
theorem infix_append_cons (hc : c ∉ part) (hpart : part <:+: a ++ c :: b) :
    part <:+: a ∨ part <:+: b := by
  rcases List.infix_append_iff_ne_nil.mp hpart with hleft | hright |
    ⟨front, back, _, hback, heq, _, hprefix⟩
  · exact Or.inl hleft
  · exact Or.inr (infix_of_infix_cons hc hright)
  · have hnot : c ∉ back := fun hmem => hc (heq ▸ List.mem_append_right front hmem)
    exact absurd (eq_nil_of_prefix_cons hnot hprefix) hback

theorem exists_infix_of_flatMap (hc : c ∉ part) (hpart : part ≠ [])
    (hoccurs : part <:+: pieces.flatMap (· ++ [c])) : ∃ piece ∈ pieces, part <:+: piece := by
  induction pieces with
  | nil => exact absurd (List.infix_nil.mp hoccurs) hpart
  | cons first rest ih =>
      rw [List.flatMap_cons, List.append_assoc, List.singleton_append] at hoccurs
      rcases infix_append_cons hc hoccurs with hfirst | hrest
      · exact ⟨first, List.mem_cons_self, hfirst⟩
      · obtain ⟨piece, hpiece, hoccurs⟩ := ih hrest
        exact ⟨piece, List.mem_cons_of_mem first hpiece, hoccurs⟩

theorem exists_infix_of_intercalate (hc : c ∉ part) (hpart : part ≠ [])
    (hoccurs : part <:+: [c].intercalate pieces) : ∃ piece ∈ pieces, part <:+: piece := by
  induction pieces with
  | nil => exact absurd (List.infix_nil.mp hoccurs) hpart
  | cons first rest ih =>
      cases rest with
      | nil => exact ⟨first, List.mem_cons_self, by simpa using hoccurs⟩
      | cons second rest =>
          rw [List.intercalate_cons_cons, List.append_assoc, List.singleton_append] at hoccurs
          rcases infix_append_cons hc hoccurs with hfirst | hrest
          · exact ⟨first, List.mem_cons_self, hfirst⟩
          · obtain ⟨piece, hpiece, hoccurs⟩ := ih hrest
            exact ⟨piece, List.mem_cons_of_mem first hpiece, hoccurs⟩

theorem eq_nil_of_append_pair {d : Char} {more r s : List Char} (hne : c ≠ d)
    (habsent : ¬ [c, d] <:+: a ++ more) (heq : c :: d :: s = more ++ c :: d :: r) : more = [] := by
  match more with
  | [] => rfl
  | [first] =>
      cases heq
      exact absurd rfl hne
  | first :: second :: more =>
      cases heq
      exact absurd ⟨a, more, by simp⟩ habsent

/-- Two different characters show where a text ends that does not have them in a row. -/
theorem append_pair_inj {d : Char} {r s : List Char} (hne : c ≠ d) (ha : ¬ [c, d] <:+: a)
    (hb : ¬ [c, d] <:+: b) (heq : a ++ c :: d :: r = b ++ c :: d :: s) : a = b ∧ r = s := by
  rcases List.append_eq_append_iff.mp heq with ⟨more, rfl, hrest⟩ | ⟨more, rfl, hrest⟩
  · cases eq_nil_of_append_pair hne hb hrest
    exact ⟨(List.append_nil a).symm, by simpa using hrest⟩
  · cases eq_nil_of_append_pair hne ha hrest
    exact ⟨List.append_nil b, by simpa using hrest.symm⟩

/-- The first line stands at the front of the text. -/
theorem prefix_of_cutLines_eq_cons {s line : List Char} {more : List (List Char)}
    (hlines : cutLines s = line :: more) : line <+: s := by
  fun_induction cutLines s generalizing line more with
  | case1 => cases hlines
  | case2 rest ih =>
      cases hlines
      exact List.nil_prefix
  | case3 c rest _ hend ih =>
      cases hlines
      exact List.nil_prefix
  | case4 c rest _ hend heq ih =>
      cases hlines
      exact List.cons_prefix_cons.mpr ⟨rfl, List.nil_prefix⟩
  | case5 c rest _ hend first others heq ih =>
      cases hlines
      exact List.cons_prefix_cons.mpr ⟨rfl, ih heq⟩

/-- Every line of a text is a piece of it. -/
theorem infix_of_mem_cutLines {s line : List Char} (hline : line ∈ cutLines s) : line <:+: s := by
  fun_induction cutLines s with
  | case1 => cases hline
  | case2 rest ih =>
      rcases List.mem_cons.mp hline with rfl | hline
      · exact List.nil_infix
      · exact List.infix_cons (List.infix_cons (ih hline))
  | case3 c rest _ hend ih =>
      rcases List.mem_cons.mp hline with rfl | hline
      · exact List.nil_infix
      · exact List.infix_cons (ih hline)
  | case4 c rest _ hend heq ih =>
      rw [List.mem_singleton] at hline
      subst hline
      exact (List.cons_prefix_cons.mpr ⟨rfl, List.nil_prefix⟩).isInfix
  | case5 c rest _ hend first others heq ih =>
      rw [heq] at ih
      rcases List.mem_cons.mp hline with rfl | hline
      · exact (List.cons_prefix_cons.mpr ⟨rfl, prefix_of_cutLines_eq_cons heq⟩).isInfix
      · exact List.infix_cons (ih (List.mem_cons_of_mem first hline))

end Lists

/-! ## Up to the first mark -/

section Mark

variable {mark : Char} {s front back : List Char}

theorem not_mem_takeWhile_ne : mark ∉ s.takeWhile (· ≠ mark) := by
  intro hmem
  simpa using List.all_eq_true.mp List.all_takeWhile mark hmem

theorem takeWhile_ne_append (hfront : mark ∉ front) :
    (front ++ mark :: back).takeWhile (· ≠ mark) = front := by
  have hall : ∀ c ∈ front, decide (c ≠ mark) = true := by
    intro c hc
    have hne : c ≠ mark := fun heq => hfront (heq ▸ hc)
    simpa using hne
  rw [List.takeWhile_append_of_pos hall]
  simp

/-- A text with a mark goes on with the mark after all that stands before the first one. -/
theorem exists_eq_takeWhile_ne_append (hlength : ¬ (s.takeWhile (· ≠ mark)).length = s.length) :
    ∃ rest, s = s.takeWhile (· ≠ mark) ++ mark :: rest := by
  have hsplit := List.takeWhile_append_dropWhile (p := (· ≠ mark)) (l := s)
  cases hrest : s.dropWhile (· ≠ mark) with
  | nil =>
      rw [hrest, List.append_nil] at hsplit
      exact absurd (congrArg List.length hsplit) hlength
  | cons c rest =>
      have hc := List.head?_dropWhile_not (fun c => decide (c ≠ mark)) s
      rw [hrest] at hc
      have hc : c = mark := by simpa using hc
      refine ⟨rest, ?_⟩
      rw [← hc, ← hrest, hc, hsplit]

end Mark
end CiPipeline.Text
