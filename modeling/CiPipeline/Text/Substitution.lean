/-!
Replacing every occurrence of a text by another, from left to right and without overlaps.
-/

namespace CiPipeline.Text

/--
The text with each occurrence of `target` replaced. The counter says how many characters still belong
to the occurrence that was replaced last, so the recursion is on the text itself.
-/
def replaceFrom (target new : List Char) : Nat → List Char → List Char
  | _, [] => []
  | skip + 1, _ :: rest => replaceFrom target new skip rest
  | 0, c :: rest =>
    if target.isPrefixOf (c :: rest) then
      new ++ replaceFrom target new (target.length - 1) rest
    else c :: replaceFrom target new 0 rest

/-- Replaces every occurrence of a non-empty `target`, the leftmost first. -/
def replaceAll (target new s : List Char) : List Char :=
  replaceFrom target new 0 s

/-- Whether `part` occurs in the text as a contiguous piece. -/
def occursIn (part : List Char) : List Char → Bool
  | [] => part.isEmpty
  | c :: rest => part.isPrefixOf (c :: rest) || occursIn part rest

/-- What follows `lead` in a text that begins with it. -/
def after? (lead s : List Char) : Option (List Char) :=
  if lead.isPrefixOf s then some (s.drop lead.length) else none

theorem after?_eq_some_iff {lead s rest : List Char} :
    after? lead s = some rest ↔ s = lead ++ rest := by
  unfold after?
  split
  · next hlead =>
    obtain ⟨own, rfl⟩ := List.isPrefixOf_iff_prefix.mp hlead
    rw [List.drop_left, Option.some.injEq, List.append_cancel_left_eq]
  · next hlead =>
    refine iff_of_false (by simp) ?_
    rintro rfl
    exact hlead (List.isPrefixOf_iff_prefix.mpr (List.prefix_append lead rest))

theorem after?_eq_none_iff {lead s : List Char} : after? lead s = none ↔ ¬ lead <+: s := by
  rw [← List.isPrefixOf_iff_prefix]
  unfold after?
  split <;> simp [*]

end CiPipeline.Text
