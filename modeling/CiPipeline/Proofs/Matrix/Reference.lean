import CiPipeline.Matrix.Reference
import CiPipeline.Proofs.Text.Occurrence
import Mathlib

/-!
What interpolation does to a text. A reference begins with a dollar sign and has no other one, so two
references of a text have no character in common: the text falls into its references and the characters
between them. Interpolation shows each of these pieces by itself, whatever stands around it.
-/

namespace CiPipeline.Matrix

/-- A text that refers to an axis: after what opens it and some blanks the name of the axis, and some
blanks before what closes it. -/
@[ext]
structure Reference where
  lead : List Char
  axis : List Char
  trail : List Char
  lead_blank : ∀ c ∈ lead, Text.isBlank c = true
  axis_ne_nil : axis ≠ []
  axis_name : ∀ c ∈ axis, isAxisChar c = true
  trail_blank : ∀ c ∈ trail, Text.isBlank c = true

namespace Reference

/-- The text of a reference. -/
def source (reference : Reference) : List Char :=
  opening ++ (reference.lead ++ (matrixLead ++
    (reference.axis ++ (reference.trail ++ closing))))

/-- The reference as it is written. -/
def text (reference : Reference) : String :=
  String.ofList reference.source

/-- What is put in for a reference; an unknown axis has no text. -/
def shown (value : String → Option String) (reference : Reference) : String :=
  (value (String.ofList reference.axis)).getD ""

end Reference

/-! ## Characters of a reference -/

/-- The names of axes have codes between those of the dollar sign and the braces. -/
theorem code_of_isAxisChar {c : Char} (haxis : isAxisChar c = true) :
    45 ≤ c.toNat ∧ c.toNat ≤ 122 := by
  simp only [isAxisChar, Char.isAlphanum, Char.isAlpha, Char.isUpper, Char.isLower, Char.isDigit,
    Bool.or_eq_true, Bool.and_eq_true, decide_eq_true_eq, beq_iff_eq,
    UInt32.le_iff_toNat_le] at haxis
  rcases haxis with (((hupper | hlower) | hdigit) | rfl) | rfl
  · exact ⟨Nat.le_trans (by decide) hupper.1, Nat.le_trans hupper.2 (by decide)⟩
  · exact ⟨Nat.le_trans (by decide) hlower.1, hlower.2⟩
  · exact ⟨Nat.le_trans (by decide) hdigit.1, Nat.le_trans hdigit.2 (by decide)⟩
  · decide
  · decide

theorem code_of_isBlank {c : Char} (hblank : Text.isBlank c = true) :
    c.toNat ≤ 32 ∨ 133 ≤ c.toNat := by
  simp only [Text.isBlank, Text.inRanges, Text.blankRanges, List.any_cons, List.any_nil,
    Bool.or_eq_true, Bool.and_eq_true, decide_eq_true_eq, Bool.or_false] at hblank
  omega

theorem not_isAxisChar_of_isBlank {c : Char} (hblank : Text.isBlank c = true) :
    isAxisChar c = false := by
  rw [← Bool.not_eq_true]
  intro haxis
  have hcode := code_of_isAxisChar haxis
  have hblank := code_of_isBlank hblank
  omega

/-! ## Runs of characters -/

section Runs

variable {p : Char → Bool} {run own rest more : List Char}

/-- No run of characters of one kind goes on into a text. -/
def Ends (p : Char → Bool) (rest : List Char) : Prop :=
  ∀ c ∈ rest.head?, p c = false

theorem takeWhile_append_of_ends (hrun : ∀ c ∈ run, p c = true) (hends : Ends p rest) :
    (run ++ rest).takeWhile p = run := by
  rw [List.takeWhile_append_of_pos hrun]
  cases rest with
  | nil => simp
  | cons c rest => simp [hends c rfl]

theorem dropWhile_append_of_ends (hrun : ∀ c ∈ run, p c = true) (hends : Ends p rest) :
    (run ++ rest).dropWhile p = rest := by
  rw [List.dropWhile_append_of_pos hrun]
  cases rest with
  | nil => rfl
  | cons c rest => simp [hends c rfl]

/-- Where a run ends is decided by the text that it stands in. -/
theorem run_inj (hrun : ∀ c ∈ run, p c = true) (hends : Ends p rest) (hown : ∀ c ∈ own, p c = true)
    (hmore : Ends p more) (heq : run ++ rest = own ++ more) : run = own ∧ rest = more := by
  constructor
  · rw [← takeWhile_append_of_ends hrun hends, heq, takeWhile_append_of_ends hown hmore]
  · rw [← dropWhile_append_of_ends hrun hends, heq, dropWhile_append_of_ends hown hmore]

end Runs

namespace Reference

section Ending

variable (reference : Reference) (rest : List Char)

theorem ends_lead : Ends Text.isBlank (matrixLead ++ rest) := by
  rintro c ⟨⟩
  decide

theorem ends_trail : Ends Text.isBlank (closing ++ rest) := by
  rintro c ⟨⟩
  decide

theorem ends_axis : Ends isAxisChar (reference.trail ++ (closing ++ rest)) := by
  intro c hc
  cases htrail : reference.trail with
  | nil =>
      rw [htrail] at hc
      cases hc
      decide
  | cons first more =>
      rw [htrail] at hc
      cases hc
      exact not_isAxisChar_of_isBlank (reference.trail_blank c (htrail ▸ List.mem_cons_self))

theorem source_append : reference.source ++ rest = opening ++ (reference.lead ++ (matrixLead ++
    (reference.axis ++ (reference.trail ++ (closing ++ rest))))) := by
  simp only [source, List.append_assoc]

end Ending

variable {reference other : Reference} {rest more before after : List Char}

/-- A text begins with one reference at most. -/
theorem source_append_inj (heq : reference.source ++ rest = other.source ++ more) :
    reference = other ∧ rest = more := by
  rw [source_append, source_append] at heq
  obtain ⟨hlead, heq⟩ := run_inj reference.lead_blank (ends_lead _) other.lead_blank (ends_lead _)
    (List.append_cancel_left heq)
  obtain ⟨haxis, heq⟩ := run_inj reference.axis_name (reference.ends_axis rest) other.axis_name
    (other.ends_axis more) (List.append_cancel_left heq)
  obtain ⟨htrail, heq⟩ := run_inj reference.trail_blank (ends_trail rest) other.trail_blank
    (ends_trail more) heq
  exact ⟨Reference.ext hlead haxis htrail, List.append_cancel_left heq⟩

/-- A reference begins with a dollar sign and has no other one. -/
theorem exists_source_eq (reference : Reference) :
    ∃ tail, reference.source = '$' :: tail ∧ '$' ∉ tail := by
  refine ⟨"\x7b\x7b".toList ++ (reference.lead ++ (matrixLead ++
    (reference.axis ++ (reference.trail ++ closing)))), rfl, ?_⟩
  have hblank : ∀ run : List Char, (∀ c ∈ run, Text.isBlank c = true) → '$' ∉ run :=
    fun run hrun hmem => absurd (hrun _ hmem) (by decide)
  have hname : '$' ∉ reference.axis := fun hmem =>
    absurd (reference.axis_name _ hmem) (by decide)
  simp only [List.mem_append, not_or]
  exact ⟨by decide, hblank _ reference.lead_blank, by decide, hname, hblank _ reference.trail_blank,
    by decide⟩

theorem matrixLead_infix_source (reference : Reference) : matrixLead <:+: reference.source :=
  ⟨opening ++ reference.lead, reference.axis ++ (reference.trail ++ closing), by
    simp only [source, List.append_assoc]⟩

theorem source_ne_nil (reference : Reference) : reference.source ≠ [] := by
  obtain ⟨tail, htail, _⟩ := reference.exists_source_eq
  simp [htail]

/-- Of two references in a text that begins with the one, the other is the same, or it stands behind. -/
theorem eq_or_exists_of_append_eq
    (heq : reference.source ++ rest = before ++ other.source ++ after) :
    before = [] ∧ reference = other ∨
      ∃ between, before = reference.source ++ between ∧ rest = between ++ other.source ++ after := by
  rw [List.append_assoc] at heq
  rcases List.append_eq_append_iff.mp heq with ⟨between, hbefore, hrest⟩ | ⟨tail, hsource, hother⟩
  · exact Or.inr ⟨between, hbefore, by rw [hrest, List.append_assoc]⟩
  · cases before with
    | nil => exact Or.inl ⟨rfl, (source_append_inj heq).1⟩
    | cons first before =>
        cases tail with
        | nil => exact Or.inr ⟨[], by simpa using hsource.symm, by simpa using hother.symm⟩
        | cons c tail =>
            -- the dollar sign of the other reference would stand inside the one at the front
            obtain ⟨own, hown, hdollar⟩ := reference.exists_source_eq
            obtain ⟨_, hstart, _⟩ := other.exists_source_eq
            rw [hown, List.cons_append] at hsource
            rw [hstart, List.cons_append, List.cons_append] at hother
            obtain ⟨rfl, _⟩ := List.cons_eq_cons.mp hother
            have hinside : own = before ++ '$' :: tail := (List.cons_eq_cons.mp hsource).2
            exact absurd (hinside ▸ by simp) hdollar

end Reference

theorem readReference?_source_append (reference : Reference) (rest : List Char) :
    readReference? (reference.source ++ rest) = some (reference.axis, rest) := by
  have hname : reference.axis.isEmpty = false := by simpa using reference.axis_ne_nil
  rw [readReference?, reference.source_append, Text.after?_eq_some_iff.mpr rfl,
    Option.bind_eq_bind, Option.bind_some,
    dropWhile_append_of_ends reference.lead_blank (Reference.ends_lead _),
    Text.after?_eq_some_iff.mpr rfl]
  simp only [Option.bind_eq_bind, Option.bind_some]
  rw [takeWhile_append_of_ends reference.axis_name (reference.ends_axis rest),
    dropWhile_append_of_ends reference.axis_name (reference.ends_axis rest),
    dropWhile_append_of_ends reference.trail_blank (Reference.ends_trail rest),
    Text.after?_eq_some_iff.mpr rfl, hname]
  rfl

theorem exists_of_readReference? {s axis rest : List Char}
    (hread : readReference? s = some (axis, rest)) :
    ∃ reference : Reference, reference.axis = axis ∧ s = reference.source ++ rest := by
  simp only [readReference?, Option.bind_eq_bind, Option.bind_eq_some_iff,
    Text.after?_eq_some_iff] at hread
  obtain ⟨inside, rfl, named, hnamed, _, hname, own, hown, heq⟩ := hread
  cases heq
  have hne : named.takeWhile isAxisChar ≠ [] := by
    intro hnil
    simp [hnil, guard] at hname
  refine ⟨{
    lead := inside.takeWhile Text.isBlank
    axis := named.takeWhile isAxisChar
    trail := (named.dropWhile isAxisChar).takeWhile Text.isBlank
    lead_blank := fun _ => List.all_eq_true.mp List.all_takeWhile _
    axis_ne_nil := hne
    axis_name := fun _ => List.all_eq_true.mp List.all_takeWhile _
    trail_blank := fun _ => List.all_eq_true.mp List.all_takeWhile _ }, rfl, ?_⟩
  rw [Reference.source_append, ← hown]
  dsimp only
  rw [List.takeWhile_append_dropWhile, List.takeWhile_append_dropWhile, ← hnamed,
    List.takeWhile_append_dropWhile]

/-- A reference is read exactly where one stands at the front. -/
theorem readReference?_eq_none_iff {s : List Char} :
    readReference? s = none ↔ ∀ (reference : Reference) (rest : List Char),
      s ≠ reference.source ++ rest := by
  constructor
  · rintro hnone reference rest rfl
    rw [readReference?_source_append] at hnone
    cases hnone
  · intro hno
    cases hread : readReference? s with
    | none => rfl
    | some read =>
        obtain ⟨reference, _, heq⟩ := exists_of_readReference? hread
        exact absurd heq (hno reference read.2)

/-! ## The pieces of a text -/

/-- A text begins with a reference or with a character that is in none, and goes on in the same way. -/
theorem text_induction {motive : List Char → Prop} (nil : motive [])
    (reference : ∀ (reference : Reference) (rest : List Char), motive rest →
      motive (reference.source ++ rest))
    (kept : ∀ (c : Char) (rest : List Char), readReference? (c :: rest) = none → motive rest →
      motive (c :: rest))
    (text : List Char) : motive text := by
  induction hlength : text.length using Nat.strongRecOn generalizing text with
  | ind length ih =>
      subst hlength
      cases text with
      | nil => exact nil
      | cons c rest =>
          cases hread : readReference? (c :: rest) with
          | none => exact kept c rest hread (ih rest.length (by simp) rest rfl)
          | some read =>
              obtain ⟨own, _, heq⟩ := exists_of_readReference? hread
              have hshorter : read.2.length < (c :: rest).length := by
                have hpos := List.length_pos_iff.mpr own.source_ne_nil
                rw [heq, List.length_append]
                omega
              rw [heq]
              exact reference own read.2 (ih _ hshorter read.2 rfl)

/-- A part of a text: a reference, or a character that is in none. -/
inductive Piece
  | kept (c : Char)
  | reference (reference : Reference)

namespace Piece

/-- What the piece is in the text. -/
def source : Piece → List Char
  | .kept c => [c]
  | .reference own => own.source

/-- What the piece is after interpolation. -/
def shown (value : String → Option String) : Piece → List Char
  | .kept c => [c]
  | .reference own => (own.shown value).toList

end Piece

/-- A text falls into some pieces: every reference in it is one of them, in its place. -/
structure FallsInto (text : List Char) (pieces : List Piece) : Prop where
  source_eq : pieces.flatMap Piece.source = text
  whole : ∀ (reference : Reference) (before after : List Char),
    text = before ++ reference.source ++ after →
      ∃ front back, pieces = front ++ .reference reference :: back ∧
        front.flatMap Piece.source = before ∧ back.flatMap Piece.source = after

namespace FallsInto

variable {text : List Char} {pieces : List Piece}

theorem nil : FallsInto [] [] where
  source_eq := rfl
  whole := by
    intro reference before after heq
    have hnil := (List.append_eq_nil_iff.mp (List.append_eq_nil_iff.mp heq.symm).1).2
    exact absurd hnil reference.source_ne_nil

theorem reference (hfalls : FallsInto text pieces) (reference : Reference) :
    FallsInto (reference.source ++ text) (.reference reference :: pieces) where
  source_eq := by rw [List.flatMap_cons, hfalls.source_eq, Piece.source]
  whole := by
    intro other before after heq
    rcases Reference.eq_or_exists_of_append_eq heq with ⟨rfl, rfl⟩ | ⟨between, rfl, htext⟩
    · refine ⟨[], pieces, rfl, rfl, ?_⟩
      rw [hfalls.source_eq]
      exact List.append_cancel_left heq
    · obtain ⟨front, back, rfl, hfront, hback⟩ := hfalls.whole other between after htext
      refine ⟨.reference reference :: front, back, rfl, ?_, hback⟩
      rw [List.flatMap_cons, hfront, Piece.source]

theorem kept (hfalls : FallsInto text pieces) {c : Char} (hnone : readReference? (c :: text) = none) :
    FallsInto (c :: text) (.kept c :: pieces) where
  source_eq := by rw [List.flatMap_cons, hfalls.source_eq, Piece.source, List.singleton_append]
  whole := by
    intro other before after heq
    cases before with
    | nil => exact absurd heq (readReference?_eq_none_iff.mp hnone other after)
    | cons first before =>
        obtain ⟨rfl, htext⟩ := List.cons_eq_cons.mp heq
        obtain ⟨front, back, rfl, hfront, hback⟩ := hfalls.whole other before after htext
        refine ⟨.kept c :: front, back, rfl, ?_, hback⟩
        rw [List.flatMap_cons, hfront, Piece.source, List.singleton_append]

end FallsInto

/-! ## Interpolation -/

section Interpolation

variable {valueOf : List Char → List Char} {text : List Char}

theorem interpolateFrom_skip (part : List Char) :
    interpolateFrom valueOf part.length (part ++ text) = interpolateFrom valueOf 0 text := by
  induction part with
  | nil => rfl
  | cons c part ih => exact ih

theorem interpolateFrom_source (reference : Reference) :
    interpolateFrom valueOf 0 (reference.source ++ text) =
      valueOf reference.axis ++ interpolateFrom valueOf 0 text := by
  have hread := readReference?_source_append reference text
  obtain ⟨tail, hsource, _⟩ := reference.exists_source_eq
  rw [hsource, List.cons_append] at hread ⊢
  have hlength : (tail ++ text).length - text.length = tail.length := by simp
  rw [interpolateFrom, hread]
  simp only [hlength, interpolateFrom_skip]

theorem interpolateFrom_kept {c : Char} (hnone : readReference? (c :: text) = none) :
    interpolateFrom valueOf 0 (c :: text) = c :: interpolateFrom valueOf 0 text := by
  rw [interpolateFrom, hnone]

/-- What stands before a place that no reference goes across is interpolated by itself. -/
theorem interpolateFrom_append {front back : List Char}
    (hwhole : ∀ (reference : Reference) (left right : List Char), left ≠ [] → right ≠ [] →
      reference.source = left ++ right → left <:+ front → ¬ right <+: back) :
    interpolateFrom valueOf 0 (front ++ back) =
      interpolateFrom valueOf 0 front ++ interpolateFrom valueOf 0 back := by
  induction front using text_induction with
  | nil => rfl
  | reference reference rest ih =>
      have hrest := ih fun other left right hleft hright heq hsuffix =>
        hwhole other left right hleft hright heq (hsuffix.trans (List.suffix_append _ _))
      rw [List.append_assoc, interpolateFrom_source, interpolateFrom_source, hrest, List.append_assoc]
  | kept c rest hnone ih =>
      have hrest := ih fun other left right hleft hright heq hsuffix =>
        hwhole other left right hleft hright heq (hsuffix.trans (List.suffix_cons _ _))
      -- a reference that begins here and not in the front alone would go across the place
      have hlonger : readReference? (c :: (rest ++ back)) = none := by
        rw [readReference?_eq_none_iff] at hnone ⊢
        intro other more heq
        rcases List.append_eq_append_iff.mp (List.cons_append.trans heq) with
          ⟨right, hsource, hback⟩ | ⟨tail, hfront, _⟩
        · cases right with
          | nil => exact hnone other [] (by simpa using hsource.symm)
          | cons first right =>
              exact hwhole other _ _ (by simp) (by simp) hsource (List.suffix_refl _)
                ⟨more, hback.symm⟩
        · exact hnone other tail hfront
      rw [List.cons_append, interpolateFrom_kept hlonger, interpolateFrom_kept hnone, hrest,
        List.cons_append]

/-- No reference goes on into another one. -/
theorem Reference.not_prefix_source {reference other : Reference} {left right : List Char}
    (hleft : left ≠ []) (hright : right ≠ []) (hsource : other.source = left ++ right) :
    ¬ right <+: reference.source ++ text := by
  obtain ⟨tail, hother, hdollar⟩ := other.exists_source_eq
  obtain ⟨own, hown, _⟩ := reference.exists_source_eq
  obtain ⟨first, left, rfl⟩ := List.exists_cons_of_ne_nil hleft
  obtain ⟨c, right, rfl⟩ := List.exists_cons_of_ne_nil hright
  rw [hown, List.cons_append, List.cons_prefix_cons]
  rintro ⟨rfl, _⟩
  rw [hother, List.cons_append] at hsource
  have htail : tail = left ++ '$' :: right := (List.cons_eq_cons.mp hsource).2
  exact hdollar (htail ▸ by simp)

variable {value : String → Option String}

theorem interpolate_eq (value : String → Option String) (text : List Char) :
    interpolate value (String.ofList text) = String.ofList
      (interpolateFrom (fun axis => ((value (String.ofList axis)).getD "").toList) 0 text) := by
  rw [interpolate, String.toList_ofList]

theorem exists_pieces (text : List Char) :
    ∃ pieces, FallsInto text pieces ∧ ∀ value,
      interpolate value (String.ofList text) = String.ofList (pieces.flatMap (Piece.shown value)) := by
  simp only [interpolate_eq, String.ofList_inj]
  induction text using text_induction with
  | nil => exact ⟨[], .nil, fun _ => rfl⟩
  | reference reference rest ih =>
      obtain ⟨pieces, hfalls, hshown⟩ := ih
      refine ⟨_, hfalls.reference reference, ?_⟩
      intro value
      rw [interpolateFrom_source, hshown, List.flatMap_cons]
      rfl
  | kept c rest hnone ih =>
      obtain ⟨pieces, hfalls, hshown⟩ := ih
      refine ⟨_, hfalls.kept hnone, ?_⟩
      intro value
      rw [interpolateFrom_kept hnone, hshown, List.flatMap_cons]
      rfl

theorem interpolate_append {front back : String}
    (hwhole : ∀ reference : Reference, ¬ Text.Across reference.text front back) :
    interpolate value (front ++ back) = interpolate value front ++ interpolate value back := by
  rw [interpolate, interpolate, interpolate, String.toList_append, ← String.ofList_append]
  congr 1
  apply interpolateFrom_append
  intro reference left right hleft hright hsource hsuffix hprefix
  refine hwhole reference ⟨left, right, hleft, hright, ?_, hsuffix, hprefix⟩
  rw [Reference.text, String.toList_ofList, hsource]

theorem interpolate_text_append (reference : Reference) (back : String) :
    interpolate value (reference.text ++ back) = reference.shown value ++ interpolate value back := by
  rw [interpolate, interpolate, String.toList_append, Reference.text, String.toList_ofList,
    interpolateFrom_source, String.ofList_append, String.ofList_toList, Reference.shown]

/-- A place in front of a reference is one that no reference goes across. -/
theorem interpolate_around (reference : Reference) (before after : String) :
    interpolate value (before ++ reference.text ++ after) =
      interpolate value before ++ reference.shown value ++ interpolate value after := by
  have hwhole : ∀ other : Reference, ¬ Text.Across other.text before (reference.text ++ after) := by
    rintro other ⟨left, right, hleft, hright, hsource, _, hprefix⟩
    rw [Reference.text, String.toList_ofList] at hsource
    rw [String.toList_append, Reference.text, String.toList_ofList] at hprefix
    exact Reference.not_prefix_source hleft hright hsource hprefix
  rw [String.append_assoc, interpolate_append hwhole, interpolate_text_append, String.append_assoc]

theorem interpolate_eq_self {text : String}
    (hno : ∀ reference : Reference, ¬ Text.Occurs reference.text text) :
    interpolate value text = text := by
  obtain ⟨pieces, hfalls, hshown⟩ := exists_pieces text.toList
  have hkept : ∀ piece ∈ pieces, piece.shown value = piece.source := by
    rintro (c | reference) hpiece
    · rfl
    · obtain ⟨front, back, rfl⟩ := List.append_of_mem hpiece
      refine absurd ⟨front.flatMap Piece.source, back.flatMap Piece.source, ?_⟩ (hno reference)
      rw [← hfalls.source_eq, Reference.text, String.toList_ofList, List.flatMap_append,
        List.flatMap_cons, List.append_assoc]
      rfl
  rw [String.ofList_toList] at hshown
  rw [hshown, List.flatMap_congr hkept, hfalls.source_eq, String.ofList_toList]

end Interpolation

namespace Reference

variable {first second : Reference} {lead before after front back more : List Char}

theorem eq_or_exists_between
    (heq : lead ++ first.source ++ after = lead ++ more ++ second.source ++ back) :
    more = [] ∧ first = second ∨ ∃ between, lead ++ more = lead ++ first.source ++ between := by
  simp only [List.append_assoc, List.append_cancel_left_eq] at heq
  rw [← List.append_assoc] at heq
  refine (eq_or_exists_of_append_eq heq).imp_right ?_
  rintro ⟨between, rfl, _⟩
  exact ⟨between, by rw [List.append_assoc]⟩

/-- Two references of a text are one, or the one stands behind the other. -/
theorem eq_or_behind (heq : before ++ first.source ++ after = front ++ second.source ++ back) :
    (before = front ∧ first = second) ∨
      (∃ between, front = before ++ first.source ++ between) ∨
        ∃ between, before = front ++ second.source ++ between := by
  have hsplit := heq
  rw [List.append_assoc before, List.append_assoc front] at hsplit
  rcases List.append_eq_append_iff.mp hsplit with ⟨more, rfl, _⟩ | ⟨more, rfl, _⟩
  · rcases eq_or_exists_between heq with ⟨rfl, hsame⟩ | hbetween
    · exact Or.inl ⟨(List.append_nil before).symm, hsame⟩
    · exact Or.inr (Or.inl hbetween)
  · rcases eq_or_exists_between heq.symm with ⟨rfl, hsame⟩ | hbetween
    · exact Or.inl ⟨List.append_nil front, hsame.symm⟩
    · exact Or.inr (Or.inr hbetween)

theorem eq_append_of_toList_eq {text whole : String}
    (heq : whole.toList = text.toList ++ first.source ++ more) :
    whole = text ++ first.text ++ String.ofList more := by
  apply String.toList_inj.mp
  rw [heq, String.toList_append, String.toList_append, Reference.text, String.toList_ofList,
    String.toList_ofList]

end Reference

/-- Interpolation replaces the references of a text and nothing else, in one pass. No two references
overlap, so the text falls into references and characters, and what is shown is made of these one by
one: a reference becomes the value of its axis, or nothing where the axis is unknown, and a character
stays. So a text may be cut wherever no reference goes across, a text without references stays as it
is, and a value is put in as it is, whatever it looks like. -/
theorem interpolation_replaces_references (text : String) :
    (∀ (first second : Reference) (before after front back : String),
      text = before ++ first.text ++ after → text = front ++ second.text ++ back →
        (before = front ∧ first = second) ∨
          (∃ between, front = before ++ first.text ++ between) ∨
            ∃ between, before = front ++ second.text ++ between) ∧
    (∃ pieces, FallsInto text.toList pieces ∧ ∀ value,
      interpolate value text = String.ofList (pieces.flatMap (Piece.shown value))) ∧
    ∀ value : String → Option String,
      (∀ front back, text = front ++ back →
        (∀ reference : Reference, ¬ Text.Across reference.text front back) →
          interpolate value text = interpolate value front ++ interpolate value back) ∧
      ((∀ reference : Reference, ¬ Text.Occurs reference.text text) → interpolate value text = text) ∧
      ∀ (reference : Reference) (before after : String), text = before ++ reference.text ++ after →
        interpolate value text =
          interpolate value before ++ reference.shown value ++ interpolate value after := by
  obtain ⟨pieces, hfalls, hshown⟩ := exists_pieces text.toList
  rw [String.ofList_toList] at hshown
  refine ⟨?_, ⟨pieces, hfalls, hshown⟩, ?_⟩
  · intro first second before after front back hfirst hsecond
    have heq := congrArg String.toList (hfirst.symm.trans hsecond)
    simp only [String.toList_append, Reference.text, String.toList_ofList] at heq
    refine (Reference.eq_or_behind heq).imp (And.imp_left String.toList_inj.mp) (Or.imp ?_ ?_)
    · rintro ⟨between, hbetween⟩
      exact ⟨_, Reference.eq_append_of_toList_eq hbetween⟩
    · rintro ⟨between, hbetween⟩
      exact ⟨_, Reference.eq_append_of_toList_eq hbetween⟩
  · intro value
    refine ⟨?_, interpolate_eq_self, ?_⟩
    · rintro front back rfl hwhole
      exact interpolate_append hwhole
    · rintro reference before after rfl
      exact interpolate_around reference before after

/-- A reference to the system, with a blank on either side of the name. -/
def systemReference : Reference where
  lead := [' ']
  axis := "os".toList
  trail := [' ']
  lead_blank := List.all_eq_true.mp rfl
  axis_ne_nil := by decide
  axis_name := List.all_eq_true.mp rfl
  trail_blank := List.all_eq_true.mp rfl

/-- The only axis is the system, whose value looks like a reference to itself. -/
def selfValue (axis : String) : Option String :=
  if axis = "os" then some systemReference.text else none

theorem interpolation_replaces_references_self :
    interpolate selfValue ("on " ++ systemReference.text ++ "$\x7b\x7b secrets.os \x7d\x7d") =
      "on " ++ systemReference.text ++ "$\x7b\x7b secrets.os \x7d\x7d" := by
  obtain ⟨_, _, hfront⟩ := interpolation_replaces_references "on "
  obtain ⟨_, _, hback⟩ := interpolation_replaces_references "$\x7b\x7b secrets.os \x7d\x7d"
  obtain ⟨_, _, hwhole⟩ := interpolation_replaces_references
    ("on " ++ systemReference.text ++ "$\x7b\x7b secrets.os \x7d\x7d")
  -- a text without the middle of a reference has no reference
  have habsent : ∀ text : String, Text.occursIn matrixLead text.toList = false →
      ∀ reference : Reference, ¬ Text.Occurs reference.text text := by
    intro text hlead reference hoccurs
    rw [← Bool.not_eq_true, Text.occursIn_iff] at hlead
    rw [Text.Occurs, Reference.text, String.toList_ofList] at hoccurs
    exact hlead (reference.matrixLead_infix_source.trans hoccurs)
  have hshown : systemReference.shown selfValue = systemReference.text := by
    have haxis : String.ofList systemReference.axis = "os" := String.ofList_toList
    rw [Reference.shown, haxis, selfValue, if_pos rfl, Option.getD_some]
  rw [(hwhole selfValue).2.2 systemReference _ _ rfl, (hfront selfValue).2.1 (habsent _ (by decide)),
    (hback selfValue).2.1 (habsent _ (by decide)), hshown]

end CiPipeline.Matrix
