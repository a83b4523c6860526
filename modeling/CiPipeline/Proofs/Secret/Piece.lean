import CiPipeline.Proofs.Secret

/-!
A text that is masked piece by piece: a piece is a character that was kept or a value that was masked,
so what the text was and what it shows can both be read from the pieces. Masking one more value puts a
masked piece wherever the value stands in kept characters alone, since no part of a mask is like a
part of the value.
-/

namespace CiPipeline

namespace Text

section Replacing

variable {target new s : List Char}

theorem replaceFrom_skip (part : List Char) :
    replaceFrom target new part.length (part ++ s) = replaceFrom target new 0 s := by
  induction part with
  | nil => rfl
  | cons c part ih => exact ih

theorem replaceFrom_append_self (hne : target ≠ []) :
    replaceFrom target new 0 (target ++ s) = new ++ replaceFrom target new 0 s := by
  obtain ⟨c, rest, rfl⟩ := List.exists_cons_of_ne_nil hne
  have hfront : (c :: rest).isPrefixOf (c :: (rest ++ s)) = true :=
    List.isPrefixOf_iff_prefix.mpr (List.prefix_append (c :: rest) s)
  rw [List.cons_append, replaceFrom, if_pos hfront]
  exact congrArg (new ++ ·) (replaceFrom_skip rest)

theorem replaceFrom_cons_of_not_prefix {c : Char} (hfront : ¬ target <+: c :: s) :
    replaceFrom target new 0 (c :: s) = c :: replaceFrom target new 0 s := by
  rw [replaceFrom, if_neg (mt List.isPrefixOf_iff_prefix.mp hfront)]

/-- A mask is passed over by what has none of its characters. -/
theorem replaceFrom_mask (hne : target ≠ []) (hmask : '*' ∉ target) :
    replaceFrom target new 0 (mask.toList ++ s) =
      mask.toList ++ replaceFrom target new 0 s := by
  have hpass : ∀ s, replaceFrom target new 0 ('*' :: s) =
      '*' :: replaceFrom target new 0 s := fun s =>
    replaceFrom_cons_of_not_prefix fun hfront => hne (eq_nil_of_prefix_cons hmask hfront)
  simp only [mask_toList, List.cons_append, List.nil_append, hpass]

end Replacing

end Text

namespace Redactor

/-- A part of a text that is being masked. -/
inductive Piece
  | kept (c : Char)
  | masked (value : String)
  deriving DecidableEq, Repr

namespace Piece

/-- What the piece was before it was masked. -/
def source : Piece → List Char
  | kept c => [c]
  | masked value => value.toList

/-- What the piece shows. -/
def shown : Piece → List Char
  | kept c => [c]
  | masked _ => mask.toList

/-- A piece stands at a place of the text. -/
inductive StandsAt : List Piece → Piece → Nat → Prop
  | here {piece : Piece} {rest : List Piece} : StandsAt (piece :: rest) piece 0
  | later {first piece : Piece} {rest : List Piece} {place : Nat}
      (hrest : StandsAt rest piece place) :
      StandsAt (first :: rest) piece (first.source.length + place)

variable {first piece other : Piece} {pieces rest : List Piece} {place : Nat} {part : List Char}

theorem not_standsAt_nil : ¬ StandsAt [] piece place := by
  intro hstands
  cases hstands

theorem standsAt_cons_iff : StandsAt (first :: rest) piece place ↔
    first = piece ∧ place = 0 ∨
      ∃ later, place = first.source.length + later ∧ StandsAt rest piece later := by
  constructor
  · intro hstands
    cases hstands with
    | here => exact Or.inl ⟨rfl, rfl⟩
    | later hrest => exact Or.inr ⟨_, rfl, hrest⟩
  · rintro (⟨rfl, rfl⟩ | ⟨later, rfl, hrest⟩)
    · exact .here
    · exact .later hrest

theorem standsAt_append_iff {front : List Piece} : StandsAt (front ++ rest) piece place ↔
    StandsAt front piece place ∨
      ∃ later, place = (front.flatMap source).length + later ∧ StandsAt rest piece later := by
  induction front generalizing place with
  | nil => simp [not_standsAt_nil]
  | cons first front ih =>
      rw [List.cons_append, standsAt_cons_iff, standsAt_cons_iff, List.flatMap_cons,
        List.length_append]
      constructor
      · rintro (hhere | ⟨later, rfl, hlater⟩)
        · exact Or.inl (Or.inl hhere)
        · rcases ih.mp hlater with hfront | ⟨more, rfl, hmore⟩
          · exact Or.inl (Or.inr ⟨later, rfl, hfront⟩)
          · exact Or.inr ⟨more, by omega, hmore⟩
      · rintro ((hhere | ⟨later, rfl, hfront⟩) | ⟨more, rfl, hmore⟩)
        · exact Or.inl hhere
        · exact Or.inr ⟨later, rfl, ih.mpr (Or.inl hfront)⟩
        · exact Or.inr ⟨_, by omega, ih.mpr (Or.inr ⟨more, rfl, hmore⟩)⟩

theorem StandsAt.end_le (hstands : StandsAt pieces piece place) :
    place + piece.source.length ≤ (pieces.flatMap source).length := by
  induction hstands with
  | here => simp
  | later _ ih =>
      rw [List.flatMap_cons, List.length_append]
      omega

theorem not_standsAt_kept {value : String} : ¬ StandsAt (part.map kept) (.masked value) place := by
  induction part generalizing place with
  | nil => exact not_standsAt_nil
  | cons c part ih =>
      intro hstands
      rcases standsAt_cons_iff.mp hstands with ⟨heq, _⟩ | ⟨later, _, hlater⟩
      · cases heq
      · exact ih hlater

/-- Two pieces of a text are one, or one ends before the other begins. -/
theorem StandsAt.apart {start : Nat} (hpiece : StandsAt pieces piece place)
    (hother : StandsAt pieces other start) :
    piece = other ∨ place + piece.source.length ≤ start ∨ start + other.source.length ≤ place := by
  induction hpiece generalizing start with
  | here =>
      rcases standsAt_cons_iff.mp hother with ⟨rfl, _⟩ | ⟨later, rfl, _⟩
      · exact Or.inl rfl
      · exact Or.inr (Or.inl (by omega))
  | later _ ih =>
      rcases standsAt_cons_iff.mp hother with ⟨rfl, rfl⟩ | ⟨later, rfl, hlater⟩
      · exact Or.inr (Or.inr (by omega))
      · rcases ih hlater with heq | hbefore | hbehind
        · exact Or.inl heq
        · exact Or.inr (Or.inl (by omega))
        · exact Or.inr (Or.inr (by omega))

theorem standsAt_cons_later_iff (hwidth : 0 < first.source.length) :
    StandsAt (first :: rest) piece (first.source.length + place) ↔ StandsAt rest piece place := by
  rw [standsAt_cons_iff, or_iff_right (by omega)]
  constructor
  · rintro ⟨later, heq, hlater⟩
    obtain rfl : place = later := by omega
    exact hlater
  · intro hstands
    exact ⟨place, rfl, hstands⟩

theorem source_pos {others : List Piece} (hstands : StandsAt others first 0)
    (hsolid : ∀ value place, StandsAt others (.masked value) place → value ≠ "") :
    0 < first.source.length := by
  cases first with
  | kept c => exact Nat.one_pos
  | masked value =>
      apply List.length_pos_iff.mpr
      exact fun hnil => hsolid value 0 hstands (String.toList_eq_nil_iff.mp hnil)

/-- A text and the places of its masked pieces leave no choice for the pieces. -/
theorem eq_of_standsAt_iff {others : List Piece}
    (hsource : pieces.flatMap source = others.flatMap source)
    (hsame : ∀ value place,
      StandsAt pieces (.masked value) place ↔ StandsAt others (.masked value) place)
    (hsolid : ∀ value place, StandsAt pieces (.masked value) place → value ≠ "") :
    pieces = others := by
  have hothers : ∀ value place, StandsAt others (.masked value) place → value ≠ "" :=
    fun value place hstands => hsolid value place ((hsame value place).mpr hstands)
  induction pieces generalizing others with
  | nil =>
      cases others with
      | nil => rfl
      | cons second more =>
          have hpos := source_pos .here hothers
          rw [List.flatMap_cons, List.flatMap_nil, eq_comm, List.append_eq_nil_iff] at hsource
          rw [hsource.1] at hpos
          cases hpos
  | cons first rest ih =>
      have hpos := source_pos .here hsolid
      cases others with
      | nil =>
          rw [List.flatMap_cons, List.flatMap_nil, List.append_eq_nil_iff] at hsource
          rw [hsource.1] at hpos
          cases hpos
      | cons second more =>
          have hsecond := source_pos .here hothers
          have hfirst : first = second := by
            cases first with
            | masked value =>
                rcases standsAt_cons_iff.mp ((hsame value 0).mp .here) with ⟨heq, _⟩ | ⟨_, heq, _⟩
                · exact heq.symm
                · omega
            | kept c =>
                cases second with
                | masked value =>
                    rcases standsAt_cons_iff.mp ((hsame value 0).mpr .here) with
                      ⟨heq, _⟩ | ⟨_, heq, _⟩
                    · exact heq
                    · omega
                | kept d =>
                    rw [List.flatMap_cons, List.flatMap_cons] at hsource
                    rw [(List.cons.inj hsource).1]
          subst hfirst
          rw [List.flatMap_cons, List.flatMap_cons, List.append_cancel_left_eq] at hsource
          have hrest : rest = more := by
            apply ih hsource
            · intro value place
              rw [← standsAt_cons_later_iff hpos, hsame, standsAt_cons_later_iff hpos]
            · exact fun value place hstands => hsolid value _ (.later hstands)
            · exact fun value place hstands => hothers value _ (.later hstands)
          rw [hrest]

theorem flatMap_source_kept (part : List Char) : (part.map kept).flatMap source = part := by
  induction part with
  | nil => rfl
  | cons c part ih => rw [List.map_cons, List.flatMap_cons, ih, source, List.singleton_append]

theorem flatMap_shown_kept (part : List Char) : (part.map kept).flatMap shown = part := by
  induction part with
  | nil => rfl
  | cons c part ih => rw [List.map_cons, List.flatMap_cons, ih, shown, List.singleton_append]

/-- What has no character of the mask is shown by kept characters alone. -/
theorem exists_kept_of_prefix_shown (hmask : '*' ∉ part)
    (hstarts : part <+: pieces.flatMap shown) : ∃ rest, pieces = part.map kept ++ rest := by
  induction part generalizing pieces with
  | nil => exact ⟨pieces, rfl⟩
  | cons c part ih =>
      rw [List.mem_cons, not_or] at hmask
      cases pieces with
      | nil => simp at hstarts
      | cons first more =>
          rw [List.flatMap_cons] at hstarts
          cases first with
          | kept d =>
              obtain ⟨rfl, hpart⟩ := List.cons_prefix_cons.mp hstarts
              obtain ⟨rest, rfl⟩ := ih hmask.2 hpart
              exact ⟨rest, rfl⟩
          | masked value =>
              rw [shown, mask_toList, List.cons_append] at hstarts
              exact absurd (List.cons_prefix_cons.mp hstarts).1.symm hmask.1

/-- Where no masked piece stands in its way, what the text begins with is kept. -/
theorem exists_kept_of_prefix_source (hstarts : part <+: pieces.flatMap source)
    (hfree : ∀ value place, StandsAt pieces (.masked value) place → part.length ≤ place) :
    ∃ rest, pieces = part.map kept ++ rest := by
  induction part generalizing pieces with
  | nil => exact ⟨pieces, rfl⟩
  | cons c part ih =>
      cases pieces with
      | nil => simp at hstarts
      | cons first more =>
          cases first with
          | kept d =>
              rw [List.flatMap_cons] at hstarts
              obtain ⟨rfl, hpart⟩ := List.cons_prefix_cons.mp hstarts
              obtain ⟨rest, rfl⟩ := ih hpart fun value place hstands => by
                have hlater := hfree value _ (.later hstands)
                simp only [source, List.length_cons, List.length_nil] at hlater
                omega
              exact ⟨rest, rfl⟩
          | masked value =>
              have hnone := hfree value 0 .here
              simp at hnone

end Piece

/-! ## One more value -/

open Piece

/-- Some pieces become others when one more value is masked, the leftmost occurrence first. -/
inductive Masks (value : String) : List Piece → List Piece → Prop
  | nil : Masks value [] []
  | found {rest next : List Piece} (hrest : Masks value rest next) :
      Masks value (value.toList.map kept ++ rest) (.masked value :: next)
  | passed {piece : Piece} {rest next : List Piece}
      (habsent : ¬ value.toList <+: (piece :: rest).flatMap shown) (hrest : Masks value rest next) :
      Masks value (piece :: rest) (piece :: next)

section Masks

variable {value : String} {pieces next : List Piece}

theorem exists_masks (hvalue : value ≠ "") (hmask : '*' ∉ value.toList) (pieces : List Piece) :
    ∃ next, Masks value pieces next := by
  have hne : value.toList ≠ [] := fun hnil => hvalue (String.toList_eq_nil_iff.mp hnil)
  induction hlength : pieces.length using Nat.strongRecOn generalizing pieces with
  | ind length ih =>
      by_cases hfound : value.toList <+: pieces.flatMap shown
      · obtain ⟨rest, rfl⟩ := exists_kept_of_prefix_shown hmask hfound
        have hshorter : rest.length < length := by
          have hpos := List.length_pos_iff.mpr hne
          rw [List.length_append, List.length_map] at hlength
          omega
        obtain ⟨next, hnext⟩ := ih rest.length hshorter rest rfl
        exact ⟨_, .found hnext⟩
      · cases pieces with
        | nil => exact ⟨[], .nil⟩
        | cons piece rest =>
            obtain ⟨next, hnext⟩ := ih rest.length (by simp [← hlength]) rest rfl
            exact ⟨_, .passed hfound hnext⟩

theorem Masks.source_eq (hmasks : Masks value pieces next) :
    next.flatMap source = pieces.flatMap source := by
  induction hmasks with
  | nil => rfl
  | found _ ih => rw [List.flatMap_cons, List.flatMap_append, flatMap_source_kept, ih, source]
  | passed _ _ ih => rw [List.flatMap_cons, List.flatMap_cons, ih]

theorem Masks.shown_eq (hmasks : Masks value pieces next) (hvalue : value ≠ "")
    (hmask : '*' ∉ value.toList) :
    next.flatMap shown = maskValue (pieces.flatMap shown) value := by
  have hne : value.toList ≠ [] := fun hnil => hvalue (String.toList_eq_nil_iff.mp hnil)
  unfold maskValue Text.replaceAll at *
  induction hmasks with
  | nil => rfl
  | found _ ih =>
      rw [List.flatMap_cons, List.flatMap_append, flatMap_shown_kept, Text.replaceFrom_append_self hne,
        ih, shown]
  | @passed piece rest next habsent _ ih =>
      rw [List.flatMap_cons] at habsent
      rw [List.flatMap_cons, List.flatMap_cons, ih]
      cases piece with
      | kept c => exact (Text.replaceFrom_cons_of_not_prefix habsent).symm
      | masked other => exact (Text.replaceFrom_mask hne hmask).symm

end Masks
end Redactor
end CiPipeline
