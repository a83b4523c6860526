import CiPipeline.Proofs.Secret.Piece

/-!
Which occurrences of secrets are masked. Where any two occurrences are apart or nested, the maximal ones
are: the longer values are masked first, and of a shorter one those occurrences are left that lie in
no longer one. This says what is masked without any order of the values, so their order does not matter.
-/

namespace CiPipeline.Redactor

/-- A place in a text at which a value may stand. -/
structure Occurrence where
  value : String
  place : Nat

namespace Occurrence

/-- The place behind an occurrence. -/
def stop (occurrence : Occurrence) : Nat :=
  occurrence.place + occurrence.value.toList.length

/-- One of some values stands in a text there. -/
def IsIn (occurrence : Occurrence) (values : List String) (s : List Char) : Prop :=
  occurrence.value ∈ values ∧ occurrence.value.toList <+: s.drop occurrence.place

/-- Two occurrences have no character in common. -/
def Apart (occurrence other : Occurrence) : Prop :=
  occurrence.stop ≤ other.place ∨ other.stop ≤ occurrence.place

/-- One occurrence lies inside another. -/
def Within (occurrence other : Occurrence) : Prop :=
  other.place ≤ occurrence.place ∧ occurrence.stop ≤ other.stop

/-- Two occurrences are apart, or one lies inside the other. -/
def ApartOrNested (occurrence other : Occurrence) : Prop :=
  occurrence.Apart other ∨ occurrence.Within other ∨ other.Within occurrence

instance (occurrence other : Occurrence) : Decidable (occurrence.ApartOrNested other) :=
  inferInstanceAs (Decidable ((_ ≤ _ ∨ _ ≤ _) ∨ (_ ≤ _ ∧ _ ≤ _) ∨ (_ ≤ _ ∧ _ ≤ _)))

/-- One of some values stands in a text there, and not inside a longer one. -/
def IsMaximal (occurrence : Occurrence) (values : List String) (s : List Char) : Prop :=
  occurrence.IsIn values s ∧ ∀ other : Occurrence, other.IsIn values s → occurrence.Within other →
    ¬ occurrence.value.toList.length < other.value.toList.length

end Occurrence

/-- Any two occurrences of some values in a text are apart, or one lies inside the other. -/
def Nested (values : List String) (s : List Char) : Prop :=
  ∀ occurrence other : Occurrence, occurrence.IsIn values s → other.IsIn values s →
    occurrence.ApartOrNested other

/-- Some pieces make up a text in which each maximal occurrence of some values was masked, as one
piece, and nothing else. -/
structure MasksMaximal (values : List String) (s : List Char) (pieces : List Piece) : Prop where
  source_eq : pieces.flatMap Piece.source = s
  standsAt_iff : ∀ occurrence : Occurrence,
    Piece.StandsAt pieces (.masked occurrence.value) occurrence.place ↔
      occurrence.IsMaximal values s

/-! ## Occurrences -/

namespace Occurrence

variable {occurrence other : Occurrence} {values : List String} {s : List Char}

theorem IsIn.stop_le (hin : occurrence.IsIn values s) (hvalue : occurrence.value ≠ "") :
    occurrence.stop ≤ s.length := by
  have hle := hin.2.length_le
  have hpos : 0 < occurrence.value.toList.length :=
    List.length_pos_iff.mpr fun hnil => hvalue (String.toList_eq_nil_iff.mp hnil)
  rw [List.length_drop] at hle
  unfold stop
  omega

/-- Two occurrences that lie inside each other's bounds and are of one length are of one value. -/
theorem IsIn.value_eq {more : List String} (hin : occurrence.IsIn values s)
    (hother : other.IsIn more s) (hwithin : occurrence.Within other)
    (hlength : other.value.toList.length ≤ occurrence.value.toList.length) :
    occurrence.value = other.value := by
  obtain ⟨hplace, hstop⟩ := hwithin
  unfold stop at hstop
  have hsame : occurrence.place = other.place := by omega
  have hstarts := List.prefix_of_prefix_length_le hother.2 (hsame ▸ hin.2) hlength
  exact String.toList_inj.mp (hstarts.eq_of_length (by omega)).symm

/-- Whether occurrences are nested is decided by the places in the text. -/
theorem nested_of_forall_lt (hvalues : ∀ value ∈ values, value ≠ "")
    (hplaces : ∀ first ∈ values, ∀ second ∈ values, ∀ i < s.length, ∀ j < s.length,
      first.toList <+: s.drop i → second.toList <+: s.drop j →
        ApartOrNested ⟨first, i⟩ ⟨second, j⟩) :
    Nested values s := by
  intro first second hfirst hsecond
  have hlt : ∀ own : Occurrence, own.IsIn values s → own.place < s.length := by
    intro own hin
    have hpos : 0 < own.value.toList.length :=
      List.length_pos_iff.mpr fun hnil => hvalues _ hin.1 (String.toList_eq_nil_iff.mp hnil)
    have hstop := hin.stop_le (hvalues _ hin.1)
    unfold stop at hstop
    omega
  exact hplaces first.value hfirst.1 second.value hsecond.1 first.place (hlt first hfirst)
    second.place (hlt second hsecond) hfirst.2 hsecond.2

/-- Every occurrence lies inside a maximal one. -/
theorem IsIn.exists_maximal (hvalues : ∀ value ∈ values, value ≠ "")
    (hin : occurrence.IsIn values s) :
    ∃ maximal : Occurrence, maximal.IsMaximal values s ∧ occurrence.Within maximal := by
  induction hroom : s.length - occurrence.value.toList.length using Nat.strongRecOn
      generalizing occurrence with
  | ind room ih =>
      by_cases hlonger : ∃ other : Occurrence, other.IsIn values s ∧ occurrence.Within other ∧
          occurrence.value.toList.length < other.value.toList.length
      · obtain ⟨other, hother, hwithin, hlonger⟩ := hlonger
        have hstop := hother.stop_le (hvalues _ hother.1)
        unfold stop at hstop
        obtain ⟨maximal, hmaximal, houter⟩ := ih _ (by omega) hother rfl
        exact ⟨maximal, hmaximal, Nat.le_trans houter.1 hwithin.1, Nat.le_trans hwithin.2 houter.2⟩
      · refine ⟨occurrence, ⟨hin, ?_⟩, Nat.le_refl _, Nat.le_refl _⟩
        intro other hother hwithin hlength
        exact hlonger ⟨other, hother, hwithin, hlength⟩

theorem Within.not_apart (hwithin : occurrence.Within other) (hvalue : occurrence.value ≠ "") :
    ¬ occurrence.Apart other := by
  have hpos : 0 < occurrence.value.toList.length :=
    List.length_pos_iff.mpr fun hnil => hvalue (String.toList_eq_nil_iff.mp hnil)
  obtain ⟨hplace, hstop⟩ := hwithin
  unfold Apart
  unfold stop at hstop ⊢
  omega

/-- With one more value, which is not longer than the others, the maximal occurrences are those of
before, and those of the value that are apart from them. -/
theorem isMaximal_append_iff {value : String} (hnested : Nested (values ++ [value]) s)
    (hsome : ∀ own ∈ values ++ [value], own ≠ "") (hnew : value ∉ values)
    (hshorter : ∀ own ∈ values, value.toList.length ≤ own.toList.length) :
    occurrence.IsMaximal (values ++ [value]) s ↔
      occurrence.IsMaximal values s ∨
        occurrence.value = value ∧ value.toList <+: s.drop occurrence.place ∧
          ∀ other : Occurrence, other.IsMaximal values s → occurrence.Apart other := by
  have hmore : ∀ own : Occurrence, own.IsIn values s → own.IsIn (values ++ [value]) s :=
    fun own hin => ⟨List.mem_append_left _ hin.1, hin.2⟩
  have hothers : ∀ own ∈ values, own ≠ "" := fun own hown =>
    hsome own (List.mem_append_left _ hown)
  constructor
  · rintro ⟨hin, hmaximal⟩
    rcases List.mem_append.mp hin.1 with hmem | hmem
    · refine Or.inl ⟨⟨hmem, hin.2⟩, ?_⟩
      intro other hother hwithin
      exact hmaximal other (hmore other hother) hwithin
    · have hvalue : occurrence.value = value := List.mem_singleton.mp hmem
      refine Or.inr ⟨hvalue, hvalue ▸ hin.2, ?_⟩
      intro other hother
      rcases hnested occurrence other hin (hmore other hother.1) with hapart | hwithin | hwithin
      · exact hapart
      · have hlength := Nat.not_lt.mp (hmaximal other (hmore other hother.1) hwithin)
        have hsame := hin.value_eq hother.1 hwithin hlength
        exact absurd (hvalue ▸ hsame ▸ hother.1.1) hnew
      · have hlength := hshorter other.value hother.1.1
        rw [← hvalue] at hlength
        have hsame := hother.1.value_eq hin hwithin hlength
        exact absurd (hvalue ▸ hsame ▸ hother.1.1) hnew
  · rintro (⟨hin, hmaximal⟩ | ⟨rfl, hstarts, hclear⟩)
    · refine ⟨hmore occurrence hin, ?_⟩
      intro other hother hwithin hlonger
      rcases List.mem_append.mp hother.1 with hmem | hmem
      · exact hmaximal other ⟨hmem, hother.2⟩ hwithin hlonger
      · rw [List.mem_singleton.mp hmem] at hlonger
        exact absurd hlonger (Nat.not_lt.mpr (hshorter _ hin.1))
    · refine ⟨⟨by simp, hstarts⟩, ?_⟩
      intro other hother hwithin hlonger
      rcases List.mem_append.mp hother.1 with hmem | hmem
      · obtain ⟨outer, houter, hinside⟩ := IsIn.exists_maximal hothers ⟨hmem, hother.2⟩
        have hinner : occurrence.Within outer :=
          ⟨Nat.le_trans hinside.1 hwithin.1, Nat.le_trans hwithin.2 hinside.2⟩
        exact hinner.not_apart (hsome _ (by simp)) (hclear outer houter)
      · rw [List.mem_singleton.mp hmem] at hlonger
        exact Nat.lt_irrefl _ hlonger

theorem isMaximal_congr {more : List String} (hsame : ∀ value, value ∈ values ↔ value ∈ more) :
    occurrence.IsMaximal values s ↔ occurrence.IsMaximal more s := by
  simp only [IsMaximal, IsIn, hsame]

end Occurrence

/-! ## One more value -/

open Piece

/-- The places at which a value stands in a text are apart from each other. -/
def StandsApart (value : String) (s : List Char) : Prop :=
  ∀ i j, value.toList <+: s.drop i → value.toList <+: s.drop j → i < j →
    i + value.toList.length ≤ j

/-- A value stands in what the pieces were, clear of all that was masked. -/
def StandsClear (value : String) (pieces : List Piece) (place : Nat) : Prop :=
  value.toList <+: (pieces.flatMap source).drop place ∧
    ∀ other : Occurrence, StandsAt pieces (.masked other.value) other.place →
      (Occurrence.mk value place).Apart other

/-- A masked piece stands where it stood, or where one more value stands clear of all that was
masked. -/
def MaskedAfter (value : String) (pieces : List Piece) (own : String) (place : Nat) : Prop :=
  StandsAt pieces (.masked own) place ∨ own = value ∧ StandsClear value pieces place

section Step

variable {value own : String} {values : List String} {front pieces next rest : List Piece}
  {piece : Piece} {place : Nat} {s : List Char}

theorem StandsApart.of_append {lead : List Char} (hapart : StandsApart value (lead ++ s)) :
    StandsApart value s := by
  intro i j hi hj hlt
  have hdrop : ∀ place, (lead ++ s).drop (lead.length + place) = s.drop place := fun place =>
    List.drop_length_add_append place
  have hle := hapart (lead.length + i) (lead.length + j) (by rwa [hdrop]) (by rwa [hdrop])
    (Nat.add_lt_add_left hlt _)
  omega

theorem standsClear_append_iff :
    StandsClear value (front ++ rest) ((front.flatMap source).length + place) ↔
      StandsClear value rest place := by
  rw [StandsClear, StandsClear, List.flatMap_append, List.drop_length_add_append]
  apply and_congr_right
  intro _
  constructor
  · intro hclear other hother
    have hapart := hclear ⟨other.value, (front.flatMap source).length + other.place⟩
      (standsAt_append_iff.mpr (Or.inr ⟨_, rfl, hother⟩))
    unfold Occurrence.Apart Occurrence.stop at hapart ⊢
    simp only at hapart ⊢
    omega
  · intro hclear other hother
    rcases standsAt_append_iff.mp hother with hfront | ⟨later, hplace, hlater⟩
    · have hend : other.stop ≤ (front.flatMap source).length := hfront.end_le
      exact Or.inr (Nat.le_trans hend (Nat.le_add_right _ _))
    · have hapart := hclear ⟨other.value, later⟩ hlater
      unfold Occurrence.Apart Occurrence.stop at hapart ⊢
      simp only at hapart ⊢
      omega

/-- A value that is not shown at the front does not stand there clear of all that was masked. -/
theorem StandsClear.length_le (hclear : StandsClear value (piece :: rest) place)
    (hvalue : value ≠ "")
    (hsolid : ∀ other place, StandsAt (piece :: rest) (.masked other) place → other ≠ "")
    (habsent : ¬ value.toList <+: (piece :: rest).flatMap shown) :
    piece.source.length ≤ place := by
  have hpos : ∀ value : String, value ≠ "" → 0 < value.toList.length := fun value hne =>
    List.length_pos_iff.mpr fun hnil => hne (String.toList_eq_nil_iff.mp hnil)
  obtain ⟨hstarts, hapart⟩ := hclear
  cases piece with
  | masked other =>
      have hother := hapart ⟨other, 0⟩ .here
      have hlength := hpos value hvalue
      unfold Occurrence.Apart Occurrence.stop at hother
      unfold source
      simp only at hother ⊢
      omega
  | kept c =>
      apply Nat.pos_of_ne_zero
      rintro rfl
      obtain ⟨more, hpieces⟩ := exists_kept_of_prefix_source hstarts fun other start hother => by
        have hlength := hpos other (hsolid other start hother)
        have hbehind := hapart ⟨other, start⟩ hother
        unfold Occurrence.Apart Occurrence.stop at hbehind
        simp only at hbehind
        omega
      apply habsent
      rw [hpieces, List.flatMap_append, flatMap_shown_kept]
      exact List.prefix_append _ _

/-- What is masked behind some pieces does not depend on them. -/
theorem maskedAfter_append_iff :
    MaskedAfter value (front ++ rest) own place ↔
      (StandsAt front (.masked own) place ∨ own = value ∧
        place < (front.flatMap source).length ∧ StandsClear value (front ++ rest) place) ∨
      ∃ later, place = (front.flatMap source).length + later ∧
        MaskedAfter value rest own later := by
  unfold MaskedAfter
  rw [standsAt_append_iff]
  constructor
  · rintro ((hfront | ⟨later, rfl, hlater⟩) | ⟨rfl, hclear⟩)
    · exact Or.inl (Or.inl hfront)
    · exact Or.inr ⟨later, rfl, Or.inl hlater⟩
    · rcases Nat.lt_or_ge place (front.flatMap source).length with hlt | hge
      · exact Or.inl (Or.inr ⟨rfl, hlt, hclear⟩)
      · obtain ⟨later, rfl⟩ := Nat.exists_eq_add_of_le hge
        exact Or.inr ⟨later, rfl, Or.inr ⟨rfl, standsClear_append_iff.mp hclear⟩⟩
  · rintro ((hfront | ⟨rfl, _, hclear⟩) | ⟨later, rfl, hlater | ⟨rfl, hlater⟩⟩)
    · exact Or.inl (Or.inl hfront)
    · exact Or.inr ⟨rfl, hclear⟩
    · exact Or.inl (Or.inr ⟨later, rfl, hlater⟩)
    · exact Or.inr ⟨rfl, standsClear_append_iff.mpr hlater⟩

/-- A value in kept characters stands clear at their start, and not again before their end. -/
theorem standsClear_kept_iff (hvalue : value ≠ "")
    (hapart : StandsApart value ((value.toList.map kept ++ rest).flatMap source)) :
    place < value.toList.length ∧ StandsClear value (value.toList.map kept ++ rest) place ↔
      place = 0 := by
  have hfront : value.toList <+: ((value.toList.map kept ++ rest).flatMap source).drop 0 := by
    rw [List.flatMap_append, flatMap_source_kept]
    exact List.prefix_append _ _
  constructor
  · rintro ⟨hlt, hstarts, _⟩
    rcases Nat.eq_zero_or_pos place with hzero | hpos
    · exact hzero
    · have hle := hapart 0 place hfront hstarts hpos
      omega
  · rintro rfl
    refine ⟨?_, hfront, ?_⟩
    · exact List.length_pos_iff.mpr fun hnil => hvalue (String.toList_eq_nil_iff.mp hnil)
    · intro other hother
      rw [standsAt_append_iff, or_iff_right not_standsAt_kept, flatMap_source_kept] at hother
      obtain ⟨later, hplace, _⟩ := hother
      unfold Occurrence.Apart Occurrence.stop
      simp only
      omega

/-- The masked pieces after one more value was masked, whose places are apart from each other: those
of before, and one wherever the value stands clear of them. -/
theorem Masks.standsAt_iff (hmasks : Masks value pieces next) (hvalue : value ≠ "")
    (hapart : StandsApart value (pieces.flatMap source))
    (hsolid : ∀ other place, StandsAt pieces (.masked other) place → other ≠ "") :
    StandsAt next (.masked own) place ↔ MaskedAfter value pieces own place := by
  induction hmasks generalizing place with
  | nil =>
      refine iff_of_false not_standsAt_nil ?_
      rintro (hstands | ⟨_, hstarts, _⟩)
      · exact not_standsAt_nil hstands
      · rw [List.flatMap_nil, List.drop_nil, List.prefix_nil] at hstarts
        exact hvalue (String.toList_eq_nil_iff.mp hstarts)
  | @found rest next _ ih =>
      have hrest : ∀ later, StandsAt next (.masked own) later ↔ MaskedAfter value rest own later := by
        intro later
        rw [List.flatMap_append] at hapart
        apply ih hapart.of_append
        intro other place hstands
        exact hsolid other _ (standsAt_append_iff.mpr (Or.inr ⟨place, rfl, hstands⟩))
      rw [standsAt_cons_iff, maskedAfter_append_iff, or_iff_right not_standsAt_kept,
        flatMap_source_kept, standsClear_kept_iff hvalue hapart]
      simp only [hrest, source, masked.injEq, eq_comm]
  | @passed piece rest next habsent _ ih =>
      have hrest : ∀ later, StandsAt next (.masked own) later ↔ MaskedAfter value rest own later := by
        intro later
        rw [List.flatMap_cons] at hapart
        apply ih hapart.of_append
        intro other place hstands
        exact hsolid other _ (.later hstands)
      have hnone : ¬ (own = value ∧ place < piece.source.length ∧
          StandsClear value ([piece] ++ rest) place) := by
        rintro ⟨_, hlt, hclear⟩
        exact absurd (hclear.length_le hvalue hsolid habsent) (Nat.not_le.mpr hlt)
      have hpiece : StandsAt [piece] (.masked own) place ↔ piece = .masked own ∧ place = 0 := by
        rw [standsAt_cons_iff, or_iff_left]
        rintro ⟨_, _, hstands⟩
        exact not_standsAt_nil hstands
      rw [standsAt_cons_iff, ← List.singleton_append, maskedAfter_append_iff, hpiece,
        List.flatMap_singleton, or_iff_left hnone]
      simp only [hrest]

theorem standsApart_of_nested (hnested : Nested values s) (hmem : value ∈ values) :
    StandsApart value s := by
  intro i j hi hj hlt
  rcases hnested ⟨value, i⟩ ⟨value, j⟩ ⟨hmem, hi⟩ ⟨hmem, hj⟩ with hapart | hwithin | hwithin
  · unfold Occurrence.Apart Occurrence.stop at hapart
    simp only at hapart
    omega
  · exact absurd hwithin.1 (Nat.not_le.mpr hlt)
  · have hstop := hwithin.2
    unfold Occurrence.stop at hstop
    simp only at hstop
    omega

/-- Masking one more value, which is not longer than the others, masks its maximal occurrences. -/
theorem MasksMaximal.step (hmaximal : MasksMaximal values s pieces) (hmasks : Masks value pieces next)
    (hnested : Nested (values ++ [value]) s) (hsome : ∀ own ∈ values ++ [value], own ≠ "")
    (hnew : value ∉ values) (hshorter : ∀ own ∈ values, value.toList.length ≤ own.toList.length) :
    MasksMaximal (values ++ [value]) s next := by
  have hapart : StandsApart value (pieces.flatMap source) := by
    rw [hmaximal.source_eq]
    exact standsApart_of_nested hnested (by simp)
  have hsolid : ∀ other place, StandsAt pieces (.masked other) place → other ≠ "" := by
    intro other place hstands
    have hin := ((hmaximal.standsAt_iff ⟨other, place⟩).mp hstands).1
    exact hsome other (List.mem_append_left _ hin.1)
  refine ⟨hmasks.source_eq.trans hmaximal.source_eq, ?_⟩
  intro occurrence
  rw [hmasks.standsAt_iff (hsome value (by simp)) hapart hsolid,
    Occurrence.isMaximal_append_iff hnested hsome hnew hshorter, MaskedAfter, StandsClear,
    hmaximal.source_eq]
  simp only [hmaximal.standsAt_iff]
  apply or_congr_right
  apply and_congr_right
  rintro rfl
  exact Iff.rfl

end Step

/-! ## All values -/

/-- Some values stand in the order in which they are masked: each comes once, and none comes after a
shorter one. -/
def IsOrdered (values : List String) : Prop :=
  values.Pairwise fun first second => first ≠ second ∧ second.length ≤ first.length

section Order

variable {value : String} {values : List String} {redactor : Redactor}

theorem isOrdered_insertByLength (hvalues : IsOrdered values) (hnew : value ∉ values) :
    IsOrdered (insertByLength value values) := by
  induction values with
  | nil => exact List.pairwise_singleton _ value
  | cons other rest ih =>
      obtain ⟨hother, hrest⟩ := List.pairwise_cons.mp hvalues
      rw [List.mem_cons, not_or] at hnew
      unfold insertByLength
      by_cases hlonger : other.length < value.length
      · rw [if_pos hlonger]
        refine List.pairwise_cons.mpr ⟨?_, hvalues⟩
        intro own hown
        rcases List.mem_cons.mp hown with rfl | hmem
        · exact ⟨hnew.1, Nat.le_of_lt hlonger⟩
        · refine ⟨fun heq => hnew.2 (heq ▸ hmem), ?_⟩
          exact Nat.le_trans (hother own hmem).2 (Nat.le_of_lt hlonger)
      · rw [if_neg hlonger]
        refine List.pairwise_cons.mpr ⟨?_, ih hrest hnew.2⟩
        intro own hown
        rcases mem_insertByLength_iff.mp hown with rfl | hmem
        · exact ⟨fun heq => hnew.1 heq.symm, Nat.not_lt.mp hlonger⟩
        · exact hother own hmem

theorem isOrdered_add (hordered : IsOrdered redactor.values) :
    IsOrdered (redactor.add value).values := by
  unfold add
  split
  · exact hordered
  · next hnew =>
      rw [Bool.or_eq_true, not_or, List.contains_iff_mem] at hnew
      exact isOrdered_insertByLength hordered hnew.2

theorem isOrdered_addAll (hordered : IsOrdered redactor.values) :
    IsOrdered (redactor.addAll values).values := by
  induction values generalizing redactor with
  | nil => exact hordered
  | cons first rest ih => exact ih (isOrdered_add hordered)

theorem isOrdered_ofList (values : List String) : IsOrdered (ofList values).values :=
  isOrdered_addAll List.Pairwise.nil

end Order

section Run

open Piece

variable {values done rest : List String} {pieces : List Piece} {s : List Char}

theorem masksMaximal_nil (s : List Char) : MasksMaximal [] s (s.map kept) where
  source_eq := flatMap_source_kept s
  standsAt_iff _ := iff_of_false not_standsAt_kept fun hmaximal => List.not_mem_nil hmaximal.1.1

/-- Masking the values one after the other, from some that are masked already. -/
theorem MasksMaximal.foldl (hmaximal : MasksMaximal done s pieces)
    (hordered : IsOrdered (done ++ rest)) (hnested : Nested (done ++ rest) s)
    (hvalues : ∀ value ∈ done ++ rest, value ≠ "" ∧ '*' ∉ value.toList) :
    ∃ final, MasksMaximal (done ++ rest) s final ∧
      rest.foldl maskValue (pieces.flatMap shown) = final.flatMap shown := by
  induction rest generalizing done pieces with
  | nil =>
      rw [List.append_nil]
      exact ⟨pieces, hmaximal, rfl⟩
  | cons value rest ih =>
      rw [List.append_cons] at hordered hnested hvalues ⊢
      have hfirst : ∀ own ∈ done ++ [value], own ≠ "" ∧ '*' ∉ own.toList := fun own hown =>
        hvalues own (List.mem_append_left rest hown)
      obtain ⟨hvalue, hmask⟩ := hfirst value (by simp)
      have hbefore : ∀ own ∈ done, own ≠ value ∧ value.length ≤ own.length := by
        intro own hown
        have hpair := (List.pairwise_append.mp hordered).1
        exact (List.pairwise_append.mp hpair).2.2 own hown value List.mem_cons_self
      have hsome : Nested (done ++ [value]) s := fun first second hin hother =>
        hnested first second ⟨List.mem_append_left rest hin.1, hin.2⟩
          ⟨List.mem_append_left rest hother.1, hother.2⟩
      obtain ⟨next, hmasks⟩ := exists_masks hvalue hmask pieces
      have hnext : MasksMaximal (done ++ [value]) s next :=
        hmaximal.step hmasks hsome (fun own hown => (hfirst own hown).1)
          (fun hmem => (hbefore value hmem).1 rfl) fun own hown => by
            rw [String.length_toList, String.length_toList]
            exact (hbefore own hown).2
      obtain ⟨final, hfinal, hshown⟩ := ih hnext hordered hnested hvalues
      refine ⟨final, hfinal, ?_⟩
      rw [List.foldl_cons, ← hmasks.shown_eq hvalue hmask]
      exact hshown

theorem MasksMaximal.unique {others : List Piece} (hmaximal : MasksMaximal values s pieces)
    (hothers : MasksMaximal values s others) (hvalues : ∀ value ∈ values, value ≠ "") :
    pieces = others := by
  apply eq_of_standsAt_iff
  · rw [hmaximal.source_eq, hothers.source_eq]
  · intro value place
    rw [hmaximal.standsAt_iff ⟨value, place⟩, hothers.standsAt_iff ⟨value, place⟩]
  · intro value place hstands
    exact hvalues value ((hmaximal.standsAt_iff ⟨value, place⟩).mp hstands).1.1

/-- No character of an occurrence is kept, be it a maximal one or not. -/
theorem MasksMaximal.not_kept (hmaximal : MasksMaximal values s pieces)
    (hvalues : ∀ value ∈ values, value ≠ "") {occurrence : Occurrence}
    (hin : occurrence.IsIn values s) {c : Char} {place : Nat}
    (hkept : StandsAt pieces (.kept c) place) :
    ¬ (occurrence.place ≤ place ∧ place < occurrence.stop) := by
  obtain ⟨outer, houter, hwithin⟩ := hin.exists_maximal hvalues
  have hmasked := (hmaximal.standsAt_iff outer).mpr houter
  rintro ⟨hle, hlt⟩
  obtain ⟨hplace, hstop⟩ := hwithin
  rcases hkept.apart hmasked with heq | hbefore | hbehind
  · cases heq
  · simp only [source, List.length_cons, List.length_nil] at hbefore
    omega
  · change outer.stop ≤ place at hbehind
    omega

end Run

/-- Where any two occurrences of the values in a text are apart or nested, exactly the maximal
occurrences are masked: the text is cut into pieces, in one way only, so that each of these is a piece
of its own and every other piece is a character, and shown is one mask for each of the first and the
character for each of the others. In which order the values were added, and how often, makes no
difference, and no character of a value that stands inside another one is kept. -/
theorem redact_masks_maximal {values : List String}
    (hvalues : ∀ value ∈ values, value ≠ "" ∧ '*' ∉ value.toList) {text : String}
    (hnested : Nested values text.toList) :
    ∃ pieces, MasksMaximal values text.toList pieces ∧
      (∀ others, MasksMaximal values text.toList others → others = pieces) ∧
      (∀ order : List String, (∀ value, value ∈ order ↔ value ∈ values) →
        ((ofList order).redact text).toList = pieces.flatMap Piece.shown) ∧
      ∀ occurrence : Occurrence, occurrence.IsIn values text.toList →
        ∀ c place, Piece.StandsAt pieces (.kept c) place →
          ¬ (occurrence.place ≤ place ∧ place < occurrence.stop) := by
  have hsome : ∀ value ∈ values, value ≠ "" := fun value hvalue => (hvalues value hvalue).1
  have hmasked : ∀ order : List String, (∀ value, value ∈ order ↔ value ∈ values) →
      ∃ pieces, MasksMaximal values text.toList pieces ∧
        ((ofList order).redact text).toList = pieces.flatMap Piece.shown := by
    intro order horder
    have hsame : ∀ value, value ∈ (ofList order).values ↔ value ∈ values := by
      intro value
      rw [mem_ofList_iff, horder]
      exact and_iff_left_of_imp (hsome value)
    have hordered : IsOrdered ([] ++ (ofList order).values) := isOrdered_ofList order
    have hown : Nested ([] ++ (ofList order).values) text.toList := fun first second hin hother =>
      hnested first second ⟨(hsame _).mp hin.1, hin.2⟩ ⟨(hsame _).mp hother.1, hother.2⟩
    obtain ⟨pieces, hpieces, hshown⟩ := (masksMaximal_nil text.toList).foldl hordered hown
      fun value hvalue => hvalues value ((hsame value).mp hvalue)
    refine ⟨pieces, ⟨hpieces.source_eq, ?_⟩, ?_⟩
    · intro occurrence
      rw [hpieces.standsAt_iff]
      exact Occurrence.isMaximal_congr hsame
    · rw [Piece.flatMap_shown_kept] at hshown
      rw [redact, String.toList_ofList, hshown]
  obtain ⟨pieces, hpieces, _⟩ := hmasked values fun _ => Iff.rfl
  refine ⟨pieces, hpieces, fun others hothers => hothers.unique hpieces hsome, ?_,
    fun occurrence hin c place hkept => hpieces.not_kept hsome hin hkept⟩
  intro order horder
  obtain ⟨own, hown, hshown⟩ := hmasked order horder
  rw [hshown, hown.unique hpieces hsome]

/-- One value inside another, and two occurrences side by side before a character of the mask. -/
theorem redact_masks_maximal_side_by_side :
    ∃ pieces, MasksMaximal ["key", "monkey"] "a monkey, keykey*".toList pieces ∧
      pieces.flatMap Piece.shown = "a ***, *******".toList ∧
      ((ofList ["monkey", "key", "monkey"]).redact "a monkey, keykey*").toList =
        pieces.flatMap Piece.shown := by
  have hnested : Nested ["key", "monkey"] "a monkey, keykey*".toList :=
    Occurrence.nested_of_forall_lt (by decide) (by decide +kernel)
  have hvalues : ∀ value ∈ ["key", "monkey"], value ≠ "" ∧ '*' ∉ value.toList := by decide
  obtain ⟨pieces, hpieces, _, hshown, _⟩ := redact_masks_maximal hvalues hnested
  refine ⟨pieces, hpieces, ?_, hshown _ (by simp [or_comm])⟩
  rw [← hshown ["key", "monkey"] fun _ => Iff.rfl]
  decide +kernel

end CiPipeline.Redactor
