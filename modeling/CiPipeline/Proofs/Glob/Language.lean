import CiPipeline.Glob.Match
import CiPipeline.Proofs.Glob.Grammar
import Mathlib.Data.List.Forall2

/-!
The language of a glob: a name is cut into pieces, one for each item in order, and each piece is one
that its item stands for. Matching moves all places at which a cut may fall forward together, so it
never goes back, and still finds a cut wherever there is one. Main statement: an accepted pattern spells
one glob, and a name matches it exactly if it can be cut in this way.
-/

namespace CiPipeline.Glob

/-- The characters that an atom admits: the one it names, or those within one of its ranges. -/
def Atom.Admits : Atom → Char → Prop
  | char c, d => d = c
  | oneOf ranges, d => ∃ range ∈ ranges, range.1 ≤ d ∧ d ≤ range.2

/-- The pieces of a name that an item stands for. -/
def Item.StandsFor : Item → List Char → Prop
  | star, piece => '/' ∉ piece
  | doubleStar, piece => '\n' ∉ piece
  | atom a .once, piece => ∃ c, a.Admits c ∧ piece = [c]
  | atom a .optional, piece => piece = [] ∨ ∃ c, a.Admits c ∧ piece = [c]
  | atom a .many, piece => piece ≠ [] ∧ ∀ c ∈ piece, a.Admits c

/-- The names of a glob are those that can be cut into pieces for its items. -/
def Denotes (glob : Glob) (name : List Char) : Prop :=
  ∃ pieces, List.Forall₂ Item.StandsFor glob pieces ∧ name = pieces.flatten

theorem admits_eq_true_iff {a : Atom} {c : Char} : a.admits c = true ↔ a.Admits c := by
  cases a <;> simp [Atom.admits, Atom.Admits]

namespace Reach

/-- A cut of the name at a position of the set: what is before it, and what is behind. -/
inductive Marked : Reach → List Char → List Char → Prop
  | here {trail : List (Char × Bool)} : Marked ⟨true, trail⟩ [] (trail.map Prod.fst)
  | later {start here : Bool} {c : Char} {trail : List (Char × Bool)} {front back : List Char}
      (hrest : Marked ⟨here, trail⟩ front back) : Marked ⟨start, (c, here) :: trail⟩ (c :: front) back

variable {start here : Bool} {trail : List (Char × Bool)} {front back : List Char}

theorem marked_nil_iff : Marked ⟨start, []⟩ front back ↔ start = true ∧ front = [] ∧ back = [] := by
  constructor
  · intro hmarked
    cases hmarked
    exact ⟨rfl, rfl, rfl⟩
  · rintro ⟨rfl, rfl, rfl⟩
    exact .here

theorem marked_cons_iff {c : Char} :
    Marked ⟨start, (c, here) :: trail⟩ front back ↔
      (start = true ∧ front = [] ∧ back = c :: trail.map Prod.fst) ∨
        ∃ rest, front = c :: rest ∧ Marked ⟨here, trail⟩ rest back := by
  constructor
  · intro hmarked
    cases hmarked with
    | here => exact Or.inl ⟨rfl, rfl, rfl⟩
    | later hrest => exact Or.inr ⟨_, rfl, hrest⟩
  · rintro (⟨rfl, rfl, rfl⟩ | ⟨rest, rfl, hrest⟩)
    · exact .here
    · exact .later hrest

/-- Another reason to mark the start adds the cut there and no other one. -/
theorem marked_or_iff {other : Bool} :
    Marked ⟨start || other, trail⟩ front back ↔
      Marked ⟨start, trail⟩ front back ∨
        other = true ∧ front = [] ∧ back = trail.map Prod.fst := by
  cases trail with
  | nil =>
      rw [marked_nil_iff, marked_nil_iff, Bool.or_eq_true, or_and_right]
      rfl
  | cons entry rest =>
      rw [marked_cons_iff, marked_cons_iff, Bool.or_eq_true, or_and_right, or_right_comm]
      rfl

theorem marked_unmarked_iff {name : List Char} :
    Marked ⟨start, name.map (·, false)⟩ front back ↔ start = true ∧ front = [] ∧ back = name := by
  induction name generalizing start front with
  | nil => exact marked_nil_iff
  | cons c rest ih =>
      rw [List.map_cons, marked_cons_iff, List.map_map]
      simp [ih, Function.comp_def]

theorem marked_atStart_iff {name : List Char} :
    Marked (atStart name) front back ↔ front = [] ∧ back = name := by
  rw [atStart, marked_unmarked_iff]
  exact and_iff_right rfl

/-! ## One item -/

theorem map_fst_stepTrail (admits : Char → Bool) :
    (stepTrail admits start trail).map Prod.fst = trail.map Prod.fst := by
  induction trail generalizing start with
  | nil => rfl
  | cons entry rest ih => rw [stepTrail, List.map_cons, ih, List.map_cons]

theorem map_fst_spreadTrail (admits : Char → Bool) :
    (spreadTrail admits start trail).map Prod.fst = trail.map Prod.fst := by
  induction trail generalizing start with
  | nil => rfl
  | cons entry rest ih => rw [spreadTrail, List.map_cons, ih, List.map_cons]

theorem marked_stepTrail_iff {admits : Char → Bool} :
    Marked ⟨here, stepTrail admits start trail⟩ front back ↔
      here = true ∧ front = [] ∧ back = trail.map Prod.fst ∨
        ∃ before c, front = before ++ [c] ∧ admits c = true ∧
          Marked ⟨start, trail⟩ before (c :: back) := by
  induction trail generalizing here start front with
  | nil => simp [stepTrail, marked_nil_iff]
  | cons entry rest ih =>
      obtain ⟨c, next⟩ := entry
      rw [stepTrail, marked_cons_iff, map_fst_stepTrail]
      refine or_congr Iff.rfl ?_
      constructor
      · rintro ⟨after, rfl, hafter⟩
        rcases ih.mp hafter with ⟨hhere, rfl, rfl⟩ | ⟨before, d, rfl, hadmits, hmarked⟩
        · rw [Bool.and_eq_true] at hhere
          obtain ⟨rfl, hadmits⟩ := hhere
          exact ⟨[], c, rfl, hadmits, .here⟩
        · exact ⟨c :: before, d, rfl, hadmits, .later hmarked⟩
      · rintro ⟨before, d, rfl, hadmits, hmarked⟩
        rcases marked_cons_iff.mp hmarked with ⟨rfl, rfl, heq⟩ | ⟨more, rfl, hmore⟩
        · cases heq
          exact ⟨[], rfl, ih.mpr (Or.inl ⟨by simpa using hadmits, rfl, rfl⟩)⟩
        · exact ⟨more ++ [d], rfl, ih.mpr (Or.inr ⟨more, d, rfl, hadmits, hmore⟩)⟩

theorem marked_step_iff {admits : Char → Bool} {reach : Reach} :
    Marked (reach.step admits) front back ↔
      ∃ before c, front = before ++ [c] ∧ admits c = true ∧ Marked reach before (c :: back) := by
  rw [step, marked_stepTrail_iff, or_iff_right]
  rintro ⟨hfalse, _⟩
  cases hfalse

theorem marked_spread_iff {admits : Char → Bool} {reach : Reach} :
    Marked (reach.spread admits) front back ↔
      ∃ before piece, front = before ++ piece ∧ (∀ c ∈ piece, admits c = true) ∧
        Marked reach before (piece ++ back) := by
  obtain ⟨start, trail⟩ := reach
  rw [spread]
  induction trail generalizing start front with
  | nil =>
      rw [spreadTrail, marked_nil_iff]
      constructor
      · rintro ⟨rfl, rfl, rfl⟩
        exact ⟨[], [], rfl, by simp, .here⟩
      · rintro ⟨before, piece, rfl, _, hmarked⟩
        obtain ⟨hstart, rfl, hback⟩ := marked_nil_iff.mp hmarked
        obtain ⟨rfl, rfl⟩ := List.append_eq_nil_iff.mp hback
        exact ⟨hstart, rfl, rfl⟩
  | cons entry rest ih =>
      obtain ⟨c, next⟩ := entry
      rw [spreadTrail, marked_cons_iff, map_fst_spreadTrail]
      constructor
      · rintro (⟨rfl, rfl, rfl⟩ | ⟨after, rfl, hafter⟩)
        · exact ⟨[], [], rfl, by simp, .here⟩
        · obtain ⟨before, piece, rfl, hpiece, hmarked⟩ := (ih _).mp hafter
          -- the place after `c` is in the set already, or it is reached by passing over `c`
          rcases marked_or_iff.mp hmarked with hmarked | ⟨hreached, rfl, hrest⟩
          · exact ⟨c :: before, piece, rfl, hpiece, .later hmarked⟩
          · rw [Bool.and_eq_true] at hreached
            obtain ⟨rfl, hadmits⟩ := hreached
            refine ⟨[], c :: piece, rfl, List.forall_mem_cons.mpr ⟨hadmits, hpiece⟩, ?_⟩
            rw [List.cons_append, hrest]
            exact .here
      · rintro ⟨before, piece, rfl, hpiece, hmarked⟩
        rcases marked_cons_iff.mp hmarked with ⟨rfl, rfl, heq⟩ | ⟨more, rfl, hmore⟩
        · cases piece with
          | nil => exact Or.inl ⟨rfl, rfl, heq⟩
          | cons d piece =>
              rw [List.cons_append, List.cons.injEq] at heq
              obtain ⟨rfl, hrest⟩ := heq
              obtain ⟨hadmits, hpiece⟩ := List.forall_mem_cons.mp hpiece
              refine Or.inr ⟨piece, rfl, (ih _).mpr ⟨[], piece, rfl, hpiece, ?_⟩⟩
              exact marked_or_iff.mpr (Or.inr ⟨by simpa using hadmits, rfl, hrest⟩)
        · refine Or.inr ⟨more ++ piece, rfl, (ih _).mpr ⟨more, piece, rfl, hpiece, ?_⟩⟩
          exact marked_or_iff.mpr (Or.inl hmore)

theorem map_fst_union {a b : Reach} (hname : a.trail.map Prod.fst = b.trail.map Prod.fst) :
    (a.union b).trail.map Prod.fst = a.trail.map Prod.fst := by
  obtain ⟨left, trail⟩ := a
  obtain ⟨right, other⟩ := b
  rw [union]
  induction trail generalizing other with
  | nil => rfl
  | cons entry rest ih =>
      cases other with
      | nil => cases hname
      | cons second more =>
          simp only [List.map_cons, List.cons.injEq] at hname
          rw [List.zipWith_cons_cons, List.map_cons, List.map_cons, ih more hname.2]

theorem marked_union_iff {a b : Reach} (hname : a.trail.map Prod.fst = b.trail.map Prod.fst) :
    Marked (a.union b) front back ↔ Marked a front back ∨ Marked b front back := by
  obtain ⟨left, trail⟩ := a
  obtain ⟨right, other⟩ := b
  induction trail generalizing other left right front with
  | nil =>
      have hother : other = [] := List.map_eq_nil_iff.mp hname.symm
      subst hother
      simp only [union, List.zipWith_nil_left, marked_nil_iff, Bool.or_eq_true, or_and_right]
  | cons entry rest ih =>
      obtain ⟨c, here⟩ := entry
      cases other with
      | nil => cases hname
      | cons second more =>
          obtain ⟨d, there⟩ := second
          simp only [List.map_cons, List.cons.injEq] at hname
          obtain ⟨rfl, hrest⟩ := hname
          have hunion : ∀ {front : List Char}, Marked (union ⟨here, rest⟩ ⟨there, more⟩) front back ↔
              Marked ⟨here, rest⟩ front back ∨ Marked ⟨there, more⟩ front back :=
            ih here there more hrest
          have hzip := map_fst_union (a := ⟨here, rest⟩) (b := ⟨there, more⟩) hrest
          simp only [union] at hunion hzip ⊢
          rw [List.zipWith_cons_cons, marked_cons_iff, marked_cons_iff, marked_cons_iff, hzip,
            ← hrest, Bool.or_eq_true]
          constructor
          · rintro (⟨hleft | hright, hcut⟩ | ⟨after, rfl, hafter⟩)
            · exact Or.inl (Or.inl ⟨hleft, hcut⟩)
            · exact Or.inr (Or.inl ⟨hright, hcut⟩)
            · rcases hunion.mp hafter with hafter | hafter
              · exact Or.inl (Or.inr ⟨after, rfl, hafter⟩)
              · exact Or.inr (Or.inr ⟨after, rfl, hafter⟩)
          · rintro ((⟨hleft, hcut⟩ | ⟨after, rfl, hafter⟩) | ⟨hright, hcut⟩ | ⟨after, rfl, hafter⟩)
            · exact Or.inl ⟨Or.inl hleft, hcut⟩
            · exact Or.inr ⟨after, rfl, hunion.mpr (Or.inl hafter)⟩
            · exact Or.inl ⟨Or.inr hright, hcut⟩
            · exact Or.inr ⟨after, rfl, hunion.mpr (Or.inr hafter)⟩

end Reach

/-- One item moves every cut forward over each piece that the item stands for. -/
theorem Item.marked_advance_iff {item : Item} {reach : Reach} {front back : List Char} :
    (item.advance reach).Marked front back ↔
      ∃ before piece, front = before ++ piece ∧ item.StandsFor piece ∧
        reach.Marked before (piece ++ back) := by
  cases item with
  | star => simp [advance, StandsFor, Reach.marked_spread_iff, List.forall_mem_ne']
  | doubleStar => simp [advance, StandsFor, Reach.marked_spread_iff, List.forall_mem_ne']
  | atom a times =>
      cases times with
      | once =>
          rw [advance, Reach.marked_step_iff]
          constructor
          · rintro ⟨before, c, rfl, hadmits, hmarked⟩
            exact ⟨before, [c], rfl, ⟨c, admits_eq_true_iff.mp hadmits, rfl⟩, hmarked⟩
          · rintro ⟨before, _, rfl, ⟨c, hadmits, rfl⟩, hmarked⟩
            exact ⟨before, c, rfl, admits_eq_true_iff.mpr hadmits, hmarked⟩
      | optional =>
          rw [advance, Reach.marked_union_iff (Reach.map_fst_stepTrail _).symm,
            Reach.marked_step_iff]
          constructor
          · rintro (hmarked | ⟨before, c, rfl, hadmits, hmarked⟩)
            · exact ⟨front, [], by simp, Or.inl rfl, hmarked⟩
            · exact ⟨before, [c], rfl, Or.inr ⟨c, admits_eq_true_iff.mp hadmits, rfl⟩, hmarked⟩
          · rintro ⟨before, _, rfl, rfl | ⟨c, hadmits, rfl⟩, hmarked⟩
            · exact Or.inl (by simpa using hmarked)
            · exact Or.inr ⟨before, c, rfl, admits_eq_true_iff.mpr hadmits, hmarked⟩
      | many =>
          rw [advance, Reach.marked_spread_iff]
          constructor
          · rintro ⟨_, piece, rfl, hpiece, hmarked⟩
            obtain ⟨before, c, rfl, hadmits, hmarked⟩ := Reach.marked_step_iff.mp hmarked
            refine ⟨before, c :: piece, by simp, ⟨by simp, ?_⟩, hmarked⟩
            intro d hd
            rcases List.mem_cons.mp hd with rfl | hd
            · exact admits_eq_true_iff.mp hadmits
            · exact admits_eq_true_iff.mp (hpiece d hd)
          · rintro ⟨before, piece, rfl, ⟨hne, hpiece⟩, hmarked⟩
            obtain ⟨c, more, rfl⟩ := List.exists_cons_of_ne_nil hne
            obtain ⟨hadmits, hmore⟩ := List.forall_mem_cons.mp hpiece
            refine ⟨before ++ [c], more, by simp, ?_, ?_⟩
            · exact fun d hd => admits_eq_true_iff.mpr (hmore d hd)
            · exact Reach.marked_step_iff.mpr
                ⟨before, c, rfl, admits_eq_true_iff.mpr hadmits, hmarked⟩

/-! ## All items -/

theorem denotes_nil_iff {passed : List Char} : Denotes [] passed ↔ passed = [] := by
  simp [Denotes]

theorem denotes_cons_iff {item : Item} {rest : Glob} {passed : List Char} :
    Denotes (item :: rest) passed ↔
      ∃ piece more, item.StandsFor piece ∧ Denotes rest more ∧ passed = piece ++ more := by
  simp only [Denotes, List.forall₂_cons_left_iff]
  constructor
  · rintro ⟨_, ⟨piece, pieces, hpiece, hpieces, rfl⟩, rfl⟩
    exact ⟨piece, pieces.flatten, hpiece, ⟨pieces, hpieces, rfl⟩, rfl⟩
  · rintro ⟨piece, _, hpiece, ⟨pieces, hpieces, rfl⟩, rfl⟩
    exact ⟨piece :: pieces, ⟨piece, pieces, hpiece, hpieces, rfl⟩, rfl⟩

/-- All items together move every cut forward over what the glob denotes. -/
theorem marked_foldl_advance_iff {glob : Glob} {reach : Reach} {front back : List Char} :
    (glob.foldl (fun reach item => item.advance reach) reach).Marked front back ↔
      ∃ before passed, front = before ++ passed ∧ Denotes glob passed ∧
        reach.Marked before (passed ++ back) := by
  induction glob generalizing reach with
  | nil => simp [denotes_nil_iff]
  | cons item rest ih =>
      rw [List.foldl_cons, ih]
      constructor
      · rintro ⟨_, more, rfl, hmore, hmarked⟩
        obtain ⟨before, piece, rfl, hpiece, hmarked⟩ := Item.marked_advance_iff.mp hmarked
        refine ⟨before, piece ++ more, by simp, ?_, by simpa using hmarked⟩
        exact denotes_cons_iff.mpr ⟨piece, more, hpiece, hmore, rfl⟩
      · rintro ⟨before, _, rfl, hpassed, hmarked⟩
        obtain ⟨piece, more, hpiece, hmore, rfl⟩ := denotes_cons_iff.mp hpassed
        refine ⟨before ++ piece, more, by simp, hmore, ?_⟩
        exact Item.marked_advance_iff.mpr ⟨before, piece, rfl, hpiece, by simpa using hmarked⟩

theorem Reach.atEnd_eq_true_iff {reach : Reach} :
    reach.atEnd = true ↔ ∃ front, reach.Marked front [] := by
  obtain ⟨start, trail⟩ := reach
  induction trail generalizing start with
  | nil => simp [atEnd, marked_nil_iff]
  | cons entry rest ih =>
      obtain ⟨c, here⟩ := entry
      have hend : atEnd ⟨start, (c, here) :: rest⟩ = atEnd ⟨here, rest⟩ := by
        cases hlast : rest.getLast? <;> simp [atEnd, List.getLast?_cons, hlast]
      rw [hend, ih]
      constructor
      · rintro ⟨front, hmarked⟩
        exact ⟨c :: front, .later hmarked⟩
      · rintro ⟨front, hmarked⟩
        obtain ⟨_, _, hback⟩ | ⟨more, rfl, hmore⟩ := marked_cons_iff.mp hmarked
        · cases hback
        · exact ⟨more, hmore⟩

theorem accepts_eq_true_iff {glob : Glob} {name : String} :
    glob.accepts name = true ↔ Denotes glob name.toList := by
  rw [accepts, Reach.atEnd_eq_true_iff]
  constructor
  · rintro ⟨front, hmarked⟩
    obtain ⟨before, passed, _, hpassed, hstart⟩ := marked_foldl_advance_iff.mp hmarked
    obtain ⟨_, hname⟩ := Reach.marked_atStart_iff.mp hstart
    rwa [← hname, List.append_nil]
  · intro hname
    have hstart : (Reach.atStart name.toList).Marked [] (name.toList ++ []) :=
      Reach.marked_atStart_iff.mpr ⟨rfl, List.append_nil _⟩
    exact ⟨name.toList, marked_foldl_advance_iff.mpr ⟨[], name.toList, rfl, hname, hstart⟩⟩

/-- An accepted pattern spells one glob, item by item from left to right, and a name matches the glob
exactly if the name is made of pieces, one for each item in order, that the items stand for. -/
theorem parse_accepts_language {pattern : String} {glob : Glob}
    (hparse : parse pattern = .ok glob) :
    (∀ items, Spells pattern.toList items ↔ items = glob) ∧
      ∀ name : String, glob.accepts name = true ↔
        ∃ pieces, List.Forall₂ Item.StandsFor glob pieces ∧ name.toList = pieces.flatten := by
  obtain ⟨hne, hspells⟩ := parse_eq_ok_iff.mp hparse
  refine ⟨?_, fun name => accepts_eq_true_iff⟩
  intro items
  constructor
  · intro hitems
    have hother : parse pattern = .ok items := parse_eq_ok_iff.mpr ⟨hne, hitems⟩
    exact Except.ok.inj (hother.symm.trans hparse)
  · rintro rfl
    exact hspells

/-- A quantified class that ends in a hyphen, three stars of which the first two are one item, and an
optional character that the name does without. -/
theorem parse_accepts_language_stars :
    ∃ glob, parse "[a-c-]+***x?" = .ok glob ∧
      glob = [.atom (.oneOf [('a', 'c'), ('-', '-')]) .many, .doubleStar, .star,
        .atom (.char 'x') .optional] ∧
      Spells "[a-c-]+***x?".toList glob ∧ glob.accepts "c-b/d\n" = true := by
  have hparse : parse "[a-c-]+***x?" = .ok [.atom (.oneOf [('a', 'c'), ('-', '-')]) .many,
      .doubleStar, .star, .atom (.char 'x') .optional] := by decide
  obtain ⟨hspells, hlanguage⟩ := parse_accepts_language hparse
  refine ⟨_, hparse, rfl, (hspells _).mpr rfl, (hlanguage "c-b/d\n").mpr ?_⟩
  refine ⟨["c-".toList, "b/".toList, "d\n".toList, []], ?_, by decide⟩
  simp [Item.StandsFor, Atom.Admits]

end CiPipeline.Glob
