import CiPipeline.Glob
import CiPipeline.Proofs.Except
import CiPipeline.Proofs.Text.Occurrence

/-!
The grammar of globs, said without reading: `Spells` puts a text together from the spellings of items,
each of them ended where the text does not go on with it. Reading a text gives some items exactly if
the text spells them, so no text spells two different globs.
-/

namespace CiPipeline.Glob

/-- A character that means something else than itself where an item begins. -/
def IsSpecial (c : Char) : Prop :=
  c = '*' ∨ c = '?' ∨ c = '+' ∨ c = '[' ∨ c = '\\'

/--
The body of a class is read from left to right: a hyphen between two characters makes a range of them,
which is not reversed, and any other character stands for itself.
-/
inductive SpellsRanges : List Char → List (Char × Char) → Prop
  | nil : SpellsRanges [] []
  | range {low high : Char} {rest : List Char} {ranges : List (Char × Char)} (hle : low ≤ high)
      (hrest : SpellsRanges rest ranges) :
      SpellsRanges (low :: '-' :: high :: rest) ((low, high) :: ranges)
  | single {c : Char} {rest : List Char} {ranges : List (Char × Char)}
      (hother : ∀ high more, rest ≠ '-' :: high :: more) (hrest : SpellsRanges rest ranges) :
      SpellsRanges (c :: rest) ((c, c) :: ranges)

/-- How an atom is written. A class goes up to the first closing bracket and is not empty. -/
inductive Atom.Written : Atom → List Char → Prop
  | plain {c : Char} (hplain : ¬ IsSpecial c) : Written (.char c) [c]
  | escaped (c : Char) : Written (.char c) ['\\', c]
  | oneOf {body : List Char} {ranges : List (Char × Char)} (hne : body ≠ []) (hbody : ']' ∉ body)
      (hranges : SpellsRanges body ranges) : Written (.oneOf ranges) ('[' :: (body ++ [']']))

/-- The mark of a count. -/
def Repeat.mark : Repeat → List Char
  | once => []
  | optional => ['?']
  | many => ['+']

/-- How an item is written. -/
inductive Item.Written : Item → List Char → Prop
  | star : Written .star ['*']
  | doubleStar : Written .doubleStar ['*', '*']
  | atom {a : Atom} {lexeme : List Char} (hatom : a.Written lexeme) (times : Repeat) :
      Written (.atom a times) (lexeme ++ times.mark)

/-- An item ends before a text: no second star follows a star, and no count an atom without one. -/
def Item.EndsBefore : Item → List Char → Prop
  | star, rest => rest.head? ≠ some '*'
  | atom _ .once, rest => rest.head? ≠ some '?' ∧ rest.head? ≠ some '+'
  | _, _ => True

/-- A text spells some items, from left to right. -/
inductive Spells : List Char → List Item → Prop
  | nil : Spells [] []
  | item {item : Item} {lexeme rest : List Char} {items : List Item}
      (hwritten : item.Written lexeme) (hends : item.EndsBefore rest) (hrest : Spells rest items) :
      Spells (lexeme ++ rest) (item :: items)

/-! ## Classes -/

theorem readRanges_eq_ok_iff {body : List Char} {ranges : List (Char × Char)} :
    readRanges body = .ok ranges ↔ SpellsRanges body ranges := by
  fun_induction readRanges body generalizing ranges with
  | case1 low high rest hreversed =>
      constructor
      · intro hread
        cases hread
      · intro hspells
        cases hspells with
        | range hle _ => exact absurd hreversed (Char.not_lt.mpr hle)
        | single hother _ => exact absurd rfl (hother high rest)
  | case2 low high rest hordered ih =>
      rw [map_eq_ok_iff]
      constructor
      · rintro ⟨more, hmore, rfl⟩
        exact .range (Char.not_lt.mp hordered) (ih.mp hmore)
      · intro hspells
        cases hspells with
        | range _ hrest => exact ⟨_, ih.mpr hrest, rfl⟩
        | single hother _ => exact absurd rfl (hother high rest)
  | case3 c rest hother ih =>
      rw [map_eq_ok_iff]
      constructor
      · rintro ⟨more, hmore, rfl⟩
        exact .single hother (ih.mp hmore)
      · intro hspells
        cases hspells with
        | range _ _ => exact absurd rfl (hother _ _)
        | single _ hrest => exact ⟨_, ih.mpr hrest, rfl⟩
  | case4 =>
      constructor
      · intro hread
        cases hread
        exact .nil
      · intro hspells
        cases hspells
        rfl

theorem readClass_eq_ok_iff {s : List Char} {atom : Atom} {width : Nat} :
    readClass s = .ok (atom, width) ↔
      ∃ body rest ranges, s = body ++ ']' :: rest ∧ ']' ∉ body ∧ body ≠ [] ∧
        SpellsRanges body ranges ∧ atom = .oneOf ranges ∧ width = body.length + 1 := by
  simp only [readClass]
  constructor
  · intro hread
    split at hread
    · cases hread
    · next hlength =>
        split at hread
        · cases hread
        · next hne =>
            obtain ⟨ranges, hranges, heq⟩ := map_eq_ok_iff.mp hread
            cases heq
            obtain ⟨rest, hs⟩ := Text.exists_eq_takeWhile_ne_append hlength
            exact ⟨_, rest, ranges, hs, Text.not_mem_takeWhile_ne, by simpa using hne,
              readRanges_eq_ok_iff.mp hranges, rfl, rfl⟩
  · rintro ⟨body, rest, ranges, rfl, hbody, hne, hranges, rfl, rfl⟩
    have hlength : ¬ body.length = (body ++ ']' :: rest).length := by
      rw [List.length_append, List.length_cons]
      omega
    rw [Text.takeWhile_ne_append hbody, if_neg hlength, if_neg (by simpa using hne),
      readRanges_eq_ok_iff.mpr hranges]
    rfl

/-! ## One item -/

theorem Atom.Written.ne_nil {atom : Atom} {lexeme : List Char} (hwritten : atom.Written lexeme) :
    lexeme ≠ [] := by
  cases hwritten <;> simp

/-- No mark of an item that is no atom stands at the front of an atom. -/
theorem Atom.Written.head_ne {atom : Atom} {lexeme : List Char} (hwritten : atom.Written lexeme)
    {c : Char} (hc : c = '*' ∨ c = '?' ∨ c = '+') : lexeme.head? ≠ some c := by
  cases hwritten with
  | @plain own hplain =>
      intro heq
      have heq : own = c := by simpa using heq
      subst heq
      exact hplain (by rcases hc with h | h | h <;> simp [IsSpecial, h])
  | escaped own => rcases hc with rfl | rfl | rfl <;> simp
  | oneOf _ _ _ => rcases hc with rfl | rfl | rfl <;> simp

theorem readAtom_of_plain {c : Char} (hplain : ¬ IsSpecial c) (s : List Char) :
    readAtom (c :: s) = .ok (.char c, 1) := by
  unfold readAtom
  split <;> simp_all [IsSpecial]

theorem Atom.Written.read {atom : Atom} {lexeme : List Char} (hwritten : atom.Written lexeme)
    (rest : List Char) : readAtom (lexeme ++ rest) = .ok (atom, lexeme.length) := by
  cases hwritten with
  | plain hplain => exact readAtom_of_plain hplain rest
  | escaped c => rfl
  | @oneOf body ranges hne hbody hranges =>
      have hclass : readClass (body ++ ']' :: rest) = .ok (.oneOf ranges, body.length + 1) :=
        readClass_eq_ok_iff.mpr ⟨body, rest, ranges, rfl, hbody, hne, hranges, rfl, rfl⟩
      rw [List.cons_append, List.append_assoc, List.singleton_append, readAtom, hclass]
      simp [Except.map]

theorem written_of_readAtom {c : Char} {s : List Char} {atom : Atom} {width : Nat}
    (hstar : c ≠ '*') (hmaybe : c ≠ '?') (hmany : c ≠ '+')
    (hread : readAtom (c :: s) = .ok (atom, width)) :
    ∃ lexeme rest, c :: s = lexeme ++ rest ∧ atom.Written lexeme ∧ width = lexeme.length := by
  by_cases hopen : c = '['
  · subst hopen
    obtain ⟨⟨found, size⟩, hclass, heq⟩ := map_eq_ok_iff.mp hread
    obtain ⟨body, rest, ranges, rfl, hbody, hne, hranges, rfl, rfl⟩ :=
      readClass_eq_ok_iff.mp hclass
    cases heq
    exact ⟨'[' :: (body ++ [']']), rest, by simp, .oneOf hne hbody hranges, by simp⟩
  · by_cases hescape : c = '\\'
    · subst hescape
      cases s with
      | nil => cases hread
      | cons d rest =>
          cases hread
          exact ⟨['\\', d], rest, rfl, .escaped d, rfl⟩
    · have hplain : ¬ IsSpecial c := by simp [IsSpecial, hstar, hmaybe, hmany, hopen, hescape]
      rw [readAtom_of_plain hplain] at hread
      cases hread
      exact ⟨[c], s, rfl, .plain hplain, rfl⟩

theorem readRepeat_mark {times : Repeat} {rest : List Char} (a : Atom)
    (hends : (Item.atom a times).EndsBefore rest) :
    readRepeat (times.mark ++ rest) = (times, times.mark.length) := by
  cases times with
  | once =>
      rw [Repeat.mark, List.nil_append]
      unfold readRepeat
      split <;> simp_all [Item.EndsBefore]
  | optional => rfl
  | many => rfl

theorem exists_mark_readRepeat (a : Atom) (s : List Char) :
    ∃ rest, s = (readRepeat s).1.mark ++ rest ∧ (Item.atom a (readRepeat s).1).EndsBefore rest ∧
      (readRepeat s).2 = (readRepeat s).1.mark.length := by
  unfold readRepeat
  split
  · exact ⟨_, rfl, trivial, rfl⟩
  · exact ⟨_, rfl, trivial, rfl⟩
  · next hmaybe hmany =>
      refine ⟨s, rfl, ⟨?_, ?_⟩, rfl⟩
      · intro hhead
        obtain ⟨rest, rfl⟩ := List.head?_eq_some_iff.mp hhead
        exact hmaybe rest rfl
      · intro hhead
        obtain ⟨rest, rfl⟩ := List.head?_eq_some_iff.mp hhead
        exact hmany rest rfl

/-- Where no mark of another item stands an atom is read, and its count after it. -/
theorem readItem_eq_readAtom (position : Nat) {s : List Char} (hstar : s.head? ≠ some '*')
    (hmaybe : s.head? ≠ some '?') (hmany : s.head? ≠ some '+') :
    readItem position s = readAtom s >>= fun (atom, width) =>
      .ok (.atom atom (readRepeat (s.drop width)).1, width + (readRepeat (s.drop width)).2) := by
  unfold readItem
  split
  · simp at hstar
  · simp at hstar
  · simp at hmaybe
  · simp at hmany
  · rfl

theorem Item.Written.read {item : Item} {lexeme rest : List Char} (hwritten : item.Written lexeme)
    (hends : item.EndsBefore rest) (position : Nat) :
    readItem position (lexeme ++ rest) = .ok (item, lexeme.length) := by
  cases hwritten with
  | star =>
      rw [List.singleton_append]
      unfold readItem
      split <;> simp_all [Item.EndsBefore]
  | doubleStar => rfl
  | @atom a lexeme hatom times =>
      have hhead : ∀ c, c = '*' ∨ c = '?' ∨ c = '+' →
          (lexeme ++ times.mark ++ rest).head? ≠ some c := by
        intro c hc
        obtain ⟨first, tail, rfl⟩ := List.exists_cons_of_ne_nil hatom.ne_nil
        exact hatom.head_ne hc
      rw [readItem_eq_readAtom position (hhead '*' (by simp)) (hhead '?' (by simp))
        (hhead '+' (by simp)), List.append_assoc, hatom.read, ok_bind]
      simp only [List.drop_left, readRepeat_mark a hends, List.length_append]

theorem written_of_readItem {position : Nat} {s : List Char} {item : Item} {width : Nat}
    (hread : readItem position s = .ok (item, width)) :
    ∃ lexeme rest, s = lexeme ++ rest ∧ item.Written lexeme ∧ item.EndsBefore rest ∧
      width = lexeme.length := by
  cases s with
  | nil => cases hread
  | cons c rest =>
      by_cases hstar : c = '*'
      · subst hstar
        by_cases hdouble : rest.head? = some '*'
        · obtain ⟨more, rfl⟩ := List.head?_eq_some_iff.mp hdouble
          cases hread
          exact ⟨['*', '*'], more, rfl, .doubleStar, trivial, rfl⟩
        · rw [← List.singleton_append, Item.Written.read .star hdouble] at hread
          cases hread
          exact ⟨['*'], rest, rfl, .star, hdouble, rfl⟩
      · by_cases hmaybe : c = '?'
        · subst hmaybe
          cases hread
        · by_cases hmany : c = '+'
          · subst hmany
            cases hread
          · rw [readItem_eq_readAtom position (by simpa using hstar) (by simpa using hmaybe)
              (by simpa using hmany)] at hread
            obtain ⟨⟨atom, size⟩, hatom, heq⟩ := bind_eq_ok_iff.mp hread
            obtain ⟨lexeme, after, hs, hwritten, rfl⟩ :=
              written_of_readAtom hstar hmaybe hmany hatom
            rw [hs] at heq ⊢
            simp only [List.drop_left] at heq
            obtain ⟨rest, hafter, hends, hmore⟩ := exists_mark_readRepeat atom after
            cases heq
            refine ⟨lexeme ++ (readRepeat after).1.mark, rest, ?_, .atom hwritten _, hends, ?_⟩
            · rw [List.append_assoc, ← hafter]
            · rw [List.length_append, ← hmore]

/-! ## All items -/

theorem Item.Written.ne_nil {item : Item} {lexeme : List Char} (hwritten : item.Written lexeme) :
    lexeme ≠ [] := by
  cases hwritten with
  | star => simp
  | doubleStar => simp
  | atom hatom times => simp [hatom.ne_nil]

theorem spells_cons_iff {c : Char} {s : List Char} {items : List Item} (position : Nat) :
    Spells (c :: s) items ↔ ∃ item width more, readItem position (c :: s) = .ok (item, width) ∧
      Spells (s.drop (width - 1)) more ∧ items = item :: more := by
  constructor
  · intro hspells
    generalize htext : c :: s = text at hspells
    cases hspells with
    | nil => cases htext
    | @item item lexeme rest more hwritten hends hrest =>
        refine ⟨item, lexeme.length, more, hwritten.read hends position, ?_, rfl⟩
        obtain ⟨first, tail, rfl⟩ := List.exists_cons_of_ne_nil hwritten.ne_nil
        cases htext
        simpa using hrest
  · rintro ⟨item, width, more, hread, hmore, rfl⟩
    obtain ⟨lexeme, rest, htext, hwritten, hends, rfl⟩ := written_of_readItem hread
    obtain ⟨first, tail, rfl⟩ := List.exists_cons_of_ne_nil hwritten.ne_nil
    rw [htext]
    cases htext
    exact .item hwritten hends (by simpa using hmore)

theorem spells_nil_iff {items : List Item} : Spells [] items ↔ items = [] := by
  constructor
  · intro hspells
    generalize htext : ([] : List Char) = text at hspells
    cases hspells with
    | nil => rfl
    | item hwritten _ _ => exact absurd (List.append_eq_nil_iff.mp htext.symm).1 hwritten.ne_nil
  · rintro rfl
    exact .nil

theorem readItems_eq_ok_iff {skip position : Nat} {s : List Char} {items : List Item} :
    readItems skip position s = .ok items ↔ Spells (s.drop skip) items := by
  induction s generalizing skip position items with
  | nil => rw [List.drop_nil, spells_nil_iff, readItems, Except.ok.injEq, eq_comm]
  | cons c rest ih =>
      cases skip with
      | succ skip => exact ih
      | zero =>
          rw [List.drop_zero, spells_cons_iff position, readItems, bind_eq_ok_iff]
          constructor
          · rintro ⟨⟨item, width⟩, hitem, hok⟩
            obtain ⟨more, hmore, hitems⟩ := bind_eq_ok_iff.mp hok
            cases hitems
            exact ⟨item, width, more, hitem, ih.mp hmore, rfl⟩
          · rintro ⟨item, width, more, hitem, hmore, rfl⟩
            exact ⟨(item, width), hitem, bind_eq_ok_iff.mpr ⟨more, ih.mpr hmore, rfl⟩⟩

/-- A text is read as a glob exactly if it is not empty and spells the items of the glob. -/
theorem parse_eq_ok_iff {pattern : String} {glob : Glob} :
    parse pattern = .ok glob ↔ pattern ≠ "" ∧ Spells pattern.toList glob := by
  by_cases hempty : pattern = ""
  · subst hempty
    constructor
    · intro hparse
      cases hparse
    · intro hspells
      exact absurd rfl hspells.1
  · have hisEmpty : ¬ pattern.isEmpty = true := fun h => hempty (String.isEmpty_iff.mp h)
    rw [parse, if_neg hisEmpty, mapError_eq_ok_iff, readItems_eq_ok_iff, List.drop_zero,
      and_iff_right hempty]

end CiPipeline.Glob
