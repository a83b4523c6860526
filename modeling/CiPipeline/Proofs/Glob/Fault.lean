import CiPipeline.Proofs.Glob.Grammar
import Mathlib.Data.List.TakeWhile

/-!
The texts that are no globs. A text is a glob exactly if it is a row of written items, wherever the
items are taken to end: two stars side by side are as good as one item as they are as two. In every
other text the reader stops at one place. All that stands before the place is a row of items, and what
stands there names the fault.
-/

namespace CiPipeline.Glob

/-! ## Rows of items -/

/-- Only the first character of what follows tells whether an item ends. -/
theorem Item.endsBefore_iff {item : Item} {s : List Char} :
    item.EndsBefore s ↔ (item = .star → s.head? ≠ some '*') ∧
      ∀ a, item = .atom a .once → s.head? ≠ some '?' ∧ s.head? ≠ some '+' := by
  cases item with
  | star => simp [EndsBefore]
  | doubleStar => simp [EndsBefore]
  | atom a times => cases times <;> simp [EndsBefore]

theorem Item.endsBefore_nil (item : Item) : item.EndsBefore [] := by
  simp [Item.endsBefore_iff]

theorem Item.endsBefore_append_iff {item : Item} {s t : List Char} (hne : s ≠ []) :
    item.EndsBefore (s ++ t) ↔ item.EndsBefore s := by
  rw [Item.endsBefore_iff, Item.endsBefore_iff, List.head?_append_of_ne_nil s hne]

/-- An item in front of others ends where they begin, and the last of all where the row ends. -/
theorem Spells.ends_cons_iff {front : List Char} {items : List Item} (hspells : Spells front items)
    {item : Item} {rest : List Char} :
    (item.EndsBefore front ∧ ∀ last ∈ (item :: items).getLast?, last.EndsBefore rest) ↔
      item.EndsBefore (front ++ rest) ∧ ∀ last ∈ items.getLast?, last.EndsBefore rest := by
  cases hspells with
  | nil => simp [item.endsBefore_nil]
  | item hwritten _ _ =>
      rw [List.append_assoc, Item.endsBefore_append_iff hwritten.ne_nil,
        Item.endsBefore_append_iff hwritten.ne_nil, List.getLast?_cons_cons]

/-- No item begins with the mark of a count. -/
theorem Item.Written.head_ne {item : Item} {lexeme : List Char} (hwritten : item.Written lexeme)
    {c : Char} (hc : c = '?' ∨ c = '+') (rest : List Char) : (lexeme ++ rest).head? ≠ some c := by
  cases hwritten with
  | star => rcases hc with rfl | rfl <;> simp
  | doubleStar => rcases hc with rfl | rfl <;> simp
  | @atom a lexeme hatom times =>
      obtain ⟨first, tail, rfl⟩ := List.exists_cons_of_ne_nil hatom.ne_nil
      exact hatom.head_ne (Or.inr hc)

theorem Spells.head_ne {s : List Char} {items : List Item} (hspells : Spells s items) {c : Char}
    (hc : c = '?' ∨ c = '+') : s.head? ≠ some c := by
  cases hspells with
  | nil => simp
  | item hwritten _ _ => exact hwritten.head_ne hc _

/-- One more star in front of a row of items makes one more item, or two stars of the first one. -/
theorem Spells.exists_star {s : List Char} {items : List Item} (hspells : Spells s items) :
    ∃ more, Spells ('*' :: s) more := by
  induction hspells with
  | nil => exact ⟨[.star], .item .star (Item.endsBefore_nil _) .nil⟩
  | @item item lexeme rest items hwritten hends hrest ih =>
      cases hwritten with
      | star => exact ⟨.doubleStar :: items, .item .doubleStar trivial hrest⟩
      | doubleStar =>
          -- the first two of three stars are one item, and the third goes with what is behind them
          obtain ⟨more, hmore⟩ := ih
          exact ⟨.doubleStar :: more, .item .doubleStar trivial hmore⟩
      | @atom a lexeme hatom times =>
          have hhead : (lexeme ++ times.mark ++ rest).head? ≠ some '*' := by
            obtain ⟨first, tail, rfl⟩ := List.exists_cons_of_ne_nil hatom.ne_nil
            exact hatom.head_ne (Or.inl rfl)
          exact ⟨_, .item .star hhead (.item (.atom hatom times) hends hrest)⟩

theorem Spells.exists_written {s : List Char} {items : List Item} (hspells : Spells s items)
    {item : Item} {lexeme : List Char} (hwritten : item.Written lexeme) :
    ∃ more, Spells (lexeme ++ s) more := by
  cases hwritten with
  | star => exact hspells.exists_star
  | doubleStar => exact ⟨_, .item .doubleStar trivial hspells⟩
  | @atom a lexeme hatom times =>
      have hends : (Item.atom a times).EndsBefore s := by
        cases times with
        | once => exact ⟨hspells.head_ne (Or.inl rfl), hspells.head_ne (Or.inr rfl)⟩
        | optional => trivial
        | many => trivial
      exact ⟨_, .item (.atom hatom times) hends hspells⟩

/-- A text spells some glob exactly if it can be cut into written items at all. -/
theorem exists_spells_iff {s : List Char} :
    (∃ items, Spells s items) ↔ ∃ lexemes : List (List Char),
      (∀ lexeme ∈ lexemes, ∃ item : Item, item.Written lexeme) ∧ s = lexemes.flatten := by
  constructor
  · rintro ⟨items, hspells⟩
    induction hspells with
    | nil => exact ⟨[], by simp, rfl⟩
    | @item item lexeme rest items hwritten _ _ ih =>
        obtain ⟨lexemes, hlexemes, rfl⟩ := ih
        exact ⟨lexeme :: lexemes, List.forall_mem_cons.mpr ⟨⟨item, hwritten⟩, hlexemes⟩, rfl⟩
  · rintro ⟨lexemes, hlexemes, rfl⟩
    induction lexemes with
    | nil => exact ⟨[], .nil⟩
    | cons lexeme lexemes ih =>
        obtain ⟨⟨item, hwritten⟩, hlexemes⟩ := List.forall_mem_cons.mp hlexemes
        obtain ⟨items, hspells⟩ := ih hlexemes
        exact hspells.exists_written hwritten

/-- A text is read as a glob exactly if it is cut into one or more written items. -/
theorem exists_parse_iff {pattern : String} :
    (∃ glob, parse pattern = .ok glob) ↔ ∃ lexemes : List (List Char), lexemes ≠ [] ∧
      (∀ lexeme ∈ lexemes, ∃ item : Item, item.Written lexeme) ∧
        pattern.toList = lexemes.flatten := by
  simp only [parse_eq_ok_iff, exists_and_left, exists_spells_iff]
  constructor
  · rintro ⟨hne, lexemes, hlexemes, htext⟩
    refine ⟨lexemes, ?_, hlexemes, htext⟩
    rintro rfl
    exact hne (String.toList_eq_nil_iff.mp htext)
  · rintro ⟨lexemes, hne, hlexemes, htext⟩
    refine ⟨?_, lexemes, hlexemes, htext⟩
    rintro rfl
    obtain ⟨lexeme, rest, rfl⟩ := List.exists_cons_of_ne_nil hne
    obtain ⟨item, hwritten⟩ := hlexemes lexeme List.mem_cons_self
    exact hwritten.ne_nil (List.append_eq_nil_iff.mp htext.symm).1

/-! ## Faults -/

/-- The first range of a body, read from left to right, that is reversed. -/
inductive Reverses : List Char → Char → Char → Prop
  | here {low high : Char} {rest : List Char} (hreversed : high < low) :
      Reverses (low :: '-' :: high :: rest) low high
  | range {low high l h : Char} {rest : List Char} (hle : low ≤ high) (hrest : Reverses rest l h) :
      Reverses (low :: '-' :: high :: rest) l h
  | single {c l h : Char} {rest : List Char} (hother : ∀ high more, rest ≠ '-' :: high :: more)
      (hrest : Reverses rest l h) : Reverses (c :: rest) l h

/-- What is wrong with the class that follows an opening bracket. -/
inductive ClassFault : List Char → Fault → Prop
  | unclosed {s : List Char} (hopen : ']' ∉ s) : ClassFault s .unclosedClass
  | empty {rest : List Char} : ClassFault (']' :: rest) .emptyClass
  | reversed {body rest : List Char} {low high : Char} (hbody : ']' ∉ body)
      (hreversed : Reverses body low high) :
      ClassFault (body ++ ']' :: rest) (.reversedRange low high)

/--
What is wrong at a position, where the reader stops: some items stand before it, and the text from
there on follows. A count has nothing to be for at the start, behind a star and behind another count.
-/
inductive FaultAt (items : List Item) (position : Nat) : List Char → Fault → Prop
  | nothingToRepeat {mark : Char} {rest : List Char} (hmark : mark = '?' ∨ mark = '+')
      (hbefore : ∀ a, items.getLast? ≠ some (.atom a .once)) :
      FaultAt items position (mark :: rest) (.nothingToRepeat mark position)
  | inClass {rest : List Char} {fault : Fault} (hclass : ClassFault rest fault) :
      FaultAt items position ('[' :: rest) fault
  | danglingEscape : FaultAt items position ['\\'] .danglingEscape

/-- A text is a row of items up to some place, and a fault stands there. -/
def Faulty (s : List Char) (fault : Fault) : Prop :=
  ∃ front items rest, s = front ++ rest ∧ Spells front items ∧
    FaultAt items front.length rest fault

/-- The character at a fault tells its kind. -/
theorem faultAt_cons_iff {items : List Item} {position : Nat} {c : Char} {s : List Char}
    {fault : Fault} :
    FaultAt items position (c :: s) fault ↔
      (c = '?' ∨ c = '+') ∧ (∀ a, items.getLast? ≠ some (.atom a .once)) ∧
          fault = .nothingToRepeat c position ∨
        c = '[' ∧ ClassFault s fault ∨ c = '\\' ∧ s = [] ∧ fault = .danglingEscape := by
  constructor
  · intro hfault
    cases hfault with
    | nothingToRepeat hmark hbefore => exact Or.inl ⟨hmark, hbefore, rfl⟩
    | inClass hclass => exact Or.inr (Or.inl ⟨rfl, hclass⟩)
    | danglingEscape => exact Or.inr (Or.inr ⟨rfl, rfl, rfl⟩)
  · rintro (⟨hmark, hbefore, rfl⟩ | ⟨rfl, hclass⟩ | ⟨rfl, rfl, rfl⟩)
    · exact .nothingToRepeat hmark hbefore
    · exact .inClass hclass
    · exact .danglingEscape

/-- The items before a fault end there. -/
theorem FaultAt.ends {items : List Item} {position : Nat} {s : List Char} {fault : Fault}
    (hfault : FaultAt items position s fault) : ∀ item ∈ items.getLast?, item.EndsBefore s := by
  intro item hitem
  rw [Item.endsBefore_iff]
  cases hfault with
  | nothingToRepeat hmark hbefore =>
      refine ⟨fun _ => ?_, fun a hatom => absurd (hatom ▸ hitem) (hbefore a)⟩
      rcases hmark with rfl | rfl <;> simp
  | inClass _ => simp
  | danglingEscape => simp

/-! ## Where the reader stops -/

theorem readRanges_eq_error_iff {body : List Char} {fault : Fault} :
    readRanges body = .error fault ↔
      ∃ low high, Reverses body low high ∧ fault = .reversedRange low high := by
  fun_induction readRanges body with
  | case1 low high rest hreversed =>
      constructor
      · intro hread
        cases hread
        exact ⟨low, high, .here hreversed, rfl⟩
      · rintro ⟨l, h, hfirst, rfl⟩
        cases hfirst with
        | here _ => rfl
        | range hle _ => exact absurd hreversed (Char.not_lt.mpr hle)
        | single hother _ => exact absurd rfl (hother high rest)
  | case2 low high rest hordered ih =>
      rw [map_eq_error_iff, ih]
      constructor
      · rintro ⟨l, h, hrest, rfl⟩
        exact ⟨l, h, .range (Char.not_lt.mp hordered) hrest, rfl⟩
      · rintro ⟨l, h, hfirst, rfl⟩
        cases hfirst with
        | here hreversed => exact absurd hreversed hordered
        | range _ hrest => exact ⟨l, h, hrest, rfl⟩
        | single hother _ => exact absurd rfl (hother high rest)
  | case3 c rest hother ih =>
      rw [map_eq_error_iff, ih]
      constructor
      · rintro ⟨l, h, hrest, rfl⟩
        exact ⟨l, h, .single hother hrest, rfl⟩
      · rintro ⟨l, h, hfirst, rfl⟩
        cases hfirst with
        | here _ => exact absurd rfl (hother _ _)
        | range _ _ => exact absurd rfl (hother _ _)
        | single _ hrest => exact ⟨l, h, hrest, rfl⟩
  | case4 =>
      constructor
      · intro hread
        cases hread
      · rintro ⟨l, h, hfirst, rfl⟩
        cases hfirst

theorem readClass_eq_error_iff {s : List Char} {fault : Fault} :
    readClass s = .error fault ↔ ClassFault s fault := by
  simp only [readClass]
  constructor
  · intro hread
    split at hread
    · next hlength =>
        have hwhole : s.takeWhile (· ≠ ']') = s :=
          (List.takeWhile_prefix _).eq_of_length hlength
        cases hread
        exact .unclosed (hwhole ▸ Text.not_mem_takeWhile_ne)
    · next hlength =>
        obtain ⟨rest, hs⟩ := Text.exists_eq_takeWhile_ne_append hlength
        rw [hs]
        split at hread
        · next hempty =>
            cases hread
            rw [List.isEmpty_iff.mp hempty]
            exact .empty
        · obtain ⟨low, high, hreversed, rfl⟩ :=
            readRanges_eq_error_iff.mp (map_eq_error_iff.mp hread)
          exact .reversed Text.not_mem_takeWhile_ne hreversed
  · intro hclass
    cases hclass with
    | unclosed hopen =>
        have hwhole : s.takeWhile (· ≠ ']') = s := by
          rw [List.takeWhile_eq_self_iff]
          intro c hc
          simpa using fun heq : c = ']' => hopen (heq ▸ hc)
        rw [hwhole, if_pos rfl]
    | empty => rfl
    | @reversed body rest low high hbody hreversed =>
        have hlength : ¬ body.length = (body ++ ']' :: rest).length := by
          rw [List.length_append, List.length_cons]
          omega
        have hne : ¬ body.isEmpty = true := by
          cases hreversed <;> simp
        rw [Text.takeWhile_ne_append hbody, if_neg hlength, if_neg hne,
          readRanges_eq_error_iff.mpr ⟨low, high, hreversed, rfl⟩]
        rfl

theorem readAtom_eq_error_iff {c : Char} {s : List Char} {fault : Fault} (hstar : c ≠ '*')
    (hmaybe : c ≠ '?') (hmany : c ≠ '+') :
    readAtom (c :: s) = .error fault ↔
      c = '[' ∧ ClassFault s fault ∨ c = '\\' ∧ s = [] ∧ fault = .danglingEscape := by
  by_cases hopen : c = '['
  · subst hopen
    rw [readAtom, map_eq_error_iff, readClass_eq_error_iff]
    simp
  · by_cases hescape : c = '\\'
    · subst hescape
      cases s <;> simp [readAtom, eq_comm]
    · have hplain : ¬ IsSpecial c := by simp [IsSpecial, hstar, hmaybe, hmany, hopen, hescape]
      rw [readAtom_of_plain hplain]
      simp [hopen, hescape]

/-- Where the items before it end, an item cannot be read exactly if a fault stands there. -/
theorem readItem_eq_error_iff {items : List Item} {position : Nat} {c : Char} {s : List Char}
    {fault : Fault} (hends : ∀ item ∈ items.getLast?, item.EndsBefore (c :: s)) :
    readItem position (c :: s) = .error fault ↔ FaultAt items position (c :: s) fault := by
  have hbefore (hmark : c = '?' ∨ c = '+') : ∀ a, items.getLast? ≠ some (.atom a .once) := by
    intro a hlast
    have hhead := hends _ hlast
    rcases hmark with rfl | rfl <;> simp [Item.EndsBefore] at hhead
  rw [faultAt_cons_iff]
  by_cases hstar : c = '*'
  · subst hstar
    refine iff_of_false ?_ (by simp)
    unfold readItem
    split <;> simp_all
  · by_cases hmaybe : c = '?'
    · subst hmaybe
      simp [readItem, hbefore, eq_comm]
    · by_cases hmany : c = '+'
      · subst hmany
        simp [readItem, hbefore, eq_comm]
      · rw [readItem_eq_readAtom position (by simpa using hstar) (by simpa using hmaybe)
          (by simpa using hmany), bind_eq_error_iff, readAtom_eq_error_iff hstar hmaybe hmany]
        simp [hmaybe, hmany]

/-- Some items are read up to a place where they end, and no item can be read there. -/
def Stops (position : Nat) (s : List Char) (fault : Fault) : Prop :=
  ∃ front items rest, s = front ++ rest ∧ rest ≠ [] ∧ Spells front items ∧
    (∀ item ∈ items.getLast?, item.EndsBefore rest) ∧
    readItem (position + front.length) rest = .error fault

theorem not_stops_nil {position : Nat} {fault : Fault} : ¬ Stops position [] fault := by
  rintro ⟨front, items, rest, htext, hne, _⟩
  exact hne (List.append_eq_nil_iff.mp htext.symm).2

/-- The reader stops at the first item, or behind it. -/
theorem stops_cons_iff {position : Nat} {c : Char} {s : List Char} {fault : Fault} :
    Stops position (c :: s) fault ↔ readItem position (c :: s) = .error fault ∨
      ∃ item width, readItem position (c :: s) = .ok (item, width) ∧
        Stops (position + 1 + (width - 1)) (s.drop (width - 1)) fault := by
  constructor
  · rintro ⟨front, items, rest, htext, hne, hspells, hends, hstop⟩
    cases hspells with
    | nil =>
        rw [List.nil_append] at htext
        exact Or.inl (htext ▸ hstop)
    | @item item lexeme front items hwritten hnext hitems =>
        -- the item ends before all that follows, so it is the one that is read first
        obtain ⟨hfirst, hlast⟩ := hitems.ends_cons_iff.mp ⟨hnext, hends⟩
        obtain ⟨own, tail, rfl⟩ := List.exists_cons_of_ne_nil hwritten.ne_nil
        rw [List.append_assoc] at htext
        rw [htext]
        refine Or.inr ⟨item, _, hwritten.read hfirst position, ?_⟩
        cases htext
        refine ⟨front, items, rest, by simp, hne, hitems, hlast, ?_⟩
        convert hstop using 2
        simp
        omega
  · rintro (hstop | ⟨item, width, hread, front, items, rest, hdrop, hne, hitems, hlast, hstop⟩)
    · exact ⟨[], [], c :: s, rfl, by simp, .nil, by simp, hstop⟩
    · obtain ⟨lexeme, after, htext, hwritten, hends, rfl⟩ := written_of_readItem hread
      obtain ⟨own, tail, rfl⟩ := List.exists_cons_of_ne_nil hwritten.ne_nil
      rw [List.cons_append, List.cons.injEq] at htext
      obtain ⟨rfl, rfl⟩ := htext
      have hafter : after = front ++ rest := by simpa using hdrop
      subst hafter
      obtain ⟨hnext, hall⟩ := hitems.ends_cons_iff.mpr ⟨hends, hlast⟩
      refine ⟨c :: tail ++ front, item :: items, rest, by simp, hne,
        .item hwritten hnext hitems, hall, ?_⟩
      convert hstop using 2
      simp
      omega

theorem readItems_eq_error_iff {skip position : Nat} {s : List Char} {fault : Fault} :
    readItems skip position s = .error fault ↔ Stops (position + skip) (s.drop skip) fault := by
  induction s generalizing skip position with
  | nil =>
      rw [List.drop_nil]
      exact iff_of_false nofun not_stops_nil
  | cons c rest ih =>
      cases skip with
      | succ skip =>
          rw [readItems, ih, List.drop_succ_cons, Nat.add_right_comm, Nat.add_assoc]
      | zero =>
          rw [List.drop_zero, Nat.add_zero, stops_cons_iff, readItems, bind_eq_error_iff]
          refine or_congr Iff.rfl ?_
          constructor
          · rintro ⟨⟨item, width⟩, hitem, herror⟩
            rcases bind_eq_error_iff.mp herror with hrest | ⟨_, _, hreturn⟩
            · exact ⟨item, width, hitem, ih.mp hrest⟩
            · cases hreturn
          · rintro ⟨item, width, hitem, hrest⟩
            exact ⟨(item, width), hitem, bind_eq_error_iff.mpr (Or.inl (ih.mpr hrest))⟩

/-- The reader stops where a fault is. -/
theorem stops_iff_faulty {s : List Char} {fault : Fault} : Stops 0 s fault ↔ Faulty s fault := by
  constructor
  · rintro ⟨front, items, rest, htext, hne, hspells, hends, hstop⟩
    obtain ⟨c, rest, rfl⟩ := List.exists_cons_of_ne_nil hne
    rw [readItem_eq_error_iff hends, Nat.zero_add] at hstop
    exact ⟨front, items, c :: rest, htext, hspells, hstop⟩
  · rintro ⟨front, items, rest, htext, hspells, hfault⟩
    have hne : rest ≠ [] := by
      rintro rfl
      cases hfault
    obtain ⟨c, rest, rfl⟩ := List.exists_cons_of_ne_nil hne
    refine ⟨front, items, c :: rest, htext, hne, hspells, hfault.ends, ?_⟩
    rwa [readItem_eq_error_iff hfault.ends, Nat.zero_add]

/-- A text is refused as a glob for being empty, or for the fault at the place where it stops being
a row of items. -/
theorem parse_eq_error_iff {pattern : String} {error : PatternError} :
    parse pattern = .error error ↔ error.pattern = pattern ∧
      (pattern = "" ∧ error.fault = .empty ∨ Faulty pattern.toList error.fault) := by
  have hread : ∀ fault, (if pattern.isEmpty then .error .empty else readItems 0 0 pattern.toList) =
      .error fault ↔ pattern = "" ∧ fault = .empty ∨ Faulty pattern.toList fault := by
    intro fault
    by_cases hempty : pattern = ""
    · subst hempty
      have hnot : ¬ Faulty "".toList fault := fun hfaulty =>
        not_stops_nil (stops_iff_faulty.mpr hfaulty)
      rw [or_iff_left hnot]
      constructor
      · intro hfails
        cases hfails
        exact ⟨rfl, rfl⟩
      · rintro ⟨_, rfl⟩
        rfl
    · have hisEmpty : ¬ pattern.isEmpty = true := fun h => hempty (String.isEmpty_iff.mp h)
      rw [if_neg hisEmpty, readItems_eq_error_iff, List.drop_zero, stops_iff_faulty]
      simp [hempty]
  obtain ⟨own, fault⟩ := error
  simp only [parse, mapError_eq_error_iff, hread, PatternError.mk.injEq]
  constructor
  · rintro ⟨_, hfault, rfl, rfl⟩
    exact ⟨rfl, hfault⟩
  · rintro ⟨rfl, hfault⟩
    exact ⟨fault, hfault, rfl, rfl⟩

end CiPipeline.Glob
