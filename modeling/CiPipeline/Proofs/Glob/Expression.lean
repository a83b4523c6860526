import CiPipeline.Glob.Expression
import CiPipeline.Proofs.Glob.Fault
import CiPipeline.Proofs.Glob.Language
import CiPipeline.Proofs.Regex

/-!
The expression that is written for a glob is one: it is read back part by part, one part for each item,
and it matches the names that the glob accepts. A text that is no glob is refused while the expression
is written, for the fault for which it is refused as a glob.
-/

namespace CiPipeline.Glob

open Regex (Token Single Count)

/-! ## The parts of an expression -/

/-- What stands for one character that an atom admits. -/
def Atom.single : Atom → Single
  | char c => .literal c
  | oneOf ranges => .oneOf ranges

/-- The count of a quantifier. -/
def Repeat.count : Repeat → Count
  | once => .once
  | optional => .optional
  | many => .many

/-- The part of an expression that stands for what an item stands for. -/
def Item.part : Item → Regex.Part
  | star => ⟨.noneOf [('/', '/')], .anyNumber⟩
  | doubleStar => ⟨.any, .anyNumber⟩
  | atom a times => ⟨a.single, times.count⟩

theorem Atom.admits_single_iff {a : Atom} {c : Char} : a.single.Admits c ↔ a.Admits c := by
  cases a <;> rfl

theorem Item.standsFor_part_iff {item : Item} {piece : List Char} :
    item.part.StandsFor piece ↔ item.StandsFor piece := by
  cases item with
  | star =>
      have hslash : ∀ c : Char, ('/' ≤ c ∧ c ≤ '/') ↔ c = '/' := fun c =>
        ⟨fun h => Char.le_antisymm h.2 h.1, fun h => h ▸ ⟨Char.le_refl _, Char.le_refl _⟩⟩
      simp [part, Regex.Part.StandsFor, Count.Allows, Single.Admits, StandsFor, hslash,
        List.forall_mem_ne']
  | doubleStar =>
      simp [part, Regex.Part.StandsFor, Count.Allows, Single.Admits, StandsFor,
        List.forall_mem_ne']
  | atom a times =>
      simp only [part, Regex.Part.StandsFor, Atom.admits_single_iff]
      cases times with
      | once =>
          simp only [Repeat.count, Count.Allows, StandsFor, List.length_eq_one_iff]
          constructor
          · rintro ⟨⟨c, rfl⟩, hadmits⟩
            exact ⟨c, hadmits c List.mem_cons_self, rfl⟩
          · rintro ⟨c, hadmits, rfl⟩
            exact ⟨⟨c, rfl⟩, by simpa using hadmits⟩
      | optional =>
          simp only [Repeat.count, Count.Allows, StandsFor]
          constructor
          · rintro ⟨hlength, hadmits⟩
            rcases Nat.le_one_iff_eq_zero_or_eq_one.mp hlength with hnone | hone
            · exact Or.inl (List.length_eq_zero_iff.mp hnone)
            · obtain ⟨c, rfl⟩ := List.length_eq_one_iff.mp hone
              exact Or.inr ⟨c, hadmits c List.mem_cons_self, rfl⟩
          · rintro (rfl | ⟨c, hadmits, rfl⟩)
            · simp
            · simpa using hadmits
      | many =>
          simp only [Repeat.count, Count.Allows, StandsFor, Nat.one_le_iff_ne_zero, ne_eq,
            List.length_eq_zero_iff]

theorem matches_part_iff {glob : Glob} {name : String} :
    Regex.Matches (glob.map Item.part) name ↔ glob.accepts name = true := by
  rw [accepts_eq_true_iff, Regex.Matches, Denotes]
  simp only [List.forall₂_map_left_iff, Item.standsFor_part_iff]

/-! ## Characters of a glob as tokens -/

/-- The token of a character. -/
def tokenOf (c : Char) : Token :=
  if needsEscape c then .escaped c else .plain c

theorem text_tokenOf (c : Char) : (tokenOf c).text = escape c := by
  unfold tokenOf escape
  split <;> rfl

theorem not_isAlphanum_of_needsEscape {c : Char} (hescape : needsEscape c = true) :
    c.isAlphanum = false := by
  rw [needsEscape, List.contains_iff_mem] at hescape
  have hnot : (!c.isAlphanum) = true := by
    refine (List.all_eq_true (p := fun c => !c.isAlphanum)).mp ?_ c hescape
    rfl
  simpa using hnot

theorem literal_tokenOf (c : Char) : (tokenOf c).literal = .ok c := by
  unfold tokenOf
  split
  · next hescape =>
      rw [Token.literal, not_isAlphanum_of_needsEscape hescape]
      rfl
  · rfl

/-- No sign that means something in an expression is the token of a character. -/
theorem tokenOf_ne_plain {sign : Char} (hsign : needsEscape sign = true) (c : Char) :
    tokenOf c ≠ .plain sign := by
  unfold tokenOf
  split
  · simp
  · next hplain =>
      intro heq
      cases heq
      exact hplain hsign

theorem ofSign?_eq_none {c : Char} (hplain : ¬ needsEscape c = true) : Count.ofSign? c = none := by
  unfold Count.ofSign?
  split_ifs with hmaybe hmany hany
  · exact absurd (hmaybe ▸ rfl) hplain
  · exact absurd (hmany ▸ rfl) hplain
  · exact absurd (hany ▸ rfl) hplain
  · rfl

theorem not_isForeign {c : Char} (hplain : ¬ needsEscape c = true) : ¬ Regex.isForeign c = true := by
  intro hforeign
  rw [Regex.isForeign, List.contains_iff_mem] at hforeign
  refine hplain (List.all_eq_true.mp ?_ c hforeign)
  rfl

theorem startsWithCount_tokenOf (c : Char) (rest : List Token) :
    Regex.startsWithCount (tokenOf c :: rest) = false := by
  unfold tokenOf
  split
  · rfl
  · next hplain => rw [Regex.startsWithCount, ofSign?_eq_none hplain, Option.isSome_none]

theorem readSingle_tokenOf (c : Char) (rest : List Token) :
    Regex.readSingle (tokenOf c :: rest) = .ok (.literal c, 1) := by
  have hliteral := literal_tokenOf c
  unfold tokenOf at *
  split
  · next hescape =>
      rw [if_pos hescape] at hliteral
      rw [Regex.readSingle, hliteral]
      rfl
  · next hplain =>
      have hdot : c ≠ '.' := fun heq => hplain (heq ▸ rfl)
      have hopen : c ≠ '[' := fun heq => hplain (heq ▸ rfl)
      unfold Regex.readSingle
      split <;> simp_all [ofSign?_eq_none, not_isForeign]

/-! ## Classes -/

/-- The tokens of the members of a class. -/
def memberTokens : List Char → List Token
  | low :: '-' :: high :: rest => tokenOf low :: .plain '-' :: tokenOf high :: memberTokens rest
  | c :: rest => tokenOf c :: memberTokens rest
  | [] => []

/-- The members of a class are written as tokens, and refused where they are no ranges. -/
theorem translateMembers_eq (body : List Char) :
    translateMembers body =
      (readRanges body).map fun _ => (memberTokens body).flatMap Token.text := by
  fun_induction readRanges body with
  | case1 low high rest hreversed =>
      rw [translateMembers, if_pos hreversed]
      rfl
  | case2 low high rest hordered ih =>
      have hhyphen : (Token.plain '-').text = ['-'] := rfl
      rw [translateMembers, if_neg hordered, ih, memberTokens]
      cases readRanges rest <;> simp [Except.map, text_tokenOf, hhyphen]
  | case3 c rest hother ih =>
      rw [translateMembers, ih, memberTokens]
      · cases readRanges rest <;> simp [Except.map, text_tokenOf]
      · exact hother
      · exact hother
  | case4 => rfl

theorem head?_memberTokens (body : List Char) :
    (memberTokens body).head? = body.head?.map tokenOf := by
  fun_cases memberTokens body <;> rfl

theorem memberTokens_single {c : Char} {rest : List Char}
    (hother : ∀ high more, rest ≠ '-' :: high :: more) :
    memberTokens (c :: rest) = tokenOf c :: memberTokens rest := by
  rw [memberTokens]
  exact hother

theorem not_mem_memberTokens (body : List Char) : .plain '\\' ∉ memberTokens body := by
  have htoken : ∀ c, .plain '\\' ≠ tokenOf c := fun c => (tokenOf_ne_plain rfl c).symm
  fun_induction memberTokens body with
  | case1 low high rest ih => simp [htoken, ih]
  | case2 c rest _ ih => simp [htoken, ih]
  | case3 => simp

/-- A class is read back from its tokens. -/
theorem SpellsRanges.read {body : List Char} {ranges : List (Char × Char)}
    (hspells : SpellsRanges body ranges) {first : Bool} (hfirst : first = true → body ≠ [])
    (rest : List Token) :
    Regex.readMembers first (memberTokens body ++ .plain ']' :: rest) =
      .ok (ranges, (memberTokens body).length + 1) := by
  have hclose : ∀ c, tokenOf c ≠ .plain ']' := tokenOf_ne_plain rfl
  induction hspells generalizing first with
  | nil =>
      cases first with
      | true => exact absurd rfl (hfirst rfl)
      | false => exact Regex.readMembers_close
  | @range low high more ranges hle _ ih =>
      -- the hyphen of a range is the only one that is not escaped
      rw [memberTokens, List.cons_append, List.cons_append, List.cons_append,
        Regex.readMembers_range (hclose low) (hclose high) (literal_tokenOf low)
          (literal_tokenOf high) hle, ih (by simp)]
      rfl
  | @single c more ranges hother _ ih =>
      have hnext : (memberTokens more ++ .plain ']' :: rest).head? ≠ some (.plain '-') := by
        rw [List.head?_append, head?_memberTokens]
        cases more with
        | nil => simp
        | cons d more => simpa using tokenOf_ne_plain rfl d
      rw [memberTokens_single hother, List.cons_append,
        Regex.readMembers_single (hclose c) (literal_tokenOf c) hnext, ih (by simp)]
      rfl

/-! ## Expressions as tokens -/

/-- How what stands for one character is written for a glob. -/
inductive Writes : List Token → Single → Prop
  | any : Writes [.plain '.'] .any
  | noSlash : Writes [.plain '[', .plain '^', .plain '/', .plain ']'] (.noneOf [('/', '/')])
  | literal (c : Char) : Writes [tokenOf c] (.literal c)
  | oneOf {body : List Char} {ranges : List (Char × Char)} (hne : body ≠ [])
      (hranges : SpellsRanges body ranges) :
      Writes (.plain '[' :: (memberTokens body ++ [.plain ']'])) (.oneOf ranges)

/-- How an expression is written for a glob: each part with the sign of its count. -/
inductive WritesAll : List Token → Regex → Prop
  | nil : WritesAll [] []
  | part {own rest : List Token} {single : Single} {parts : Regex} (hown : Writes own single)
      (count : Count) (hrest : WritesAll rest parts) :
      WritesAll (own ++ (count.sign ++ rest)) (⟨single, count⟩ :: parts)

theorem Writes.ne_nil {own : List Token} {single : Single} (hown : Writes own single) :
    own ≠ [] := by
  cases hown <;> simp

/-- What stands for one character is read back from its tokens. -/
theorem Writes.read {own : List Token} {single : Single} (hown : Writes own single)
    (rest : List Token) : Regex.readSingle (own ++ rest) = .ok (single, own.length) := by
  cases hown with
  | any => rfl
  | noSlash =>
      have hslash : Regex.readMembers true (.plain '/' :: .plain ']' :: rest) =
          .ok ([('/', '/')], 2) := by
        rw [Regex.readMembers_single (by decide) rfl (by simp), Regex.readMembers_close]
        rfl
      simp only [List.cons_append, List.nil_append, Regex.readSingle, hslash]
      rfl
  | literal c => exact readSingle_tokenOf c rest
  | @oneOf body ranges hne hranges =>
      have hcaret : (memberTokens body ++ .plain ']' :: rest).head? ≠ some (.plain '^') := by
        obtain ⟨d, more, rfl⟩ := List.exists_cons_of_ne_nil hne
        rw [List.head?_append, head?_memberTokens]
        simpa using tokenOf_ne_plain rfl d
      rw [List.cons_append, List.append_assoc, List.singleton_append, Regex.readSingle_set hcaret,
        hranges.read (fun _ => hne)]
      simp [Except.map]

/-- No part begins with the sign of a count. -/
theorem Writes.startsWithCount {own : List Token} {single : Single} (hown : Writes own single)
    (rest : List Token) : Regex.startsWithCount (own ++ rest) = false := by
  cases hown with
  | any => rfl
  | noSlash => rfl
  | literal c => exact startsWithCount_tokenOf c rest
  | oneOf _ _ => rfl

theorem WritesAll.startsWithCount {written : List Token} {regex : Regex}
    (hwrites : WritesAll written regex) : Regex.startsWithCount written = false := by
  cases hwrites with
  | nil => rfl
  | part hown count _ => exact hown.startsWithCount _

theorem WritesAll.readParts {written : List Token} {regex : Regex}
    (hwrites : WritesAll written regex) : Regex.readParts 0 written = .ok regex := by
  induction hwrites with
  | nil => rfl
  | part hown count hrest ih =>
      rw [Regex.readParts_append hown.ne_nil (hown.read _) hrest.startsWithCount, ih]
      rfl

theorem Writes.not_mem_escape {own : List Token} {single : Single} (hown : Writes own single) :
    .plain '\\' ∉ own := by
  cases hown with
  | any => simp
  | noSlash => simp
  | literal c => simpa using (tokenOf_ne_plain rfl c).symm
  | oneOf _ _ => simpa using not_mem_memberTokens _

theorem WritesAll.not_mem_escape {written : List Token} {regex : Regex}
    (hwrites : WritesAll written regex) : .plain '\\' ∉ written := by
  induction hwrites with
  | nil => simp
  | part hown count _ ih =>
      have hsign : .plain '\\' ∉ count.sign := by
        cases count <;> simp [Count.sign]
      simp [hown.not_mem_escape, hsign, ih]

/-- An expression that was written for a glob is read back. -/
theorem WritesAll.read {written : List Token} {regex : Regex} (hwrites : WritesAll written regex) :
    Regex.read (String.ofList (written.flatMap Token.text)) = .ok regex := by
  rw [Regex.read, String.toList_ofList, Regex.tokens_flatMap_text hwrites.not_mem_escape, ok_bind,
    hwrites.readParts]

/-! ## Writing the expression -/

theorem translateClass_eq (s : List Char) :
    translateClass s = (readClass s).map fun (_, width) =>
      ((.plain '[' :: (memberTokens (s.takeWhile (· ≠ ']')) ++ [.plain ']'])).flatMap Token.text,
        width) := by
  have hbrackets : (Token.plain '[').text = ['['] ∧ (Token.plain ']').text = [']'] := ⟨rfl, rfl⟩
  simp only [translateClass, readClass]
  split
  · rfl
  · split
    · rfl
    · rw [translateMembers_eq]
      cases readRanges (s.takeWhile (· ≠ ']')) <;> simp [Except.map, hbrackets]

theorem translateFrom_eq_drop (skip : Nat) (quantifiable : Bool) (position : Nat) (s : List Char) :
    translateFrom skip quantifiable position s =
      translateFrom 0 quantifiable (position + skip) (s.drop skip) := by
  induction s generalizing skip position with
  | nil => rw [List.drop_nil, translateFrom, translateFrom]
  | cons c rest ih =>
      cases skip with
      | zero => rfl
      | succ skip =>
          rw [translateFrom, ih, List.drop_succ_cons, Nat.add_right_comm, Nat.add_assoc]

/-- One step of the reader, and then the text behind what it read. -/
theorem translateFrom_append {quantifiable after : Bool} {position : Nat}
    {lexeme s text : List Char} (hne : lexeme ≠ [])
    (hnext : translateNext quantifiable position (lexeme ++ s) =
      .ok ⟨text, lexeme.length, after⟩) :
    translateFrom 0 quantifiable position (lexeme ++ s) =
      (translateFrom 0 after (position + lexeme.length) s).map (text ++ ·) := by
  obtain ⟨c, tail, rfl⟩ := List.exists_cons_of_ne_nil hne
  rw [List.cons_append] at hnext ⊢
  rw [translateFrom, hnext, ok_bind]
  simp only [List.length_cons, Nat.add_sub_cancel]
  rw [translateFrom_eq_drop, List.drop_left, Nat.add_right_comm, Nat.add_assoc]
  rfl

/-- Whether a quantifier may follow an item. -/
def Item.quantifiable : Item → Bool
  | atom _ .once => true
  | _ => false

/-- Whether a quantifier may follow a row of items, which stands behind something else. -/
def quantifiableAfter (before : Bool) (items : List Item) : Bool :=
  items.foldl (fun _ item => item.quantifiable) before

theorem Atom.Written.translateNext {a : Atom} {lexeme : List Char} (hwritten : a.Written lexeme)
    (quantifiable : Bool) (position : Nat) (s : List Char) :
    ∃ own, Writes own a.single ∧ Glob.translateNext quantifiable position (lexeme ++ s) =
      .ok ⟨own.flatMap Token.text, lexeme.length, true⟩ := by
  cases hwritten with
  | @plain c hplain =>
      refine ⟨[tokenOf c], .literal c, ?_⟩
      rw [List.flatMap_singleton, text_tokenOf, List.singleton_append]
      unfold Glob.translateNext
      split <;> simp_all [IsSpecial]
  | escaped c =>
      refine ⟨[tokenOf c], .literal c, ?_⟩
      rw [List.flatMap_singleton, text_tokenOf]
      rfl
  | @oneOf body ranges hne hbody hranges =>
      refine ⟨_, .oneOf hne hranges, ?_⟩
      have hclass : readClass (body ++ ']' :: s) = .ok (.oneOf ranges, body.length + 1) :=
        readClass_eq_ok_iff.mpr ⟨body, s, ranges, rfl, hbody, hne, hranges, rfl, rfl⟩
      rw [List.cons_append, List.append_assoc, List.singleton_append, Glob.translateNext,
        translateClass_eq, hclass, Text.takeWhile_ne_append hbody]
      simp [Except.map]

theorem translateNext_star {s : List Char} (hends : s.head? ≠ some '*') (quantifiable : Bool)
    (position : Nat) : translateNext quantifiable position ('*' :: s) =
      .ok ⟨['[', '^', '/', ']', '*'], 1, false⟩ := by
  rw [translateNext]
  rintro rest rfl
  exact hends rfl

theorem Repeat.translateFrom_mark (a : Atom) (times : Repeat) (position : Nat) (s : List Char) :
    translateFrom 0 true position (times.mark ++ s) =
      (translateFrom 0 (Item.atom a times).quantifiable (position + times.mark.length) s).map
        (times.count.sign.flatMap Token.text ++ ·) := by
  cases times with
  | once => exact (map_nil_append _).symm
  | optional => exact translateFrom_append (by simp [mark]) rfl
  | many => exact translateFrom_append (by simp [mark]) rfl

/-- An item is written as its part with the sign of its count. -/
theorem Item.Written.translateFrom {item : Item} {lexeme s : List Char}
    (hwritten : item.Written lexeme) (hends : item.EndsBefore s) (quantifiable : Bool)
    (position : Nat) :
    ∃ own, Writes own item.part.single ∧
      Glob.translateFrom 0 quantifiable position (lexeme ++ s) =
        (Glob.translateFrom 0 item.quantifiable (position + lexeme.length) s).map
          ((own ++ item.part.count.sign).flatMap Token.text ++ ·) := by
  cases hwritten with
  | star => exact ⟨_, .noSlash, translateFrom_append (by simp) (translateNext_star hends _ _)⟩
  | doubleStar => exact ⟨_, .any, translateFrom_append (by simp) rfl⟩
  | @atom a lexeme hatom times =>
      obtain ⟨own, hown, hnext⟩ := hatom.translateNext quantifiable position (times.mark ++ s)
      refine ⟨own, hown, ?_⟩
      rw [List.append_assoc, translateFrom_append hatom.ne_nil hnext, times.translateFrom_mark a,
        map_append_append, List.length_append, ← Nat.add_assoc, ← List.flatMap_append]
      rfl

/-- A row of items is written part by part, in front of what is written for the rest. -/
theorem Spells.translateFrom {front rest : List Char} {items : List Item}
    (hspells : Spells front items) (hends : ∀ item ∈ items.getLast?, item.EndsBefore rest)
    (quantifiable : Bool) (position : Nat) :
    ∃ written, WritesAll written (items.map Item.part) ∧
      Glob.translateFrom 0 quantifiable position (front ++ rest) =
        (Glob.translateFrom 0 (quantifiableAfter quantifiable items) (position + front.length)
          rest).map (written.flatMap Token.text ++ ·) := by
  induction hspells generalizing quantifiable position with
  | nil => exact ⟨[], .nil, (map_nil_append _).symm⟩
  | @item item lexeme more items hwritten hnext hitems ih =>
      obtain ⟨hfirst, hlast⟩ := hitems.ends_cons_iff.mp ⟨hnext, hends⟩
      obtain ⟨own, hown, hwrites⟩ := hwritten.translateFrom hfirst quantifiable position
      obtain ⟨written, hall, hrest⟩ := ih hlast item.quantifiable (position + lexeme.length)
      refine ⟨own ++ (item.part.count.sign ++ written), .part hown _ hall, ?_⟩
      rw [List.append_assoc, hwrites, hrest, map_append_append, List.length_append, ← Nat.add_assoc,
        ← List.flatMap_append, List.append_assoc own]
      rfl

/-- Only an atom without a count lets a quantifier follow a row of items. -/
theorem quantifiableAfter_eq_false {items : List Item}
    (hbefore : ∀ a, items.getLast? ≠ some (.atom a .once)) :
    quantifiableAfter false items = false := by
  rcases items.eq_nil_or_concat with rfl | ⟨front, last, rfl⟩
  · rfl
  · rw [List.concat_eq_append] at hbefore ⊢
    rw [quantifiableAfter, List.foldl_append]
    change last.quantifiable = false
    unfold Item.quantifiable
    split
    · next a => exact absurd List.getLast?_concat (hbefore a)
    · rfl

/-- The reader stops at a fault, whatever it wrote before it. -/
theorem FaultAt.translateNext {items : List Item} {position : Nat} {s : List Char} {fault : Fault}
    (hfault : FaultAt items position s fault) :
    Glob.translateNext (quantifiableAfter false items) position s = .error fault := by
  cases hfault with
  | nothingToRepeat hmark hbefore =>
      rw [quantifiableAfter_eq_false hbefore]
      rcases hmark with rfl | rfl <;> rfl
  | inClass hclass =>
      rw [Glob.translateNext, translateClass_eq, readClass_eq_error_iff.mpr hclass]
      rfl
  | danglingEscape => rfl

theorem Faulty.translateFrom {s : List Char} {fault : Fault} (hfaulty : Faulty s fault) :
    Glob.translateFrom 0 false 0 s = .error fault := by
  obtain ⟨front, items, rest, rfl, hspells, hfault⟩ := hfaulty
  obtain ⟨written, _, hwrites⟩ := hspells.translateFrom hfault.ends false 0
  have hstop := hfault.translateNext
  rw [hwrites, Nat.zero_add]
  cases rest with
  | nil => cases hfault
  | cons c rest =>
      rw [Glob.translateFrom, hstop]
      rfl

/-! ## Accepted and refused patterns -/

theorem expressionOf_of_ne_empty {pattern : String} (hne : pattern ≠ "") :
    expressionOf pattern =
      ((translateFrom 0 false 0 pattern.toList).map String.ofList).mapError (⟨pattern, ·⟩) := by
  have hisEmpty : ¬ pattern.isEmpty = true := fun h => hne (String.isEmpty_iff.mp h)
  simp only [expressionOf, if_neg hisEmpty]

theorem expressionOf_of_parse_ok {pattern : String} {glob : Glob}
    (hparse : parse pattern = .ok glob) :
    ∃ text, expressionOf pattern = .ok text ∧ Regex.read text = .ok (glob.map Item.part) := by
  obtain ⟨hne, hspells⟩ := parse_eq_ok_iff.mp hparse
  have hends : ∀ item ∈ glob.getLast?, item.EndsBefore [] := fun item _ => item.endsBefore_nil
  obtain ⟨written, hall, hwrites⟩ := hspells.translateFrom hends false 0
  rw [List.append_nil] at hwrites
  refine ⟨_, ?_, hall.read⟩
  rw [expressionOf_of_ne_empty hne, hwrites, translateFrom]
  simp [Except.map, Except.mapError]

theorem expressionOf_of_parse_error {pattern : String} {error : PatternError}
    (hparse : parse pattern = .error error) : expressionOf pattern = .error error := by
  by_cases hempty : pattern = ""
  · subst hempty
    cases hparse
    rfl
  · obtain ⟨own, fault⟩ := error
    obtain ⟨rfl, ⟨hnone, _⟩ | hfaulty⟩ := parse_eq_error_iff.mp hparse
    · exact absurd hnone hempty
    · rw [expressionOf_of_ne_empty hempty, hfaulty.translateFrom]
      rfl

/-- A pattern is accepted exactly if it is a row of one or more written items. Any other pattern is
refused, for being empty or for the fault at the place where the items before it end, and by both
readers alike. What is written for an accepted pattern is an expression again, and it matches the names
that the glob accepts. -/
theorem accepted_exactly_in_grammar (pattern : String) :
    ((∃ glob, parse pattern = .ok glob) ↔ ∃ lexemes : List (List Char), lexemes ≠ [] ∧
      (∀ lexeme ∈ lexemes, ∃ item : Item, item.Written lexeme) ∧
        pattern.toList = lexemes.flatten) ∧
    (∀ error, parse pattern = .error error ↔ error.pattern = pattern ∧
      (pattern = "" ∧ error.fault = .empty ∨ Faulty pattern.toList error.fault)) ∧
    (∀ error, expressionOf pattern = .error error ↔ parse pattern = .error error) ∧
    ∀ text, expressionOf pattern = .ok text → ∃ glob regex, parse pattern = .ok glob ∧
      Regex.read text = .ok regex ∧
        ∀ name, Regex.Matches regex name ↔ glob.accepts name = true := by
  refine ⟨exists_parse_iff, fun error => parse_eq_error_iff, ?_, ?_⟩
  · intro error
    refine ⟨fun herror => ?_, expressionOf_of_parse_error⟩
    cases hparse : parse pattern with
    | error own =>
        cases (expressionOf_of_parse_error hparse).symm.trans herror
        rfl
    | ok glob =>
        obtain ⟨text, htext, _⟩ := expressionOf_of_parse_ok hparse
        cases htext.symm.trans herror
  · intro text htext
    cases hparse : parse pattern with
    | error own => cases htext.symm.trans (expressionOf_of_parse_error hparse)
    | ok glob =>
        obtain ⟨own, hown, hread⟩ := expressionOf_of_parse_ok hparse
        cases htext.symm.trans hown
        exact ⟨glob, _, rfl, hread, fun name => matches_part_iff⟩

/-- Three stars, of which the first two are one item, between a quantified class that ends in a hyphen
and an optional character: the pattern becomes an expression, which matches across a slash. A count
behind three stars has nothing to be for. -/
theorem accepted_exactly_in_grammar_stars :
    (∃ regex, Regex.read "[a-c\\-]+.*[^/]*x?" = .ok regex ∧ Regex.Matches regex "c-b/d\n") ∧
      Faulty "a***?".toList (.nothingToRepeat '?' 4) := by
  constructor
  · obtain ⟨_, _, _, hread⟩ := accepted_exactly_in_grammar "[a-c-]+***x?"
    obtain ⟨glob, regex, hglob, hregex, hmatches⟩ := hread _ rfl
    refine ⟨regex, hregex, (hmatches _).mpr ?_⟩
    have hparse : parse "[a-c-]+***x?" = .ok [.atom (.oneOf [('a', 'c'), ('-', '-')]) .many,
        .doubleStar, .star, .atom (.char 'x') .optional] := by decide
    cases hglob.symm.trans hparse
    decide
  · obtain ⟨_, hrefused, _, _⟩ := accepted_exactly_in_grammar "a***?"
    have hparse : parse "a***?" = .error ⟨"a***?", .nothingToRepeat '?' 4⟩ := by decide
    obtain ⟨_, ⟨hempty, _⟩ | hfaulty⟩ := (hrefused _).mp hparse
    · exact absurd hempty (by decide)
    · exact hfaulty

end CiPipeline.Glob
