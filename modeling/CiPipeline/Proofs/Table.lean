import CiPipeline.Table
import Mathlib.Data.List.Induction

/-!
What a table answers after it was written, filtered or merged. Every statement is about the value of
a key or about the order of the entries, so that nothing later has to open a write.
-/

namespace CiPipeline.Table

variable {κ β : Type} [DecidableEq κ]

theorem lookup_eq_some_iff {key : κ} {value : β} {entries : List (κ × β)}
    (hnodup : (entries.map Prod.fst).Nodup) :
    lookup key entries = some value ↔ (key, value) ∈ entries := by
  induction entries with
  | nil => simp [lookup]
  | cons entry rest ih =>
      obtain ⟨k, old⟩ := entry
      simp only [List.map_cons, List.nodup_cons] at hnodup
      by_cases hk : k = key
      · subst hk
        have hrest : (k, value) ∉ rest := by
          intro hmem
          exact hnodup.1 (List.mem_map_of_mem hmem)
        simp only [lookup, if_true, Option.some.injEq, List.mem_cons, Prod.mk.injEq,
          true_and, hrest, or_false]
        exact eq_comm
      · have hne : ¬ key = k := fun h => hk h.symm
        simp only [lookup, hk, if_false, List.mem_cons, Prod.mk.injEq, hne, false_and,
          false_or]
        exact ih hnodup.2

theorem get?_eq_some_iff {table : Table κ β} {key : κ} {value : β} :
    table.get? key = some value ↔ (key, value) ∈ table.entries :=
  lookup_eq_some_iff table.nodup_keys

theorem mem_keys_iff {table : Table κ β} {key : κ} :
    key ∈ table.keys ↔ ∃ value, table.get? key = some value := by
  simp only [keys, List.mem_map, get?_eq_some_iff]
  constructor
  · rintro ⟨⟨k, value⟩, hmem, rfl⟩
    exact ⟨value, hmem⟩
  · rintro ⟨value, hmem⟩
    exact ⟨(key, value), hmem, rfl⟩

theorem get?_eq_none_iff {table : Table κ β} {key : κ} :
    table.get? key = none ↔ key ∉ table.keys := by
  rw [mem_keys_iff, Option.eq_none_iff_forall_ne_some, not_exists]

theorem mem_values_iff {table : Table κ β} {value : β} :
    value ∈ table.values ↔ ∃ key, table.get? key = some value := by
  simp only [values, List.mem_map, get?_eq_some_iff]
  constructor
  · rintro ⟨⟨key, v⟩, hmem, rfl⟩
    exact ⟨key, hmem⟩
  · rintro ⟨key, hmem⟩
    exact ⟨(key, value), hmem, rfl⟩

theorem map_get?_keys (table : Table κ β) :
    table.keys.map (fun key => (key, table.get? key)) =
      table.entries.map fun entry => (entry.1, some entry.2) := by
  rw [keys, List.map_map]
  apply List.map_congr_left
  intro entry hentry
  have hget : table.get? entry.1 = some entry.2 := get?_eq_some_iff.mpr hentry
  rw [Function.comp_apply, hget]

/-- Tables with the same keys in one order and the same values for them are the same. -/
theorem ext_of_get? {first second : Table κ β} (hkeys : first.keys = second.keys)
    (hget : ∀ key, first.get? key = second.get? key) : first = second := by
  have hentries := first.map_get?_keys
  simp only [hkeys, hget] at hentries
  rw [second.map_get?_keys] at hentries
  have hsame : second.entries = first.entries := by
    refine (List.map_inj_right ?_).mp hentries
    rintro ⟨key, value⟩ ⟨key', value'⟩ ⟨⟩
    rfl
  cases first
  cases second
  cases hsame
  rfl

theorem get?_filter (p : κ → β → Bool) (table : Table κ β) (key : κ) :
    (table.filter p).get? key = (table.get? key).filter (p key) := by
  ext value
  rw [get?_eq_some_iff, Option.filter_eq_some_iff, get?_eq_some_iff, filter, List.mem_filter]

theorem lookup_map_snd {γ : Type} (f : β → γ) (entries : List (κ × β)) (key : κ) :
    lookup key (entries.map fun entry => (entry.1, f entry.2)) = (lookup key entries).map f := by
  induction entries with
  | nil => rfl
  | cons entry rest ih =>
      obtain ⟨k, value⟩ := entry
      by_cases hk : k = key <;> simp [lookup, hk, ih]

theorem get?_mapValues {γ : Type} (f : β → γ) (table : Table κ β) (key : κ) :
    (table.mapValues f).get? key = (table.get? key).map f :=
  lookup_map_snd f table.entries key

omit [DecidableEq κ] in
theorem keys_mapValues {γ : Type} (f : β → γ) (table : Table κ β) :
    (table.mapValues f).keys = table.keys := by
  simp [keys, mapValues]

theorem keys_insert_of_mem {table : Table κ β} {key : κ} (hkey : key ∈ table.keys) (value : β) :
    (table.insert key value).keys = table.keys := by
  have hkeys := map_fst_write key value table.entries
  rw [if_pos (by simpa [keys] using hkey)] at hkeys
  exact hkeys

theorem mem_keys_insert_iff {table : Table κ β} {key key' : κ} {value : β} :
    key' ∈ (table.insert key value).keys ↔ key' ∈ table.keys ∨ key' = key := by
  have hkeys := map_fst_write key value table.entries
  change (table.insert key value).keys = _ at hkeys
  rw [hkeys]
  split
  · next hmem =>
      refine ⟨Or.inl, ?_⟩
      rintro (hkey | rfl)
      · exact hkey
      · exact hmem
  · rw [List.mem_append, List.mem_singleton]
    rfl

theorem mem_keys_insertAll_iff {table : Table κ β} {entries : List (κ × β)} {key : κ} :
    key ∈ (table.insertAll entries).keys ↔ key ∈ table.keys ∨ key ∈ entries.map Prod.fst := by
  induction entries generalizing table with
  | nil => simp [insertAll]
  | cons entry rest ih =>
      change key ∈ ((table.insert entry.1 entry.2).insertAll rest).keys ↔ _
      rw [ih, mem_keys_insert_iff, List.map_cons, List.mem_cons, or_assoc]

theorem write_of_not_mem {key : κ} (value : β) {entries : List (κ × β)}
    (hkey : key ∉ entries.map Prod.fst) :
    write key value entries = entries ++ [(key, value)] := by
  induction entries with
  | nil => rfl
  | cons entry rest ih =>
      simp only [List.map_cons, List.mem_cons, not_or] at hkey
      have hne : ¬ entry.1 = key := fun h => hkey.1 h.symm
      simp only [write, hne, if_false, ih hkey.2, List.cons_append]

/-- A new key comes after all others. -/
theorem entries_insert_of_not_mem {table : Table κ β} {key : κ} (value : β)
    (hkey : key ∉ table.keys) :
    (table.insert key value).entries = table.entries ++ [(key, value)] :=
  write_of_not_mem value hkey

theorem entries_insertAll_of_nodup {table : Table κ β} {entries : List (κ × β)}
    (hnodup : (table.keys ++ entries.map Prod.fst).Nodup) :
    (table.insertAll entries).entries = table.entries ++ entries := by
  induction entries generalizing table with
  | nil => simp [insertAll]
  | cons entry rest ih =>
      have hnew : entry.1 ∉ table.keys := by
        intro hmem
        rw [List.nodup_append] at hnodup
        exact hnodup.2.2 entry.1 hmem entry.1 (by simp) rfl
      have hinsert := entries_insert_of_not_mem entry.2 hnew
      have hrest : ((table.insert entry.1 entry.2).keys ++ rest.map Prod.fst).Nodup := by
        rw [keys, hinsert]
        simpa [keys] using hnodup
      change ((table.insert entry.1 entry.2).insertAll rest).entries = _
      rw [ih hrest, hinsert, List.append_assoc, List.singleton_append]

/-- Entries with distinct keys make a table of just these entries. -/
theorem entries_ofList_of_nodup {entries : List (κ × β)}
    (hnodup : (entries.map Prod.fst).Nodup) :
    (ofList entries : Table κ β).entries = entries :=
  entries_insertAll_of_nodup hnodup

/-- Entries that all tell the values of one function give their keys these values. -/
theorem get?_insertAll_of_forall {table : Table κ β} {entries : List (κ × β)}
    {value : κ → Option β} (hentries : ∀ entry ∈ entries, value entry.1 = some entry.2) (key : κ) :
    (table.insertAll entries).get? key =
      if key ∈ entries.map Prod.fst then value key else table.get? key := by
  induction entries generalizing table with
  | nil => simp [insertAll]
  | cons entry rest ih =>
      change ((table.insert entry.1 entry.2).insertAll rest).get? key = _
      rw [ih fun other hother => hentries other (List.mem_cons_of_mem entry hother), get?_insert]
      by_cases hrest : key ∈ rest.map Prod.fst
      · simp [hrest]
      · by_cases hkey : entry.1 = key
        · subst hkey
          simp [hrest, hentries entry List.mem_cons_self]
        · simp [hrest, hkey, Ne.symm hkey]

theorem lookup_append (key : κ) (first rest : List (κ × β)) :
    lookup key (first ++ rest) = (lookup key first).or (lookup key rest) := by
  induction first with
  | nil => rfl
  | cons entry first ih =>
      obtain ⟨k, value⟩ := entry
      by_cases hk : k = key <;> simp [lookup, hk, ih]

theorem lookup_eq_find? (key : κ) (entries : List (κ × β)) :
    lookup key entries = (entries.find? fun entry => entry.1 == key).map Prod.snd := by
  induction entries with
  | nil => rfl
  | cons entry rest ih =>
      obtain ⟨k, value⟩ := entry
      by_cases hk : k = key <;> simp [lookup, hk, ih]

/-- Of the entries of one key the last is the one that stays. -/
theorem get?_insertAll (table : Table κ β) (entries : List (κ × β)) (key : κ) :
    (table.insertAll entries).get? key = (lookup key entries.reverse).or (table.get? key) := by
  induction entries generalizing table with
  | nil => rfl
  | cons entry rest ih =>
      change ((table.insert entry.1 entry.2).insertAll rest).get? key = _
      rw [ih, get?_insert, List.reverse_cons, lookup_append, Option.or_assoc]
      by_cases hkey : entry.1 = key <;> simp [lookup, hkey]

theorem get?_ofList (entries : List (κ × β)) (key : κ) :
    (ofList entries).get? key = lookup key entries.reverse := by
  rw [ofList, get?_insertAll, get?_empty, Option.or_none]

/-- The value of a key is that of the last entry with the key. -/
theorem exists_last_of_get?_ofList {entries : List (κ × β)} {key : κ} {value : β}
    (hvalue : (ofList entries).get? key = some value) :
    ∃ before after, entries = before ++ (key, value) :: after ∧ key ∉ after.map Prod.fst := by
  rw [get?_ofList, lookup_eq_find?, Option.map_eq_some_iff] at hvalue
  obtain ⟨⟨own, _⟩, hfound, rfl⟩ := hvalue
  obtain ⟨hkey, front, back, hsplit, hfront⟩ := List.find?_eq_some_iff_append.mp hfound
  have howner : own = key := by simpa using hkey
  subst howner
  refine ⟨back.reverse, front.reverse, ?_, ?_⟩
  · rw [← List.reverse_reverse entries, hsplit]
    simp
  · rintro hmem
    obtain ⟨entry, hentry, hsame⟩ := List.mem_map.mp hmem
    have hother := hfront entry (List.mem_reverse.mp hentry)
    simp [hsame] at hother

/-- The value of the first entry whose key passes a test is that of the first key that does. -/
theorem find?_map_snd {table : Table κ β} {entries : List (κ × β)}
    (hentries : ∀ entry ∈ entries, table.get? entry.1 = some entry.2) (p : κ → Bool) :
    (entries.find? fun entry => p entry.1).map Prod.snd =
      ((entries.map Prod.fst).find? p).bind table.get? := by
  rw [List.find?_map]
  change _ = ((entries.find? fun entry => p entry.1).map Prod.fst).bind table.get?
  cases hfound : entries.find? fun entry => p entry.1 with
  | none => rfl
  | some entry => exact (hentries entry (List.mem_of_find?_eq_some hfound)).symm

theorem get?_merge (table more : Table κ β) (key : κ) :
    (table.merge more).get? key = (more.get? key).or (table.get? key) := by
  have hmore : ∀ entry ∈ more.entries, more.get? entry.1 = some entry.2 :=
    fun _ hentry => get?_eq_some_iff.mpr hentry
  rw [merge, get?_insertAll_of_forall hmore]
  split
  · next hkey =>
      obtain ⟨value, hvalue⟩ := mem_keys_iff.mp hkey
      rw [hvalue, Option.some_or]
  · next hkey => rw [get?_eq_none_iff.mpr hkey, Option.none_or]

theorem mem_keys_ofList_iff {entries : List (κ × β)} {key : κ} :
    key ∈ (ofList entries).keys ↔ key ∈ entries.map Prod.fst := by
  rw [ofList, mem_keys_insertAll_iff]
  exact or_iff_right List.not_mem_nil

/-- The keys that entries leave are theirs, each in the place of its first entry. -/
theorem keys_ofList (entries : List (κ × β)) :
    (ofList entries).keys = (entries.map Prod.fst).eraseDups := by
  induction entries using List.reverseRecOn with
  | nil => rfl
  | append_singleton rest entry ih =>
      have hlast : ofList (rest ++ [entry]) = (ofList rest).insert entry.1 entry.2 := by
        simp only [ofList, insertAll, List.foldl_append, List.foldl_cons, List.foldl_nil]
      have hkeys : ((ofList rest).insert entry.1 entry.2).keys =
          if entry.1 ∈ (ofList rest).keys then (ofList rest).keys
          else (ofList rest).keys ++ [entry.1] :=
        map_fst_write entry.1 entry.2 (ofList rest).entries
      rw [hlast, hkeys, List.map_append, List.eraseDups_append, ih]
      by_cases hold : entry.1 ∈ rest.map Prod.fst <;> simp [hold, List.removeAll, List.eraseDups_cons]

theorem mem_keys_merge_iff {table more : Table κ β} {key : κ} :
    key ∈ (table.merge more).keys ↔ key ∈ table.keys ∨ key ∈ more.keys :=
  mem_keys_insertAll_iff

theorem get?_insertNew (table : Table κ β) (key key' : κ) (value : β) :
    (table.insertNew key value).get? key' =
      (table.get? key').or (if key = key' then some value else none) := by
  unfold insertNew contains
  cases hold : table.get? key with
  | none =>
      by_cases hkey : key = key'
      · subst hkey
        simp [get?_insert, hold]
      · simp [get?_insert, hkey]
  | some old =>
      by_cases hkey : key = key'
      · subst hkey
        simp [hold]
      · simp [hkey]

theorem values_insertNew_of_none {table : Table κ β} {key : κ} (value : β)
    (hkey : table.get? key = none) :
    (table.insertNew key value).values = table.values ++ [value] := by
  have hentries := entries_insert_of_not_mem value (get?_eq_none_iff.mp hkey)
  simp [insertNew, contains, hkey, values, hentries]

end CiPipeline.Table
