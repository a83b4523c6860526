/-!
Tables: entries in the order in which their keys were first written, every key having one entry.
Environments, secret references and matrix axes are such tables. A later value for a key replaces the
earlier one where it stands, so the order of the keys never depends on how often one was written.
-/

namespace CiPipeline

/-- Some entries with distinct keys, in the order of their first writing. -/
structure Table (κ β : Type) where
  entries : List (κ × β)
  nodup_keys : (entries.map Prod.fst).Nodup := by simp
  deriving DecidableEq, Repr

namespace Table

variable {κ β γ : Type}

/-- The table without entries. -/
def empty : Table κ β where
  entries := []

instance : Inhabited (Table κ β) := ⟨empty⟩

/-- The keys, in order. -/
def keys (table : Table κ β) : List κ :=
  table.entries.map Prod.fst

/-- The values, in the order of their keys. -/
def values (table : Table κ β) : List β :=
  table.entries.map Prod.snd

/-- The table with each value replaced by its image. -/
def mapValues (f : β → γ) (table : Table κ β) : Table κ γ where
  entries := table.entries.map fun entry => (entry.1, f entry.2)
  nodup_keys := by simpa [Function.comp_def] using table.nodup_keys

/-- The entries whose key and value pass a test. -/
def filter (p : κ → β → Bool) (table : Table κ β) : Table κ β where
  entries := table.entries.filter fun entry => p entry.1 entry.2
  nodup_keys := table.nodup_keys.sublist (List.filter_sublist.map Prod.fst)

variable [DecidableEq κ]

/-- The value of a key among some entries: that of the first entry with the key. -/
def lookup (key : κ) : List (κ × β) → Option β
  | [] => none
  | (k, value) :: rest => if k = key then some value else lookup key rest

/-- The value of a key. -/
def get? (table : Table κ β) (key : κ) : Option β :=
  lookup key table.entries

/-- Whether a key has an entry. -/
def contains (table : Table κ β) (key : κ) : Bool :=
  (table.get? key).isSome

/-- Some entries with one value written: in the place of the key, or at the end. -/
def write (key : κ) (value : β) : List (κ × β) → List (κ × β)
  | [] => [(key, value)]
  | (k, old) :: rest => if k = key then (k, value) :: rest else (k, old) :: write key value rest

theorem map_fst_write (key : κ) (value : β) (entries : List (κ × β)) :
    (write key value entries).map Prod.fst =
      if key ∈ entries.map Prod.fst then entries.map Prod.fst
      else entries.map Prod.fst ++ [key] := by
  induction entries with
  | nil => simp [write]
  | cons entry rest ih =>
    obtain ⟨k, old⟩ := entry
    by_cases h : k = key
    · simp [write, h]
    · have h' : key ≠ k := fun e => h e.symm
      simp only [write, h, if_false, List.map_cons, ih, List.mem_cons, h', false_or]
      split <;> simp

theorem nodup_map_fst_write (key : κ) (value : β) {entries : List (κ × β)}
    (h : (entries.map Prod.fst).Nodup) : ((write key value entries).map Prod.fst).Nodup := by
  rw [map_fst_write]
  split
  · exact h
  · next hk =>
    rw [List.nodup_append]
    exact ⟨h, by simp, fun a ha b hb => by
      rw [List.mem_singleton] at hb
      exact fun e => hk (hb ▸ e ▸ ha)⟩

/-- The table with one value written. -/
def insert (table : Table κ β) (key : κ) (value : β) : Table κ β where
  entries := write key value table.entries
  nodup_keys := nodup_map_fst_write key value table.nodup_keys

/-- The table with some entries written one after the other. -/
def insertAll (table : Table κ β) (entries : List (κ × β)) : Table κ β :=
  entries.foldl (fun table entry => table.insert entry.1 entry.2) table

/-- The table that some entries leave when written one after the other. -/
def ofList (entries : List (κ × β)) : Table κ β :=
  empty.insertAll entries

/-- One table written over another. -/
def merge (table more : Table κ β) : Table κ β :=
  table.insertAll more.entries

/-- The table with a value for a key that had none; a key that has one keeps it. -/
def insertNew (table : Table κ β) (key : κ) (value : β) : Table κ β :=
  if table.contains key then table else table.insert key value

/-- Whether two tables give every key the same value, in whatever order. -/
def sameEntries [DecidableEq β] (a b : Table κ β) : Bool :=
  a.entries.length == b.entries.length &&
    a.entries.all fun entry => b.get? entry.1 == some entry.2

theorem lookup_write (key key' : κ) (value : β) (entries : List (κ × β)) :
    lookup key' (write key value entries) =
      if key = key' then some value else lookup key' entries := by
  induction entries with
  | nil => simp [write, lookup]
  | cons entry rest ih =>
    obtain ⟨k, old⟩ := entry
    by_cases h : k = key
    · subst h
      by_cases h' : k = key' <;> simp [write, lookup, h']
    · by_cases h' : k = key'
      · subst h'
        have h'' : ¬ key = k := fun e => h e.symm
        simp [write, lookup, h, h'']
      · simp [write, lookup, h, h', ih]

theorem get?_insert (table : Table κ β) (key key' : κ) (value : β) :
    (table.insert key value).get? key' = if key = key' then some value else table.get? key' :=
  lookup_write key key' value table.entries

theorem get?_empty (key : κ) : (empty : Table κ β).get? key = none := rfl

end Table
end CiPipeline
