import CiPipeline.Proofs.Document.Meaning

/-!
Ways to write events. An event of which nothing is said may stand for itself, in a list or over an empty or
missing body, and of listed events it only counts which they are: an event may be listed again.
-/

namespace CiPipeline
namespace Document

/-- Some events are a list, and one of them has parts. -/
def EventsHaveParts (events : Value) : Prop :=
  ∃ listed, events.listed? = some listed ∧ ∃ event ∈ listed, event.HasParts

/-- Two values say the same of events, but for the issues in them. -/
structure EventsAgree (first second : Value) : Prop where
  parts : EventsHaveParts first ↔ EventsHaveParts second
  meaning_eq : (EventsDocument.read first).meaning? = (EventsDocument.read second).meaning?

/-- The ways to write that there is one event, of which nothing is said. -/
def loneEvent (name : String) : List Value :=
  [.text name, .list [.text name], .mapping [(.text name, .mapping [])], .mapping [(.text name, .null)]]

/-- The ways to write that runs may be started by hand. -/
def byHand : List Value :=
  [.null, .mapping [], .bool true]

/-- Two ways to write the same events. -/
inductive EventsRespelled : Value → Value → Prop
  | lone (name : String) {first second : Value} (hfirst : first ∈ loneEvent name)
      (hsecond : second ∈ loneEvent name) : EventsRespelled first second
  | repeated {first second event : Value} {before after : List Value}
      (hfirst : first.listed? = some (before ++ after))
      (hsecond : second.listed? = some (before ++ event :: after)) (hknown : event ∈ before ++ after) :
      EventsRespelled first second
  | byHand {first second body body' : Value} (hbody : body ∈ byHand) (hbody' : body' ∈ byHand)
      (hreplaces : Replaces (.text "manual") body body' first second) : EventsRespelled first second

/-! ## Events of which nothing is said -/

/-- The names that an event may have. -/
def eventNames : List String :=
  ["push", "pull_request", "manual"]

theorem fst_complete (key value : Value) : (EventsDocument.complete key value).1 = key := by
  unfold EventsDocument.complete
  split <;> rfl

/-- An event without a body is one with an empty body, if there is an event of the name. -/
theorem complete_null {name : String} (hname : name ∈ eventNames) :
    EventsDocument.complete (.text name) .null = EventsDocument.complete (.text name) (.mapping []) := by
  simp only [eventNames, List.mem_cons, List.not_mem_nil, or_false] at hname
  rcases hname with rfl | rfl | rfl <;> rfl

/-- Entries of which one has a name that no event has mean no events. -/
theorem meaning?_readFull_strange {name : String} (hname : name ∉ eventNames) {fields : Fields}
    {value : Value} (hentry : (.text name, value) ∈ fields) :
    (EventsDocument.readFull (.mapping fields)).meaning? = none := by
  unfold EventsDocument.readFull
  rw [meaning?_objectOf (Value.entries?_mapping fields), if_pos]
  right
  have hcontains : ["push", "pull_request", "manual"].contains name = false := by
    simpa [eventNames] using hname
  have hstrange : stranger? ["push", "pull_request", "manual"] fields (.text name) =
      some ⟨[Value.place (.text name)], .extraForbidden⟩ := by
    simp only [stranger?, readText, hcontains, Bool.false_and, Bool.false_eq_true, if_false]
  intro hnone
  have hmem : ⟨[Value.place (.text name)], .extraForbidden⟩ ∈
      strangers ["push", "pull_request", "manual"] fields :=
    List.mem_filterMap.mpr ⟨(.text name, value), hentry, hstrange⟩
  rw [hnone] at hmem
  cases hmem

theorem expand_of_entries? {events : Value} {entries : Fields} (hentries : events.entries? = some entries) :
    EventsDocument.expand events =
      .mapping (entries.map fun entry => EventsDocument.complete entry.1 entry.2) := by
  have hopened : events.opened = .mapping entries := by
    unfold Value.entries? at hentries
    split at hentries
    · next own hown =>
        cases hentries
        exact hown
    · cases hentries
  have hown : EventsDocument.entriesOf? events = some entries := by
    unfold EventsDocument.entriesOf?
    split
    · cases hopened
    · next hlisted =>
        rw [Value.listed?, hopened] at hlisted
        cases hlisted
    · exact hentries
  rw [EventsDocument.expand, hown]

theorem expand_of_listed? {events : Value} {listed : List Value} (hlisted : events.listed? = some listed) :
    EventsDocument.expand events = .mapping ((EventsDocument.bare listed).map fun entry =>
      EventsDocument.complete entry.1 entry.2) := by
  have hown : EventsDocument.entriesOf? events = some (EventsDocument.bare listed) := by
    unfold EventsDocument.entriesOf?
    split
    · cases hlisted
    · next names hnames =>
        cases hlisted.symm.trans hnames
        rfl
    · next hnone => cases hlisted.symm.trans hnone
  rw [EventsDocument.expand, hown]

/-- However a lone event is written, it is read as the event over an empty body. -/
theorem meaning?_read_loneEvent {name : String} {events : Value} (hevents : events ∈ loneEvent name) :
    (EventsDocument.read events).meaning? = (EventsDocument.readFull
      (.mapping [EventsDocument.complete (.text name) (.mapping [])])).meaning? := by
  simp only [loneEvent, List.mem_cons, List.not_mem_nil, or_false] at hevents
  rcases hevents with rfl | rfl | rfl | rfl
  · rfl
  · rfl
  · rfl
  · rw [EventsDocument.read, expand_of_entries? (Value.entries?_mapping _)]
    by_cases hname : name ∈ eventNames
    · rw [List.map_singleton, complete_null hname]
    · have hstrange : ∀ value, (Value.text name, (EventsDocument.complete (.text name) value).2) ∈
          [EventsDocument.complete (.text name) value] := by
        intro value
        rw [List.mem_singleton]
        exact Prod.ext (fst_complete (.text name) value).symm rfl
      rw [List.map_singleton, meaning?_readFull_strange hname (hstrange .null),
        meaning?_readFull_strange hname (hstrange (.mapping []))]

theorem not_eventsHaveParts_loneEvent {name : String} {events : Value}
    (hevents : events ∈ loneEvent name) : ¬ EventsHaveParts events := by
  rintro ⟨listed, hlisted, event, hevent, hparts⟩
  simp only [loneEvent, List.mem_cons, List.not_mem_nil, or_false] at hevents
  rcases hevents with rfl | rfl | rfl | rfl
  · cases hlisted
  · cases hlisted
    cases List.mem_singleton.mp hevent
    cases hparts
  · cases hlisted
  · cases hlisted

theorem complete_byHand {body : Value} (hbody : body ∈ byHand) :
    EventsDocument.complete (.text "manual") body = (.text "manual", .bool true) := by
  simp only [byHand, List.mem_cons, List.not_mem_nil, or_false] at hbody
  rcases hbody with rfl | rfl | rfl <;> rfl

theorem not_eventsHaveParts_of_entries? {events : Value} {entries : Fields}
    (hentries : events.entries? = some entries) : ¬ EventsHaveParts events := by
  rintro ⟨listed, hlisted, _⟩
  unfold Value.entries? at hentries
  unfold Value.listed? at hlisted
  split at hentries
  · next hopened =>
      rw [hopened] at hlisted
      cases hlisted
  · cases hentries

/-! ## Events that are listed again -/

theorem eq_of_sameKey_text {key : Value} {name : String}
    (hsame : Value.sameKey key (.text name) = true) : key = .text name := by
  cases key with
  | text own => simpa [Value.sameKey] using hsame
  | _ => simp [Value.sameKey, Value.asInt?] at hsame

/-- A key that is read as a name is the same as no other one. -/
theorem eq_of_sameKey_readText {key other : Value} {name : String}
    (hread : readText key = .meaning name) (hsame : Value.sameKey key other = true) :
    other = key := by
  cases key with
  | text own => cases other <;> simp_all [Value.sameKey, Value.asInt?]
  | bytes codes => cases other <;> simp_all [Value.sameKey, Value.asInt?]
  | _ => cases hread

theorem map_fst_writeEntry (key value : Value) (entries : Fields) :
    (Value.writeEntry key value entries).map Prod.fst =
      if entries.any (fun entry => Value.sameKey entry.1 key) then entries.map Prod.fst
      else entries.map Prod.fst ++ [key] := by
  induction entries with
  | nil => rfl
  | cons entry rest ih =>
      rw [Value.writeEntry, List.any_cons]
      cases hsame : Value.sameKey entry.1 key with
      | true => simp
      | false =>
          simp only [Bool.false_eq_true, if_false, List.map_cons, ih, Bool.false_or]
          split <;> rfl

theorem field?_writeEntry_self (name : String) (value : Value) (entries : Fields) :
    Value.field? name (Value.writeEntry (.text name) value entries) = some value := by
  induction entries with
  | nil => simp [Value.writeEntry, Value.field?]
  | cons entry rest ih =>
      obtain ⟨key, old⟩ := entry
      rw [Value.writeEntry]
      split
      · next hsame =>
          rw [eq_of_sameKey_text hsame, Value.field?, if_pos rfl]
      · next hother =>
          have hkey : key ≠ .text name := by
            rintro rfl
            exact hother (by simp [Value.sameKey])
          rw [field?_cons_of_ne hkey, ih]

theorem field?_writeEntry_of_ne {name : String} {key : Value} (hkey : key ≠ .text name) (value : Value)
    (entries : Fields) :
    Value.field? name (Value.writeEntry key value entries) = Value.field? name entries := by
  induction entries with
  | nil => exact field?_cons_of_ne hkey []
  | cons entry rest ih =>
      obtain ⟨own, old⟩ := entry
      rw [Value.writeEntry]
      by_cases hown : own = .text name
      · have hread : readText own = .meaning name := by
          rw [hown]
          rfl
        have hother : Value.sameKey own key = false := by
          rw [← Bool.not_eq_true]
          intro hsame
          exact hkey ((eq_of_sameKey_readText hread hsame).trans hown)
        rw [if_neg (by simp [hother]), hown, Value.field?, Value.field?]
        split
        · rfl
        · exact ih
      · split
        · rw [field?_cons_of_ne hown, field?_cons_of_ne hown]
        · rw [field?_cons_of_ne hown, field?_cons_of_ne hown, ih]

theorem bare_concat (listed : List Value) (event : Value) :
    EventsDocument.bare (listed ++ [event]) =
      Value.writeEntry event (.mapping []) (EventsDocument.bare listed) := by
  simp [EventsDocument.bare, Value.writeEntries]

/-- The keys of bare events are some of the events. -/
theorem mem_of_mem_bare {listed : List Value} {key : Value}
    (hkey : key ∈ (EventsDocument.bare listed).map Prod.fst) : key ∈ listed := by
  induction listed using List.reverseRecOn with
  | nil => cases hkey
  | append_singleton listed event ih =>
      rw [bare_concat, map_fst_writeEntry] at hkey
      split at hkey
      · exact List.mem_append_left _ (ih hkey)
      · rcases List.mem_append.mp hkey with hbefore | hlast
        · exact List.mem_append_left _ (ih hbefore)
        · exact List.mem_append_right _ hlast

/-- Each event is a key of the bare events, or the same key as another one. -/
theorem exists_mem_bare {listed : List Value} {event : Value} (hevent : event ∈ listed) :
    ∃ key ∈ (EventsDocument.bare listed).map Prod.fst,
      key = event ∨ Value.sameKey key event = true := by
  induction listed using List.reverseRecOn with
  | nil => cases hevent
  | append_singleton listed last ih =>
      rw [bare_concat, map_fst_writeEntry]
      rcases List.mem_append.mp hevent with hbefore | hlast
      · obtain ⟨key, hkey, hsame⟩ := ih hbefore
        refine ⟨key, ?_, hsame⟩
        split
        · exact hkey
        · exact List.mem_append_left _ hkey
      · cases List.mem_singleton.mp hlast
        split
        · next hknown =>
            obtain ⟨entry, hentry, hsame⟩ := List.any_eq_true.mp hknown
            exact ⟨entry.1, List.mem_map_of_mem hentry, Or.inr hsame⟩
        · exact ⟨event, by simp, Or.inl rfl⟩

theorem field?_bare_of_mem {listed : List Value} {name : String} (hname : .text name ∈ listed) :
    Value.field? name (EventsDocument.bare listed) = some (.mapping []) := by
  induction listed using List.reverseRecOn with
  | nil => cases hname
  | append_singleton listed last ih =>
      rw [bare_concat]
      by_cases hlast : last = .text name
      · rw [hlast, field?_writeEntry_self]
      · rw [field?_writeEntry_of_ne hlast]
        rcases List.mem_append.mp hname with hbefore | hown
        · exact ih hbefore
        · exact absurd (List.mem_singleton.mp hown).symm hlast

theorem field?_bare_of_not_mem {listed : List Value} {name : String} (hname : .text name ∉ listed) :
    Value.field? name (EventsDocument.bare listed) = none := by
  induction listed using List.reverseRecOn with
  | nil => rfl
  | append_singleton listed last ih =>
      rw [List.mem_append, List.mem_singleton, not_or] at hname
      rw [bare_concat, field?_writeEntry_of_ne (Ne.symm hname.2), ih hname.1]

/-- The entries of listed events in full. -/
def listedFields (names : List Value) : Fields :=
  (EventsDocument.bare names).map fun entry => EventsDocument.complete entry.1 entry.2

theorem map_fst_listedFields (names : List Value) :
    (listedFields names).map Prod.fst = (EventsDocument.bare names).map Prod.fst := by
  simp only [listedFields, List.map_map, Function.comp_def, fst_complete]

theorem field?_map_complete (name : String) (fields : Fields) :
    Value.field? name (fields.map fun entry => EventsDocument.complete entry.1 entry.2) =
      (Value.field? name fields).map fun value => (EventsDocument.complete (.text name) value).2 := by
  induction fields with
  | nil => rfl
  | cons entry rest ih =>
      obtain ⟨key, value⟩ := entry
      have hentry : EventsDocument.complete key value =
          (key, (EventsDocument.complete key value).2) :=
        Prod.ext (fst_complete key value) rfl
      rw [List.map_cons, hentry]
      by_cases hkey : key = .text name
      · subst hkey
        simp only [Value.field?, if_true, Option.map_some]
      · rw [field?_cons_of_ne hkey, field?_cons_of_ne hkey, ih]

theorem isSome_field?_listedFields {names : List Value} {name : String} :
    (Value.field? name (listedFields names)).isSome ↔ .text name ∈ names := by
  rw [listedFields, field?_map_complete, Option.isSome_map]
  by_cases hname : .text name ∈ names
  · simp [field?_bare_of_mem hname, hname]
  · simp [field?_bare_of_not_mem hname, hname]

/-- A listed event that may be said: it is one of the events, and bytes stand beside the same text. -/
def Sayable (names : List Value) (event : Value) : Prop :=
  isUnnameable event = false ∧
    ∃ name ∈ eventNames, readText event = .meaning name ∧ .text name ∈ names

/-- The keys of listed events are its fields if each of the events may be said. -/
theorem ownFields_listedFields_iff {names : List Value} :
    ¬ ((listedFields names).any (fun entry => isUnnameable entry.1) = true ∨
        strangers eventNames (listedFields names) ≠ []) ↔
      ∀ event ∈ names, Sayable names event := by
  have hkeys : ¬ ((listedFields names).any (fun entry => isUnnameable entry.1) = true ∨
        strangers eventNames (listedFields names) ≠ []) ↔
      ∀ key ∈ (listedFields names).map Prod.fst, isUnnameable key = false ∧
        stranger? eventNames (listedFields names) key = none := by
    simp [strangers, List.filterMap_eq_nil_iff, not_or, forall_and]
  have hown : ∀ key, stranger? eventNames (listedFields names) key = none ↔
      ∃ name ∈ eventNames, readText key = .meaning name ∧ .text name ∈ names := by
    intro key
    unfold stranger?
    cases readText key with
    | refused issues => simp
    | meaning name =>
        simp [isSome_field?_listedFields]
  rw [hkeys]
  simp only [hown, map_fst_listedFields]
  constructor
  · intro hsayable event hevent
    obtain ⟨key, hkey, heq | hsame⟩ := exists_mem_bare hevent
    · exact heq ▸ hsayable key hkey
    · obtain ⟨hnameable, name, hname, hread, hlisted⟩ := hsayable key hkey
      rw [eq_of_sameKey_readText hread hsame]
      exact ⟨hnameable, name, hname, hread, hlisted⟩
  · intro hsayable key hkey
    exact hsayable key (mem_of_mem_bare hkey)

/-- Of listed events it only counts which they are. -/
theorem meaning?_listedFields_congr {names names' : List Value}
    (hmem : ∀ event, event ∈ names ↔ event ∈ names') :
    (EventsDocument.readFull (.mapping (listedFields names))).meaning? =
      (EventsDocument.readFull (.mapping (listedFields names'))).meaning? := by
  have hfield : ∀ name, Value.field? name (listedFields names) =
      Value.field? name (listedFields names') := by
    intro name
    simp only [listedFields, field?_map_complete]
    by_cases hname : .text name ∈ names
    · rw [field?_bare_of_mem hname, field?_bare_of_mem ((hmem _).mp hname)]
    · rw [field?_bare_of_not_mem hname, field?_bare_of_not_mem (mt (hmem _).mpr hname)]
  have hsayable : (∀ event ∈ names, Sayable names event) ↔ ∀ event ∈ names', Sayable names' event := by
    simp only [Sayable, hmem]
  unfold EventsDocument.readFull
  rw [meaning?_objectOf (Value.entries?_mapping _), meaning?_objectOf (Value.entries?_mapping _)]
  have hguard := not_iff_not.mp
    (ownFields_listedFields_iff.trans (hsayable.trans ownFields_listedFields_iff.symm))
  simp only [eventNames] at hguard
  simp only [hguard, optionalField, defaulted, hfield]

theorem eventsHaveParts_listed_congr {first second : Value} {names names' : List Value}
    (hfirst : first.listed? = some names) (hsecond : second.listed? = some names')
    (hmem : ∀ event, event ∈ names ↔ event ∈ names') :
    EventsHaveParts first ↔ EventsHaveParts second := by
  simp only [EventsHaveParts, hfirst, hsecond, Option.some.injEq, exists_eq_left', hmem]

/-! ## Respelled events -/

theorem eventsAgree_of_respelled {events events' : Value} (hevents : EventsRespelled events events') :
    EventsAgree events events' := by
  cases hevents with
  | lone name hfirst hsecond =>
      constructor
      · exact iff_of_false (not_eventsHaveParts_loneEvent hfirst)
          (not_eventsHaveParts_loneEvent hsecond)
      · rw [meaning?_read_loneEvent hfirst, meaning?_read_loneEvent hsecond]
  | @repeated _ _ event before after hfirst hsecond hknown =>
      have hmem : ∀ own, own ∈ before ++ after ↔ own ∈ before ++ event :: after := by
        intro own
        rw [List.mem_append, List.mem_append, List.mem_cons] at *
        constructor
        · tauto
        · rintro (hown | rfl | hown)
          · exact Or.inl hown
          · exact hknown
          · exact Or.inr hown
      constructor
      · exact eventsHaveParts_listed_congr hfirst hsecond hmem
      · rw [EventsDocument.read, EventsDocument.read, expand_of_listed? hfirst,
          expand_of_listed? hsecond]
        exact meaning?_listedFields_congr hmem
  | byHand hbody hbody' hreplaces =>
      obtain ⟨before, after, hentries, hentries'⟩ := hreplaces
      constructor
      · exact iff_of_false (not_eventsHaveParts_of_entries? hentries)
          (not_eventsHaveParts_of_entries? hentries')
      · rw [EventsDocument.read, EventsDocument.read, expand_of_entries? hentries,
          expand_of_entries? hentries', List.map_append, List.map_append, List.map_cons,
          List.map_cons, complete_byHand hbody, complete_byHand hbody']

end Document
end CiPipeline
