import CiPipeline.Proofs.Exposure
import CiPipeline.Proofs.Redaction
import CiPipeline.Proofs.Text.Encoding

/-!
What keeps a step from making its call. A secret that is not known and a directory that does not exist
are complaints, with which the step fails. But looking for the directory of a step may also come to an
error, and that breaks off the whole job.
-/

namespace CiPipeline

/-! ## A name that is too long -/

namespace Path

theorem splitParts_of_not_mem {chars : List Char} (hslash : '/' ∉ chars) :
    splitParts chars = [chars] := by
  induction chars with
  | nil => rfl
  | cons c rest ih =>
      rw [List.mem_cons, not_or] at hslash
      rw [splitParts, if_neg (Ne.symm hslash.1), ih hslash.2]

end Path

/-- A single name that is longer than any in a directory can be. -/
structure LongName (name : String) : Prop where
  encodable : Encoding.ofNames.rejects name = false
  not_mem_slash : '/' ∉ name.toList
  not_mem_null : Char.ofNat 0 ∉ name.toList
  lt_size : Workspace.maxNameLength < name.utf8ByteSize

namespace LongName

variable {workspace : Workspace} {name : String}

theorem ne (hname : LongName name) {other : String}
    (hshort : other.utf8ByteSize ≤ Workspace.maxNameLength) : name ≠ other := by
  rintro rfl
  exact absurd hname.lt_size (Nat.not_lt.mpr hshort)

/-- Such a name is none of the parts that have a meaning of their own. -/
theorem ne_special (hname : LongName name) : name ≠ "" ∧ name ≠ "." ∧ name ≠ ".." :=
  ⟨hname.ne (by decide), hname.ne (by decide), hname.ne (by decide)⟩

theorem parts_eq (hname : LongName name) : Path.parts name = [name] := by
  rw [Path.parts, Path.splitParts_of_not_mem hname.not_mem_slash, List.map_singleton,
    String.ofList_toList]

theorem names_eq (hname : LongName name) : Path.names ("/" ++ name) = [name] := by
  have hparts : Path.parts ("/" ++ name) = ["", name] := by
    rw [Path.parts, String.toList_append]
    change List.map String.ofList ([] :: Path.splitParts name.toList) = _
    rw [Path.splitParts_of_not_mem hname.not_mem_slash]
    simp
  rw [Path.names, hparts]
  simp [hname.ne_special]

/-- Below the root, a system can be asked about the name. -/
theorem requireName_eq (hname : LongName name) : Workspace.requireName ("/" ++ name) = .ok () := by
  have hencodable : Encoding.ofNames.rejects ("/" ++ name) = false := by
    rw [Encoding.rejects_append, hname.encodable, Bool.or_false]
    exact Encoding.rejects_eq_false_of_ascii rfl
  simp [Workspace.requireName, hencodable, hname.not_mem_null]

theorem resolve_eq (hname : LongName name) (hroot : workspace.root = []) :
    workspace.resolve name = .ok [name] := by
  have hstart : Path.start workspace.root name = [] := by
    simp [Path.start, hroot]
  have hfollow : Path.follow [] name = [name] := by
    simp [Path.follow, hname.ne_special]
  have htext : Path.text [name] = "/" ++ name := by
    rw [Path.text, String.intercalate_singleton]
  rw [Workspace.resolve, hname.parts_eq, hstart, List.foldlM_cons, Workspace.ask, hfollow, htext,
    hname.requireName_eq]
  rfl

/-- Right below the root, the name cannot be looked for. -/
theorem locate_eq (hname : LongName name) (hroot : workspace.isDirectory [] = true) :
    workspace.locate ("/" ++ name) = .error .nameTooLong := by
  have hstart : Path.start workspace.root ("/" ++ name) = [] := by
    simp [Path.start]
  rw [Workspace.locate, hname.requireName_eq, ok_bind, hname.names_eq, hstart]
  split
  · rfl
  · simp [Workspace.follow, hroot, hname.lt_size, bind, Except.bind]

end LongName

namespace Executor

section Definitions

variable (executor : Executor) (step : Step)

/-- What a step lacks that fails before it makes its call, as it complains of it. -/
inductive Lacks : String → Prop
  | secret {name : String} (hname : name ∈ step.secrets.values)
      (hunknown : executor.secrets name = .ok none) : Lacks (SecretError.missing name).message
  | directory {directory : String}
      (hresolve : executor.directories.resolve (step.cwd.getD "") = .ok directory)
      (habsent : executor.directories.isDirectory directory = .ok false) :
      Lacks ("cwd not found: " ++ directory)

/-- Looking for the directory of a step comes to an error. -/
inductive FaultyDirectory (crash : Crash) : Prop
  | unresolved (hresolve : executor.directories.resolve (step.cwd.getD "") = .error crash) :
      FaultyDirectory crash
  | unanswered {directory : String}
      (hresolve : executor.directories.resolve (step.cwd.getD "") = .ok directory)
      (hcrash : executor.directories.isDirectory directory = .error crash) : FaultyDirectory crash

/-- A step breaks off its job: it lacks no secret, but looking for its directory comes to an error. -/
structure Derails (crash : Crash) : Prop where
  known : ∀ name ∈ step.secrets.values, executor.secrets.value? name ≠ none
  faulty : executor.FaultyDirectory step crash

end Definitions

variable {executor : Executor} {step : Step} {crash : Crash} {text : String}

theorem directoryOf_eq_crash_iff :
    executor.directoryOf step = .error (.crash crash) ↔ executor.FaultyDirectory step crash := by
  rw [directoryOf, bind_eq_error_iff, mapError_eq_error_iff]
  constructor
  · rintro (⟨own, hresolve, hcrash⟩ | ⟨directory, hresolve, hrest⟩)
    · cases hcrash
      exact .unresolved hresolve
    · rcases bind_eq_error_iff.mp hrest with hfound | ⟨found, _, hthrow⟩
      · obtain ⟨own, hown, hcrash⟩ := mapError_eq_error_iff.mp hfound
        cases hcrash
        exact .unanswered (mapError_eq_ok_iff.mp hresolve) hown
      · cases found <;> cases hthrow
  · rintro (hresolve | ⟨hresolve, hcrash⟩)
    · exact Or.inl ⟨crash, hresolve, rfl⟩
    · refine Or.inr ⟨_, mapError_eq_ok_iff.mpr hresolve, ?_⟩
      exact bind_eq_error_iff.mpr (Or.inl (mapError_eq_error_iff.mpr ⟨crash, hcrash, rfl⟩))

theorem lacks_of_directoryOf (hcomplaint : executor.directoryOf step = .error (.complaint text)) :
    executor.Lacks step text := by
  rw [directoryOf, bind_eq_error_iff, mapError_eq_error_iff] at hcomplaint
  rcases hcomplaint with ⟨_, _, hcrash⟩ | ⟨directory, hresolve, hrest⟩
  · cases hcrash
  · rcases bind_eq_error_iff.mp hrest with hfound | ⟨found, hfound, hthrow⟩
    · obtain ⟨_, _, hcrash⟩ := mapError_eq_error_iff.mp hfound
      cases hcrash
    · cases found with
      | true => cases hthrow
      | false =>
          cases hthrow
          exact .directory (mapError_eq_ok_iff.mp hresolve) (mapError_eq_ok_iff.mp hfound)

theorem directoryOf_ne_ok_of_absent {directory : String}
    (hresolve : executor.directories.resolve (step.cwd.getD "") = .ok directory)
    (habsent : executor.directories.isDirectory directory = .ok false) (found : String) :
    executor.directoryOf step ≠ .ok found := by
  intro hfound
  obtain ⟨own, hown, hrest⟩ := bind_eq_ok_iff.mp hfound
  cases (mapError_eq_ok_iff.mp hown).symm.trans hresolve
  obtain ⟨present, hpresent, hreturn⟩ := bind_eq_ok_iff.mp hrest
  cases (mapError_eq_ok_iff.mp hpresent).symm.trans habsent
  cases hreturn

/-- A system of plain files cannot be asked about a name that is too long. -/
theorem faultyDirectory_of_longName {workspace : Workspace} {name : String} (hname : LongName name)
    (hcwd : step.cwd = some name) (hdirectories : executor.directories = workspace.directories)
    (hroot : workspace.root = []) (hdirectory : workspace.isDirectory [] = true) :
    executor.FaultyDirectory step (PathFault.nameTooLong.crash ("/" ++ name)) := by
  have htext : Path.text [name] = "/" ++ name := by
    rw [Path.text, String.intercalate_singleton]
  have hresolve : executor.directories.resolve (step.cwd.getD "") = .ok ("/" ++ name) := by
    rw [hdirectories, hcwd, ← htext]
    exact mapError_eq_ok_iff.mpr (map_eq_ok_iff.mpr ⟨_, hname.resolve_eq hroot, rfl⟩)
  refine .unanswered hresolve ?_
  rw [hdirectories]
  refine mapError_eq_error_iff.mpr ⟨.nameTooLong, ?_, rfl⟩
  rw [Workspace.leadsTo, hname.locate_eq hdirectory]

/-! ## Making a call -/

theorem lacks_of_callOf (hcomplaint : executor.callOf step = .error (.complaint text)) :
    executor.Lacks step text := by
  rcases bind_eq_error_iff.mp hcomplaint with hsecrets | ⟨secrets, _, hrest⟩
  · obtain ⟨error, herror, heq⟩ := mapError_eq_error_iff.mp hsecrets
    obtain ⟨name, hname, hget⟩ := exists_error_of_resolveSecrets herror
    cases error with
    | missing other =>
        cases heq
        obtain ⟨hunknown, rfl⟩ := SecretProvider.get_eq_missing_iff.mp hget
        exact .secret hname hunknown
    | crashed crash => cases heq
  · rcases bind_eq_error_iff.mp hrest with hdirectory | ⟨_, _, hreturn⟩
    · exact lacks_of_directoryOf hdirectory
    · cases hreturn

/-- A step makes its call only where it lacks nothing, and this is the call of its command. -/
theorem not_lacks_of_callOf {call : CommandCall} (hcall : executor.callOf step = .ok call) :
    call.command = step.command ∧ ∀ text, ¬ executor.Lacks step text := by
  obtain ⟨secrets, hsecrets, hrest⟩ := bind_eq_ok_iff.mp hcall
  obtain ⟨directory, hdirectory, hreturn⟩ := bind_eq_ok_iff.mp hrest
  cases hreturn
  refine ⟨rfl, ?_⟩
  intro text hlacks
  cases hlacks with
  | secret hname hunknown =>
      obtain ⟨entry, hentry, rfl⟩ := List.mem_map.mp hname
      obtain ⟨value, hknown⟩ :=
        exists_of_resolveSecrets (mapError_eq_ok_iff.mp hsecrets) hentry
      cases (SecretProvider.value?_eq_some_iff.mp hknown).symm.trans hunknown
  | directory hresolve habsent =>
      exact directoryOf_ne_ok_of_absent hresolve habsent directory hdirectory

theorem callOf_of_derails (hderails : executor.Derails step crash) :
    executor.callOf step = .error (.crash crash) := by
  unfold callOf
  cases hsecrets : resolveSecrets executor.secrets step.secrets.entries with
  | error error =>
      obtain ⟨name, hname, hget⟩ := exists_error_of_resolveSecrets hsecrets
      obtain ⟨value, hvalue⟩ := Option.ne_none_iff_exists'.mp (hderails.known name hname)
      cases hget.symm.trans (SecretProvider.get_eq_ok_iff.mpr hvalue)
  | ok secrets =>
      rw [directoryOf_eq_crash_iff.mpr hderails.faulty]
      rfl

/-- Where the secrets of a step can be looked up, nothing else makes it crash before its call. -/
theorem derails_of_callOf (hanswers : executor.secrets.Answers step.secrets.values)
    (hcrash : executor.callOf step = .error (.crash crash)) : executor.Derails step crash := by
  constructor
  · intro name hname hunknown
    obtain ⟨text, hcomplaint⟩ := callOf_of_unknown hanswers hname hunknown
    cases hcrash.symm.trans hcomplaint
  · rcases crash_of_callOf hcrash with ⟨name, hname, hsecret⟩ | hdirectory
    · obtain ⟨known, hknown⟩ := hanswers name hname
      cases hknown.symm.trans hsecret
    · exact directoryOf_eq_crash_iff.mp hdirectory

end Executor
end CiPipeline
