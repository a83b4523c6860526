import CiPipeline.CommandLine.Session
import CiPipeline.Proofs.Except
import CiPipeline.Proofs.Number.Text
import CiPipeline.Proofs.Table

/-!
Settings that are numbers may be given in the environment and on the command line. The variable is brought
into the range of the setting and the option is taken as it is, so the two mean the same exactly for numbers
in that range.
-/

namespace CiPipeline

open CommandLine (RunOptions Words RequestFault Surroundings optionFault?)

/-- A setting that is given as a number. -/
inductive NumericSetting
  | workers (count : Int)
  | timeout (limit : Number.Binary64)

namespace NumericSetting

/-- The variable of the setting. -/
def variableName : NumericSetting → String
  | workers _ => Settings.maxWorkersVariable
  | timeout _ => Settings.stepTimeoutVariable

/-- The option of the setting. -/
def optionName : NumericSetting → String
  | workers _ => "--workers"
  | timeout _ => "--timeout"

/-- The text of the number. -/
def text : NumericSetting → String
  | workers count => Value.intText count
  | timeout limit => limit.text

/-- Whether what is given is a number at all: of binary numbers only those of the one form are. -/
def IsNumber : NumericSetting → Prop
  | workers _ => True
  | timeout limit => limit.IsCanonical

/-- Whether the number is read from its text. -/
def IsRead : NumericSetting → Prop
  | workers count => Number.isTooLong count = false
  | timeout _ => True

/-- Whether the number is one that the setting may have. -/
def InRange : NumericSetting → Prop
  | workers count => 1 ≤ count
  | timeout limit => limit.isPositive = true

/-- The settings with the number brought into its range: one worker at least, and no limit that is not
above zero. -/
def set (settings : Settings) : NumericSetting → Settings
  | workers count => { settings with maxWorkers := max 1 count }
  | timeout limit => { settings with stepTimeout := Settings.timeLimit limit }

/-- The change that the command line asks for. -/
def changes : NumericSetting → Settings.Changes
  | workers count => { maxWorkers := some count }
  | timeout limit => { stepTimeout := some (.binary limit) }

/-- The options with the setting given. -/
def give (options : RunOptions) : NumericSetting → RunOptions
  | workers count => { options with workers := some count }
  | timeout limit => { options with timeout := some limit }

/-- The options with the setting left out. -/
def leaveOut (options : RunOptions) : NumericSetting → RunOptions
  | workers _ => { options with workers := none }
  | timeout _ => { options with timeout := none }

/-! ## The range -/

/-- The two ways to take a number differ for just those that are out of range. -/
theorem set_eq_override_iff (setting : NumericSetting) (settings : Settings) :
    setting.set settings = settings.override setting.changes ↔ setting.InRange := by
  cases setting with
  | workers count =>
      simp [set, changes, Settings.override, InRange]
  | timeout limit =>
      cases hpositive : limit.isPositive <;>
        simp [set, changes, Settings.override, InRange, Settings.timeLimit, hpositive]

/-! ## The variable -/

section Variable

variable {environment : Environment}

section Number

variable {α : Type} {name text : String} {read : String → Option α} {default : α}

theorem number_of_absent (habsent : environment.get? name = none) :
    Settings.number environment name read default = .ok default := by
  simp only [Settings.number, habsent]

theorem number_insert_of_some {value : α} (htext : Text.isAllBlank text = false)
    (hread : read text = some value) :
    Settings.number (environment.insert name text) name read default = .ok value := by
  simp [Settings.number, Table.get?_insert, htext, hread]

theorem number_insert_of_none (htext : Text.isAllBlank text = false) (hread : read text = none) :
    Settings.number (environment.insert name text) name read default =
      .error (.notANumber name text) := by
  simp [Settings.number, Table.get?_insert, htext, hread]

theorem number_insert_of_ne {other : String} (hother : name ≠ other) :
    Settings.number (environment.insert name text) other read default =
      Settings.number environment other read default := by
  simp [Settings.number, Table.get?_insert, hother]

end Number

theorem get?_insert_of_ne {name other text : String} (hother : name ≠ other) :
    (environment.insert name text).get? other = environment.get? other := by
  rw [Table.get?_insert, if_neg hother]

/-- A setting that is given in the environment is brought into its range. -/
theorem load_insert {setting : NumericSetting} (habsent : environment.get? setting.variableName = none)
    (hnumber : setting.IsNumber) (hread : setting.IsRead) (processors : Option Nat) :
    Settings.load (environment.insert setting.variableName setting.text) processors =
      (Settings.load environment processors).map setting.set := by
  cases setting with
  | workers count =>
      have hcount : (Option.map some ∘ Number.int?) (Value.intText count) = some (some count) := by
        rw [Function.comp_apply, Number.int?_intText, show Number.isTooLong count = false from hread]
        rfl
      simp only [Settings.load, variableName, text] at habsent ⊢
      rw [number_insert_of_some (Number.isAllBlank_intText count) hcount,
        number_insert_of_ne (by decide), number_insert_of_ne (by decide), number_of_absent habsent,
        get?_insert_of_ne (by decide), get?_insert_of_ne (by decide), get?_insert_of_ne (by decide)]
      cases Settings.number environment Settings.stepTimeoutVariable Number.float? (.zero false) with
      | error => rfl
      | ok limit =>
          cases Settings.number environment Settings.outputLimitVariable Number.int? 4000 <;> rfl
  | timeout limit =>
      simp only [Settings.load, variableName, text] at habsent ⊢
      rw [number_insert_of_some (Number.Binary64.isAllBlank_text hnumber)
          (Number.Binary64.float?_text hnumber),
        number_insert_of_ne (by decide), number_insert_of_ne (by decide), number_of_absent habsent,
        get?_insert_of_ne (by decide), get?_insert_of_ne (by decide), get?_insert_of_ne (by decide)]
      cases Settings.number environment Settings.maxWorkersVariable
          (Option.map some ∘ Number.int?) none with
      | error => rfl
      | ok workers =>
          cases Settings.number environment Settings.outputLimitVariable Number.int? 4000 <;> rfl

/-- A number that is too long to be read is refused in the environment. -/
theorem load_insert_of_not_isRead {setting : NumericSetting} (hread : ¬ setting.IsRead)
    (processors : Option Nat) :
    Settings.load (environment.insert setting.variableName setting.text) processors =
      .error (.notANumber setting.variableName setting.text) := by
  cases setting with
  | workers count =>
      have hcount : (Option.map some ∘ Number.int?) (Value.intText count) = none := by
        rw [Function.comp_apply, Number.int?_intText, if_pos (Bool.not_eq_false _ ▸ hread)]
        rfl
      simp only [Settings.load, variableName, text]
      rw [number_insert_of_none (Number.isAllBlank_intText count) hcount]
      rfl
  | timeout limit => exact absurd trivial hread

end Variable

/-! ## The option -/

section Option

variable {setting : NumericSetting} {words : Words}

/-- An option with a number that is read gives the setting. -/
theorem give_ofWords (hnumber : setting.IsNumber) (hread : setting.IsRead)
    (hgiven : words.value? setting.optionName = some setting.text) :
    setting.give (RunOptions.ofWords words) = RunOptions.ofWords words := by
  cases setting with
  | workers count =>
      have hworkers : (words.value? "--workers").bind Number.int? = some count := by
        rw [show words.value? "--workers" = some (Value.intText count) from hgiven, Option.bind_some,
          Number.int?_intText, show Number.isTooLong count = false from hread]
        rfl
      simp only [give, RunOptions.ofWords, hworkers]
  | timeout limit =>
      have htimeout : (words.value? "--timeout").bind Number.float? = some limit := by
        rw [show words.value? "--timeout" = some limit.text from hgiven, Option.bind_some,
          Number.Binary64.float?_text hnumber]
      simp only [give, RunOptions.ofWords, htimeout]

/-- A number that is too long to be read is refused on the command line. -/
theorem optionFault?_of_not_isRead (hread : ¬ setting.IsRead)
    (hgiven : words.value? setting.optionName = some setting.text) (workspace : Workspace) :
    optionFault? workspace words setting.optionName =
      some (.usage (.badValue setting.optionName setting.text)) := by
  cases setting with
  | workers count =>
      have hcount : Number.int? (Value.intText count) = none := by
        rw [Number.int?_intText, if_pos (Bool.not_eq_false _ ▸ hread)]
      simp only [optionName, text] at hgiven ⊢
      simp [optionFault?, hgiven, hcount]
  | timeout limit => exact absurd trivial hread

/-- An option is a change to the settings, whatever else is asked for. -/
theorem run_give (s : Surroundings) (debug : Bool) (settings : Settings) (options : RunOptions) :
    CommandLine.run s debug settings (setting.give options) =
      CommandLine.run s debug (settings.override setting.changes) (setting.leaveOut options) := by
  cases setting <;> rfl

end Option

/-- A number means the same in the environment and on the command line just where it is in the range of its
setting; what cannot be read is refused by both. -/
theorem option_agrees_with_variable {setting : NumericSetting} {environment : Environment}
    (hnumber : setting.IsNumber) (habsent : environment.get? setting.variableName = none)
    (processors : Option Nat) :
    (setting.IsRead →
      Settings.load (environment.insert setting.variableName setting.text) processors =
          (Settings.load environment processors).map setting.set ∧
        (∀ settings : Settings,
          setting.set settings = settings.override setting.changes ↔ setting.InRange) ∧
        ∀ (s : Surroundings) (debug : Bool) (words : Words) (settings : Settings),
          Settings.load environment processors = .ok settings →
          words.value? setting.optionName = some setting.text → setting.InRange →
          ∃ given, Settings.load (environment.insert setting.variableName setting.text) processors =
              .ok given ∧
            CommandLine.run s debug settings (.ofWords words) =
              CommandLine.run s debug given (setting.leaveOut (.ofWords words))) ∧
    (¬ setting.IsRead →
      Settings.load (environment.insert setting.variableName setting.text) processors =
          .error (.notANumber setting.variableName setting.text) ∧
        ∀ (workspace : Workspace) (words : Words),
          words.value? setting.optionName = some setting.text →
          optionFault? workspace words setting.optionName =
            some (.usage (.badValue setting.optionName setting.text))) := by
  constructor
  · intro hread
    have hload := load_insert habsent hnumber hread processors
    refine ⟨hload, setting.set_eq_override_iff, ?_⟩
    intro s debug words settings hsettings hgiven hrange
    refine ⟨setting.set settings, by rw [hload, hsettings]; rfl, ?_⟩
    have hrun := @run_give setting s debug settings (.ofWords words)
    rw [give_ofWords hnumber hread hgiven] at hrun
    rw [hrun, (setting.set_eq_override_iff settings).mpr hrange]
  · intro hread
    exact ⟨load_insert_of_not_isRead hread processors,
      fun workspace words hgiven => optionFault?_of_not_isRead hread hgiven workspace⟩

/-- Ninety seconds and a half. -/
def longLimit : Number.Binary64 :=
  .finite false (181 * 2 ^ 45) (-46)

theorem isCanonical_longLimit : longLimit.IsCanonical :=
  Or.inr ⟨by decide, by decide, by decide, by decide, Or.inl (by decide)⟩

theorem option_agrees_with_variable_long :
    ∃ settings given, Settings.load .empty (some 8) = .ok settings ∧
      Settings.load ((.empty : Environment).insert "CIGRAPH_STEP_TIMEOUT" "90.5") (some 8) = .ok given ∧
      given.stepTimeout = some (.binary longLimit) ∧
      given = settings.override { stepTimeout := some (.binary longLimit) } := by
  have htext : longLimit.text = "90.5" := by decide +kernel
  obtain ⟨hread, _⟩ := @option_agrees_with_variable (.timeout longLimit) .empty isCanonical_longLimit rfl
    (some 8)
  obtain ⟨hload, hrange, _⟩ := hread trivial
  obtain ⟨settings, hsettings⟩ : ∃ settings, Settings.load .empty (some 8) = .ok settings := ⟨_, rfl⟩
  simp only [text, htext, variableName, hsettings] at hload
  have hpositive : longLimit.isPositive = true := rfl
  exact ⟨settings, _, hsettings, hload, rfl, (hrange settings).mpr hpositive⟩

/-- No workers and no time: the variables mean one worker and no limit, the options are taken as they are. -/
theorem option_differs_at_zero :
    (Settings.load ((.empty : Environment).insert "CIGRAPH_MAX_WORKERS" "0") (some 4)).map
        (·.maxWorkers) = .ok 1 ∧
      (Settings.load .empty (some 4)).map (fun settings =>
        (settings.override { maxWorkers := some 0 }).maxWorkers) = .ok 0 ∧
      (Settings.load ((.empty : Environment).insert "CIGRAPH_STEP_TIMEOUT" "0.0") (some 4)).map
        (·.stepTimeout) = .ok none ∧
      (Settings.load .empty (some 4)).map (fun settings =>
        (settings.override { stepTimeout := some (.binary (.zero false)) }).stepTimeout) =
          .ok (some (.binary (.zero false))) ∧
    ¬ ∀ (environment : Environment) (processors : Option Nat) (count : Int),
      environment.get? Settings.maxWorkersVariable = none →
      (Settings.load (environment.insert Settings.maxWorkersVariable (Value.intText count))
          processors).map (·.maxWorkers) =
        (Settings.load environment processors).map fun settings =>
          (settings.override { maxWorkers := some count }).maxWorkers := by
  refine ⟨by decide +kernel, by decide +kernel, by decide +kernel, by decide +kernel, ?_⟩
  intro hall
  have hzero := hall .empty (some 4) 0 rfl
  revert hzero
  decide +kernel

end NumericSetting
end CiPipeline
