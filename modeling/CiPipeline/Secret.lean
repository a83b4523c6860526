import CiPipeline.Job
import CiPipeline.Text.Encoding

/-!
Where secrets come from, and the environment without them. A job sees a secret only under the variables
that its own steps give to it.
-/

namespace CiPipeline

/--
Looks up the value of a secret by its name. A secret may be unknown, and the look-up may crash before it is
even known whether there is such a secret.
-/
abbrev SecretProvider := String → Except Crash (Option String)

/-- Why there is no value of a secret. -/
inductive SecretError
  /-- No provider knows the secret. -/
  | missing (name : String)
  | crashed (crash : Crash)
  deriving DecidableEq, Repr

/-- The wording of a missing secret, or the text of a crash. -/
def SecretError.message : SecretError → String
  | missing name => "secret " ++ Text.quoted name ++ " is not available"
  | crashed crash => crash.text

namespace SecretProvider

/-- The secrets of a table. -/
def ofTable (values : Table String String) : SecretProvider :=
  fun name => .ok (values.get? name)

/-- The variables of an environment, under names with a common beginning. -/
def ofEnvironment (lead : String) (environment : Environment) : SecretProvider :=
  fun name => .ok (environment.get? (lead ++ name))

/-- The variables of a process, whose names are put into bytes to be looked up. -/
def ofProcess (names : Encoding) (lead : String) (environment : Environment) : SecretProvider :=
  fun name =>
    if names.rejects (lead ++ name) then .error (names.crash (lead ++ name))
    else .ok (environment.get? (lead ++ name))

/-- The first provider that knows a secret gives its value. -/
def chain (providers : List SecretProvider) : SecretProvider :=
  fun name => providers.findSomeM? fun provider => provider name

/-- No secret is known. -/
def none : SecretProvider :=
  fun _ => .ok Option.none

variable (provider : SecretProvider)

/-- The value of a secret, if it is known. -/
def value? (name : String) : Option String :=
  match provider name with
  | .ok known => known
  | .error _ => Option.none

/-- The crash of looking up a secret, if it comes to one. -/
def crash? (name : String) : Option Crash :=
  match provider name with
  | .ok _ => Option.none
  | .error crash => some crash

/-- The first crash of looking up some secrets one after the other. -/
def crashAmong? (names : List String) : Option Crash :=
  names.findSome? provider.crash?

/-- The value of a secret that is needed. -/
def get (name : String) : Except SecretError String :=
  match provider name with
  | .ok (some value) => .ok value
  | .ok Option.none => .error (.missing name)
  | .error crash => .error (.crashed crash)

end SecretProvider

/--
An environment without some variables, and without every variable whose value is one of some secrets.
Empty values are no secrets.
-/
def Environment.scrub (environment : Environment) (values names : List String) : Environment :=
  environment.filter fun name value =>
    !(names.contains name || (!value.isEmpty && values.contains value))

end CiPipeline
