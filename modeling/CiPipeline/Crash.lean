/-!
Errors that nobody foresaw. They are passed on with their kind and their text, and whoever meets one can
tell no more of it.
-/

namespace CiPipeline

/-- An error that nobody foresaw: its kind and its text. -/
structure Crash where
  kind : String
  text : String
  deriving DecidableEq, Repr

/-- The wording of a crash. -/
def Crash.message (crash : Crash) : String :=
  crash.kind ++ ": " ++ crash.text

end CiPipeline
