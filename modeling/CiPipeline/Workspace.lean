import CiPipeline.Path
import CiPipeline.Text.Encoding

/-!
The part of a file system that a run sees: where relative paths start, which directories exist, and what
stands in the files. A path that leads to no text has a fault, which says where it went wrong.

The files of a workspace are plain ones. Nobody is kept from them, and no link leads from one to another;
what else a system may answer about the directories of steps is left open by `Directories`.
-/

namespace CiPipeline

/--
A directory in which jobs run, the directories that exist, the texts of the files, and the home directories
of users by name; the empty name stands for the one who asks.
-/
structure Workspace where
  root : Path
  isDirectory : Path → Bool
  content? : Path → Option String := fun _ => none
  home? : String → Option String := fun _ => none

/-- Why a path leads to no text. -/
inductive PathFault
  | missing
  /-- On the way stands a file where a directory must be. -/
  | notDirectory
  | isDirectory
  /-- A part of the path, or the whole of it, is longer than any can be. -/
  | nameTooLong
  /-- The path holds the character that ends paths. -/
  | nullByte
  /-- The path to something cannot be put into bytes. -/
  | unencodable (path : String)
  deriving DecidableEq, Repr

namespace PathFault

/-- The number of a fault among the errors of a system, and its name there. -/
def description? : PathFault → Option (Nat × String)
  | missing => some (2, "No such file or directory")
  | notDirectory => some (20, "Not a directory")
  | isDirectory => some (21, "Is a directory")
  | nameTooLong => some (36, "File name too long")
  | nullByte | unencodable _ => none

/-- The wording of a fault of a path. -/
def message (fault : PathFault) (path : String) : String :=
  match fault.description?, fault with
  | some (number, problem), _ =>
    "[Errno " ++ toString number ++ "] " ++ problem ++ ": " ++ Text.quoted path
  | none, unencodable other => Encoding.ofNames.complaint other
  | none, _ => "embedded null byte"

/-- The kind of a fault, for those who look for its cause. -/
def kind : PathFault → String
  | missing => "FileNotFoundError"
  | notDirectory => "NotADirectoryError"
  | isDirectory => "IsADirectoryError"
  | nameTooLong => "OSError"
  | nullByte => "ValueError"
  | unencodable _ => Encoding.crashKind

/-- The crash of whoever asks about a path with a fault. -/
def crash (fault : PathFault) (path : String) : Crash :=
  ⟨fault.kind, fault.message path⟩

end PathFault

/--
How a system answers those who look for a directory. It finds the path to which a text leads, and tells
whether a directory is there; either answer may be an error that it makes on the way.
-/
structure Directories where
  resolve : String → Except Crash String
  isDirectory : String → Except Crash Bool

namespace Workspace

/-- The greatest length of one name in a directory, in bytes. -/
def maxNameLength : Nat := 255

/-- The greatest length of a path, in bytes. -/
def maxPathLength : Nat := 4095

/-- Refuses a path that a system cannot be asked about. -/
def requireName (path : String) : Except PathFault Unit :=
  if Encoding.ofNames.rejects path then .error (.unencodable path)
  else if path.toList.contains (Char.ofNat 0) then .error .nullByte
  else .ok ()

/-- Follows one part from a path, to what the system can be asked about. -/
def ask (path : Path) (part : String) : Except PathFault Path := do
  requireName (path.follow part).text
  return path.follow part

/-- The path that a text means in the workspace, whether or not it leads through what exists. -/
def resolve (workspace : Workspace) (text : String) : Except PathFault Path :=
  (Path.parts text).foldlM ask (Path.start workspace.root text)

/-- Whether a path leads to a file or a directory. -/
def contains (workspace : Workspace) (path : Path) : Bool :=
  (workspace.content? path).isSome || workspace.isDirectory path

/-- Follows one part from a path, which must be a directory. -/
def follow (workspace : Workspace) (path : Path) (part : String) : Except PathFault Path :=
  if workspace.isDirectory path then
    if maxNameLength < part.utf8ByteSize then .error .nameTooLong else .ok (path.follow part)
  else if workspace.contains path then .error .notDirectory
  else .error .missing

/-- The path that a text leads to, if each step of the way starts in a directory. -/
def locate (workspace : Workspace) (text : String) : Except PathFault Path := do
  requireName text
  if maxPathLength < (Path.tidy text).utf8ByteSize then throw .nameTooLong
  (Path.names text).foldlM workspace.follow (Path.start workspace.root text)

/-- Whether a text leads to something that has a property; a name that is too long gives no answer. -/
def leadsTo (workspace : Workspace) (property : Path → Bool) (text : String) :
    Except PathFault Bool :=
  match workspace.locate text with
  | .ok path => .ok (property path)
  | .error .nameTooLong => .error .nameTooLong
  | .error _ => .ok false

/-- How the directories of a workspace are found. -/
def directories (workspace : Workspace) : Directories where
  resolve text := ((workspace.resolve text).map Path.text).mapError (PathFault.crash · text)
  isDirectory path := (workspace.leadsTo workspace.isDirectory path).mapError (PathFault.crash · path)

/-- The text of the file that a path leads to. -/
def read (workspace : Workspace) (path : Path) : Except PathFault String :=
  match workspace.content? path with
  | some content => .ok content
  | none => .error (if workspace.isDirectory path then .isDirectory else .missing)

/-- A text without the slashes at its end; of slashes alone one remains. -/
def trimSlashes (text : String) : String :=
  match (text.toList.reverse.dropWhile (· = '/')).reverse with
  | [] => "/"
  | chars => String.ofList chars

/-- The home directory that a part of a path means; a home that is itself to be looked up is none. -/
def homeOf (workspace : Workspace) (user : List Char) : Option String :=
  ((workspace.home? (String.ofList user)).map trimSlashes).filter fun home =>
    home.toList.head? != some '~'

/--
A text whose first part is a tilde, maybe with the name of a user, begins in a home directory instead. There
may be no such home.
-/
def expandHome (workspace : Workspace) (text : String) : Option String :=
  match text.toList.head?, Path.names text with
  | some '/', _ | _, [] => some text
  | _, first :: rest =>
    match first.toList with
    | '~' :: user => (workspace.homeOf user).map fun home => "/".intercalate (home :: rest)
    | _ => some text

end Workspace
end CiPipeline
