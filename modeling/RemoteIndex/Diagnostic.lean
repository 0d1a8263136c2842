import RemoteIndex.FileTree
import RemoteIndex.Json.Token
import RemoteIndex.Pattern.Glob

/-!
# Errors, diagnostics and warnings

An error ends what was asked for. A diagnostic is a problem that a build goes on without, and is
part of its report; a warning is only said aloud. Each is kept as its cause, with its wording in
one function.
-/

namespace RemoteIndex

/-- The directory that was to be indexed cannot be. -/
structure RootError where
  path : Path
  cause : FileError
deriving DecidableEq, Repr, Inhabited

/-- The wording of the error. -/
def RootError.message (e : RootError) : String :=
  "project root " ++ e.path.quote ++ " is not a readable directory: " ++ e.cause.message

/-- Something below the root that a walk could not go through. -/
inductive WalkError where
  /-- A path cannot be used. -/
  | unusable (path : Path) (cause : FileError)
  /-- A link to a directory that cannot be used. -/
  | unusableTarget (cause : FileError)
  /-- A link leads back to a directory that the walk is inside of. -/
  | loop (path ancestor : Path)
deriving DecidableEq, Repr, Inhabited

/-- The wording of the error. -/
def WalkError.message : WalkError → String
  | .unusable path cause =>
    path.display ++ ": IO error for operation on " ++ path.display ++ ": " ++ cause.message
  | .unusableTarget cause => cause.message
  | .loop path ancestor =>
    "File system loop found: " ++ path.display ++ " points to an ancestor " ++ ancestor.display

/-- An import map that cannot be used. -/
inductive ImportMapError where
  | unread (path : Path) (cause : FileError)
  | malformed (path : Path) (fault : Json.Fault)
deriving DecidableEq, Repr, Inhabited

namespace ImportMapError

/-- The file of the import map. -/
def path : ImportMapError → Path
  | .unread path _ => path
  | .malformed path _ => path

/-- The wording of the error. -/
def message : ImportMapError → String
  | .unread path cause => "failed to read import map " ++ path.quote ++ ": " ++ cause.message
  | .malformed path fault => "failed to parse import map " ++ path.quote ++ ": " ++ fault.message

end ImportMapError

/-- Why a build has no result. -/
inductive BuildError where
  | rootUnreadable (error : RootError)
  | cancelled
  /-- The workers cannot be started; `reason` says what keeps them. -/
  | workerPool (reason : String)
deriving DecidableEq, Repr, Inhabited

/-- The wording of the error. -/
def BuildError.message : BuildError → String
  | .rootUnreadable error => error.message
  | .cancelled => "index build was cancelled"
  | .workerPool reason => "failed to start worker pool: " ++ reason

/-- A problem that costs a build one directory, one file or the import map. -/
inductive Diagnostic where
  | directoryUnreadable (message : String)
  | fileUnreadable (path : Path) (message : String)
  | parseFailed (path : Path) (message : String)
  | importMapUnavailable (path : Path) (message : String)
deriving DecidableEq, Repr, Inhabited

namespace Diagnostic

/-- Does the diagnostic stand for a file that was left out? -/
def isFileSkip : Diagnostic → Bool
  | .fileUnreadable _ _ | .parseFailed _ _ => true
  | .directoryUnreadable _ | .importMapUnavailable _ _ => false

/-- The wording of the diagnostic. -/
def display : Diagnostic → String
  | .directoryUnreadable message => "skipped directory: " ++ message
  | .fileUnreadable path message => "skipped " ++ path.display ++ ": " ++ message
  | .parseFailed path message => "could not parse " ++ path.display ++ ": " ++ message
  | .importMapUnavailable path message =>
    "ignoring import map " ++ path.display ++ ": " ++ message

/-- The diagnostic of a walk error. -/
def ofWalkError (e : WalkError) : Diagnostic := .directoryUnreadable e.message

/-- The diagnostic of an import map that is not used. -/
def ofImportMapError (e : ImportMapError) : Diagnostic := .importMapUnavailable e.path e.message

end Diagnostic

/-- Something that is said aloud and goes no further. -/
inductive Warning where
  | ignoredGlob (source : String) (error : Pattern.GlobError)
  | ignoredTarget (map : Path) (name : String)
  | ignoredImportMap (error : ImportMapError)
  | skippedEntry (error : WalkError)
  | unparsedSettings (file : String)
  | unreadSettings (file : String) (cause : FileError)
deriving DecidableEq, Repr, Inhabited

/-- The wording of the warning. That of settings that cannot be parsed does not say why. -/
def Warning.message : Warning → String
  | .ignoredGlob source error =>
    "ignoring invalid exclude pattern " ++ Text.quote source ++ ": " ++ error.message
  | .ignoredTarget map name =>
    "import map " ++ map.display ++ ": ignoring non-string target for " ++ Text.quote name
  | .ignoredImportMap error => error.message ++ ". Using no import map."
  | .skippedEntry error => error.message
  | .unparsedSettings file => "failed to parse " ++ file ++ ": <toml error>. Using defaults."
  | .unreadSettings file cause =>
    "failed to read " ++ file ++ ": " ++ cause.message ++ ". Using defaults."

end RemoteIndex
