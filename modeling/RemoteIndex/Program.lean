import RemoteIndex.Cancellation
import RemoteIndex.CommandLine
import RemoteIndex.Settings

/-!
# The program

What the program prints is a function of its arguments and its surroundings.
-/

namespace RemoteIndex

/-- What a program finds around it. -/
structure Surroundings where
  tree : FileTree
  /-- The working directory. -/
  cwd : Place
  /-- The successive readings of the clock. -/
  clock : Nat → Instant
  /-- What becomes of the workers it asks for. -/
  pool : Pool

/-- What a program leaves behind. -/
structure Outcome where
  exitCode : Nat
  stdout : String
  stderr : String
deriving DecidableEq, Repr, Inhabited

namespace Outcome

/-- An error and what caused it, cause by cause. Several causes are numbered. -/
def errorLines (error : String) (causes : List String) : List String :=
  let listed : List String :=
    match causes with
    | [cause] => ["    " ++ cause]
    | causes => causes.mapIdx fun i cause =>
        let number := toString i
        String.ofList (List.replicate (5 - number.length) ' ') ++ number ++ ": " ++ cause
  ("Error: " ++ error) :: if causes.isEmpty then [] else "" :: "Caused by:" :: listed

/-- The program ends with an error. -/
def failed (error : String) (causes : List String) : Outcome :=
  ⟨1, "", Report.lines (errorLines error causes)⟩

/-- The program prints what it was asked for. -/
def printed (stdout : String) (stderr : List String) : Outcome := ⟨0, stdout, Report.lines stderr⟩

end Outcome

namespace Program

/-- The causes of a build error, the error first. -/
def causes (error : BuildError) : List String :=
  match error with
  | .rootUnreadable root => [error.message, root.cause.message]
  | _ => [error.message]

/-- The answers to the looks at a token with a deadline; the first reading of the clock was for the
deadline itself. -/
def answers (s : Surroundings) (family : CancelFamily) : CancelAnswers :=
  fun look => family.isCancelled (s.clock (look + 1))

/-- The family of the token of a build; none if the clock does not go as far as the timeout. -/
def family? (s : Surroundings) : Option Nat → Option CancelFamily
  | none => some .new
  | some seconds => CancelFamily.expiring? (s.clock 0) seconds

/-- Where the import map is: an argument is seen from the working directory, a setting from the
root of the project. -/
def importMapPath (cwd : Place) (root : Path) (settings : Settings) : Option Path → Option Path
  | some p => some ((Path.absolute? cwd.path p).getD p)
  | none => settings.importMapPath root

/-- Prints the index of the project at `root`, which is absolute. -/
def tree (s : Surroundings) (root : Path) (importMap : Option Path) (format : OutputFormat)
    (jobs : Nat) (timeout : Option Nat) : Outcome :=
  let (settings, _) := Settings.load s.tree s.cwd root
  let importMap := importMapPath s.cwd root settings importMap
  match family? s timeout with
  | none => ⟨101, "", "overflow when adding duration to instant\n"⟩
  | some family =>
    match Build.run s.tree s.cwd ⟨root, importMap, settings.excludePatterns, jobs⟩
      (answers s family) s.pool with
    | .error error =>
      .failed ("failed to build dependency tree for " ++ root.display) (causes error)
    | .ok report =>
      .printed (Report.output format root report.index) (Report.diagnosticLines report)

/-- The lines about the files of a walk. -/
def fileLines (root : Path) (files : List Path) : List String :=
  files.map (fun file => (file.relativeTo root).display) ++ [toString files.length ++ " file(s)"]

/-- Prints the files of the project at `root`, which is absolute. -/
def files (s : Surroundings) (root : Path) : Outcome :=
  let (settings, _) := Settings.load s.tree s.cwd root
  match Walk.start? s.tree s.cwd (Build.filter settings.excludePatterns) root with
  | .error error => .failed error.message [error.cause.message]
  | .ok walk => .printed (Report.lines (fileLines root walk.files.1)) []

/-- What is done with the absolute form of a path. -/
def atRoot (s : Surroundings) (path : Path) (run : Path → Outcome) : Outcome :=
  match Path.absolute? s.cwd.path path with
  | none => .failed ("invalid project path " ++ path.display) [FileError.emptyPath.message]
  | some root => run root

/-- Runs a command. -/
def runCommand (s : Surroundings) : Command → Outcome
  | .tree path importMap format jobs timeout =>
    atRoot s path fun root => tree s root importMap format jobs timeout
  | .files path => atRoot s path (files s)

/-- Runs the program. Help and usage are not printed. -/
def run (s : Surroundings) (args : List Argument) : Outcome :=
  match CommandLine.parse args with
  | .ok line => runCommand s line.command
  | .error error =>
    match error with
    | .version command => .printed (command ++ " " ++ CommandLine.version ++ "\n") []
    | error => ⟨error.exitCode, "", ""⟩

/-! ## What a run looks at -/

/-- The part of a file tree that a run looks at. -/
structure Extent where
  /-- The directory that is walked. -/
  root : Option Path
  /-- The filter of the walk. -/
  filter : WalkFilter
  /-- The files that are read whatever their names. -/
  files : List Path
deriving Repr, Inhabited

/-- Nothing at all. -/
def Extent.nothing : Extent := ⟨none, .empty, []⟩

/-- What a command looks at in the project at `root`. -/
def projectExtent (tree : FileTree) (cwd : Place) (importMap : Option Path) (root : Path) :
    Extent :=
  let (settings, _) := Settings.load tree cwd root
  ⟨some root, Build.filter settings.excludePatterns,
    root.join (.ofString Settings.fileName) :: (importMapPath cwd root settings importMap).toList⟩

/-- What the program looks at, as far as the settings in `tree` tell. -/
def extent (tree : FileTree) (cwd : Place) (args : List Argument) : Extent :=
  match CommandLine.parse args with
  | .error _ => .nothing
  | .ok line =>
    let (path, importMap) : Path × Option Path :=
      match line.command with
      | .tree path importMap _ _ _ => (path, importMap)
      | .files path => (path, none)
    ((Path.absolute? cwd.path path).map (projectExtent tree cwd importMap)).getD .nothing

end Program

end RemoteIndex
