import RemoteIndex.DependencyIndex
import RemoteIndex.ImportMap
import RemoteIndex.Script.Extract
import RemoteIndex.Walk

/-!
# Building an index

A build walks a project, reads the scripts it comes across, resolves the specifiers in them and
records the remote ones. It goes on without what cannot be read. Files may be scanned by several
workers at once; what they find is recorded in the order of the walk all the same.
-/

namespace RemoteIndex

/-- What is to be built. -/
structure BuildRequest where
  root : Path
  importMap : Option Path
  exclude : List String
  jobs : Nat
deriving DecidableEq, Repr, Inhabited

/-- What a build has found. -/
structure BuildReport where
  index : DependencyIndex
  /-- The problems, in the order in which they were met. -/
  diagnostics : List Diagnostic
  /-- The number of files that were read. -/
  filesScanned : Nat
deriving DecidableEq, Repr, Inhabited

namespace BuildReport

/-- The number of files that were met but not read. -/
def filesSkipped (r : BuildReport) : Nat := (r.diagnostics.filter (·.isFileSkip)).length

end BuildReport

/-- What became of one item of a walk. -/
inductive FileOutcome where
  | scanned (file : Path) (specifiers : List RawSpecifier)
  | skipped (diagnostic : Diagnostic)
deriving DecidableEq, Repr, Inhabited

/-- The classified specifiers of a script that is kept in `bytes`. -/
def specifiersOf (bytes : List UInt8) : List RawSpecifier :=
  (Script.specifierSites (Text.Utf8.decodeLossy bytes)).map .classify

namespace FileOutcome

/-- Parses the text of a file. -/
def ofText (file : Path) (text : String) : FileOutcome :=
  match Script.extract Script.outline? text with
  | .error error => .skipped (.parseFailed file error.message)
  | .ok specifiers => .scanned file specifiers

/-- There is an outline of every text. -/
@[simp]
theorem ofText_decodeLossy (file : Path) (bytes : List UInt8) :
    ofText file (Text.Utf8.decodeLossy bytes) = .scanned file (specifiersOf bytes) := rfl

/-- Scans what the walk has come across. -/
def ofItem (w : Walk) : Walk.Item → FileOutcome
  | .trouble error => .skipped (.ofWalkError error)
  | .file names =>
    match w.tree.read w.cwd (w.pathOf names) with
    | .error cause => .skipped (.fileUnreadable (w.pathOf names) cause.message)
    | .ok bytes => .ofText (w.pathOf names) (Text.Utf8.decodeLossy bytes)

end FileOutcome

namespace BuildReport

/-- The index with what a specifier in `file` stands for. -/
def recordSpecifier (m : ImportMap) (file : Path) (i : DependencyIndex) (raw : RawSpecifier) :
    DependencyIndex :=
  (i.record (raw.resolve m) ⟨file, raw.site.span, raw.site.form⟩).1

/-- The report with one more outcome. -/
def absorb (m : ImportMap) (r : BuildReport) : FileOutcome → BuildReport
  | .scanned file specifiers =>
    { r with
      index := specifiers.foldl (recordSpecifier m file) r.index
      filesScanned := r.filesScanned + 1 }
  | .skipped diagnostic => { r with diagnostics := r.diagnostics ++ [diagnostic] }

end BuildReport

/-- What the successive looks at a cancellation token tell: is it cancelled? -/
abbrev CancelAnswers := Nat → Bool

/-- The order in which workers take up a given number of items, as the items' positions. Each item
is taken up once. -/
structure Schedule where
  order : Nat → List Nat
  complete : ∀ n, (order n).Perm (List.range n)

/-- The items are taken up as they come. -/
def Schedule.inOrder : Schedule := ⟨List.range, fun _ => .refl _⟩

/-- What becomes of the workers that a build with several jobs asks for. -/
inductive Pool where
  /-- They start, and take up the items in this order. -/
  | started (schedule : Schedule)
  /-- They cannot be started. -/
  | failed (reason : String)

namespace Pool

/-- They start, and take up the items as they come. -/
def inOrder : Pool := .started .inOrder

/-- What keeps a build with so many jobs from its workers. With one job there are none to start. -/
def trouble? (pool : Pool) (jobs : Nat) : Option String :=
  match pool with
  | .started _ => none
  | .failed reason => if jobs ≤ 1 then none else some reason

@[simp]
theorem trouble?_started (schedule : Schedule) (jobs : Nat) :
    (started schedule).trouble? jobs = none := rfl

theorem trouble?_of_alone {jobs : Nat} (alone : jobs ≤ 1) (pool : Pool) :
    pool.trouble? jobs = none := by
  cases pool with
  | started schedule => rfl
  | failed reason => exact if_pos alone

theorem trouble?_failed {jobs : Nat} (many : ¬jobs ≤ 1) (reason : String) :
    (failed reason).trouble? jobs = some reason := if_neg many

end Pool

namespace Build

/-- One item after the other: looks at the token, scans and absorbs. `look` counts the looks. -/
def scanInTurn (m : ImportMap) (w : Walk) (cancelled : CancelAnswers) :
    Nat → BuildReport → List Walk.Item → Except BuildError BuildReport
  | _, r, [] => .ok r
  | look, r, item :: items =>
    if cancelled look then .error .cancelled
    else scanInTurn m w cancelled (look + 1) (r.absorb m (.ofItem w item)) items

/-- What workers put into the places of the items, each in its own. -/
def placed (w : Walk) (items : List Walk.Item) (order : List Nat) : List (Option FileOutcome) :=
  order.foldl (fun places i => places.set i (items[i]?.map (.ofItem w)))
    (List.replicate items.length none)

/-- First the walk to its end, with a look at every item; then the workers are started, and scan
all items, with a look before each; then what they found, in the order of the walk. -/
def scanAtOnce (m : ImportMap) (w : Walk) (cancelled : CancelAnswers) (pool : Pool)
    (r : BuildReport) (items : List Walk.Item) : Except BuildError BuildReport :=
  if (List.range items.length).any cancelled then .error .cancelled
  else
    match pool with
    | .failed reason => .error (.workerPool reason)
    | .started schedule =>
      let order := schedule.order items.length
      if (List.range order.length).any fun k => cancelled (items.length + k) then
        .error .cancelled
      else .ok (((placed w items order).filterMap id).foldl (·.absorb m) r)

/-- The import map of a build, the warnings about it, and the diagnostic if it has to do without. -/
def importMap (tree : FileTree) (cwd : Place) :
    Option Path → ImportMap × List Warning × List Diagnostic
  | none => (.empty, [], [])
  | some path =>
    match ImportMap.load tree cwd path with
    | .ok (m, warnings) => (m, warnings, [])
    | .error error => (.empty, [], [.ofImportMapError error])

/-- The filter of a build. -/
def filter (exclude : List String) : WalkFilter := WalkFilter.projectDefault.excluding exclude

/-- Builds the index of a project. -/
def run (tree : FileTree) (cwd : Place) (request : BuildRequest) (cancelled : CancelAnswers)
    (pool : Pool) : Except BuildError BuildReport :=
  let (m, _, diagnostics) := importMap tree cwd request.importMap
  match Walk.start? tree cwd (filter request.exclude) request.root with
  | .error error => .error (.rootUnreadable error)
  | .ok w =>
    let r : BuildReport := ⟨.empty, diagnostics, 0⟩
    if request.jobs ≤ 1 then scanInTurn m w cancelled 0 r w.items
    else scanAtOnce m w cancelled pool r w.items

/-- The warnings of a build. -/
def warnings (tree : FileTree) (cwd : Place) (request : BuildRequest) : List Warning :=
  (importMap tree cwd request.importMap).2.1 ++ WalkFilter.warnings request.exclude

end Build

end RemoteIndex
