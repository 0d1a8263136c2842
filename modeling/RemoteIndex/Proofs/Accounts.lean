import Mathlib.Data.List.Basic
import Mathlib.Data.List.Induction
import RemoteIndex.Proofs.Aliases

/-!
# What a report accounts for

Every item of a walk is accounted for once: a file that can be read is counted, and a file that
cannot, or an error of the walk, is a problem of its own at its place among the problems. The count
of skipped files, which is taken from the problems, so agrees with the count of scanned ones.
-/

namespace RemoteIndex

namespace Walk

/-- The path of an item that is a file. -/
def path? (w : Walk) : Item → Option Path
  | .file names => some (w.pathOf names)
  | .trouble _ => none

/-- Can the file be read? -/
def canRead (w : Walk) (p : Path) : Bool := (w.tree.read w.cwd p).isOk

/-- The problem that an item is, if it is one. -/
def problem? (w : Walk) : Item → Option Diagnostic
  | .trouble error => some (.directoryUnreadable error.message)
  | .file names =>
    match w.tree.read w.cwd (w.pathOf names) with
    | .error cause => some (.fileUnreadable (w.pathOf names) cause.message)
    | .ok _ => none

theorem files_eq_filterMap (w : Walk) : w.files.1 = w.items.filterMap w.path? := by
  rw [files]
  congr 1

/-- A file can be read and is no problem, or it cannot and is one. -/
theorem read_cases (w : Walk) (names : List Name) :
    (∃ bytes, w.tree.read w.cwd (w.pathOf names) = .ok bytes ∧
      w.canRead (w.pathOf names) = true ∧ w.problem? (.file names) = none) ∨
    ∃ cause, w.tree.read w.cwd (w.pathOf names) = .error cause ∧
      w.canRead (w.pathOf names) = false ∧
      w.problem? (.file names) = some (.fileUnreadable (w.pathOf names) cause.message) := by
  rw [canRead, problem?]
  cases w.tree.read w.cwd (w.pathOf names) with
  | ok bytes => exact .inl ⟨bytes, rfl, rfl, rfl⟩
  | error cause => exact .inr ⟨cause, rfl, rfl, rfl⟩

/-- The problems that are skipped files are the files that cannot be read. -/
theorem length_filter_isFileSkip (w : Walk) (items : List Item) :
    ((items.filterMap w.problem?).filter (·.isFileSkip)).length =
      ((items.filterMap w.path?).filter (!w.canRead ·)).length := by
  induction items with
  | nil => rfl
  | cons item items ih =>
    cases item with
    | trouble error => exact ih
    | file names =>
      have path : w.path? (.file names) = some (w.pathOf names) := rfl
      rw [List.filterMap_cons_some path]
      obtain ⟨bytes, -, reads, problem⟩ | ⟨cause, -, closed, problem⟩ := w.read_cases names
      · rw [List.filterMap_cons_none problem, ih]
        simp [reads]
      · have skipped : (Diagnostic.fileUnreadable (w.pathOf names) cause.message).isFileSkip :=
          rfl
        rw [List.filterMap_cons_some problem, List.filter_cons_of_pos skipped, List.length_cons, ih]
        simp [closed]

end Walk

/-- The report accounts for items of a walk, behind the problems that were met before them. -/
structure BuildReport.Accounts (r : BuildReport) (w : Walk) (before : List Diagnostic)
    (items : List Walk.Item) : Prop where
  scanned : r.filesScanned = ((items.filterMap w.path?).filter w.canRead).length
  diagnostics : r.diagnostics = before ++ items.filterMap w.problem?

namespace Build

open BuildReport

variable {m : ImportMap} {w : Walk} {r : BuildReport} {before : List Diagnostic}
  {items : List Walk.Item}

/-- Absorbing an item accounts for it, and leaves alone what was accounted for. -/
theorem accounts_absorb (h : r.Accounts w before items) (m : ImportMap) (item : Walk.Item) :
    (r.absorb m (.ofItem w item)).Accounts w before (items ++ [item]) := by
  cases item with
  | trouble error =>
    constructor
    · simp [FileOutcome.ofItem, absorb, h.scanned, Walk.path?]
    · simp [FileOutcome.ofItem, absorb, h.diagnostics, Walk.problem?, Diagnostic.ofWalkError]
  | file names =>
    obtain ⟨bytes, read, reads, problem⟩ | ⟨cause, read, closed, problem⟩ := w.read_cases names
    · constructor
      · simp [FileOutcome.ofItem, read, absorb, h.scanned, Walk.path?, reads]
      · simp [FileOutcome.ofItem, read, absorb, h.diagnostics, problem]
    · constructor
      · simp [FileOutcome.ofItem, read, absorb, h.scanned, Walk.path?, closed]
      · simp [FileOutcome.ofItem, read, absorb, h.diagnostics, problem]

theorem accounts_absorbed (m : ImportMap) (w : Walk) (before : List Diagnostic)
    (items : List Walk.Item) :
    (absorbed m w (blankReport before) items).Accounts w before items := by
  induction items using List.reverseRecOn with
  | nil => exact ⟨rfl, (List.append_nil before).symm⟩
  | append_singleton items item ih =>
    rw [absorbed_concat]
    exact accounts_absorb ih m item

/-- The problem with the import map of a build, if it is configured and cannot be loaded. -/
def mapProblem? (tree : FileTree) (cwd : Place) : Option Path → Option Diagnostic
  | none => none
  | some path =>
    match ImportMap.load tree cwd path with
    | .ok _ => none
    | .error error => some (.importMapUnavailable path error.message)

theorem diagnostics_importMap (tree : FileTree) (cwd : Place) (path : Option Path) :
    (importMap tree cwd path).2.2 = (mapProblem? tree cwd path).toList := by
  cases path with
  | none => rfl
  | some path =>
    cases loaded : ImportMap.load tree cwd path with
    | ok used => simp only [importMap, mapProblem?, loaded, Option.toList_none]
    | error error =>
      simp only [importMap, mapProblem?, loaded, Option.toList_some, Diagnostic.ofImportMapError,
        ImportMap.path_of_load_eq_error loaded]

/-- A problem with the import map is no skipped file. -/
theorem filter_isFileSkip_mapProblem? (tree : FileTree) (cwd : Place) (path : Option Path) :
    (mapProblem? tree cwd path).toList.filter (·.isFileSkip) = [] := by
  cases path with
  | none => rfl
  | some path =>
    rw [mapProblem?]
    cases ImportMap.load tree cwd path with
    | ok used => rfl
    | error error => rfl

variable {tree : FileTree} {cwd : Place} {request : BuildRequest} {cancelled : CancelAnswers}
  {pool : Pool} {report : BuildReport}

theorem accounts_run (built : run tree cwd request cancelled pool = .ok report) :
    ∃ w, Walk.start? tree cwd (filter request.exclude) request.root = .ok w ∧
      report.Accounts w (mapProblem? tree cwd request.importMap).toList w.items := by
  obtain ⟨w, started, rfl⟩ := run_ok built
  refine ⟨w, started, ?_⟩
  rw [diagnostics_importMap]
  exact accounts_absorbed _ w _ w.items

/-- Every file of the walk is scanned or skipped. -/
theorem filesSkipped_of_accounts
    (h : r.Accounts w (mapProblem? tree cwd request.importMap).toList w.items) :
    r.filesSkipped = (w.files.1.filter (!w.canRead ·)).length := by
  rw [filesSkipped, h.diagnostics, List.filter_append, filter_isFileSkip_mapProblem?,
    List.nil_append, Walk.length_filter_isFileSkip, Walk.files_eq_filterMap]

theorem filesScanned_add_filesSkipped
    (h : r.Accounts w (mapProblem? tree cwd request.importMap).toList w.items) :
    r.filesScanned + r.filesSkipped = w.files.1.length := by
  rw [filesSkipped_of_accounts h, h.scanned, ← Walk.files_eq_filterMap]
  exact (List.length_eq_length_filter_add w.canRead).symm

/-- A build accounts for every item of its walk once: the files that could be read are counted as
scanned and the others as skipped, and the problems are that of the import map, if it could not be
loaded, and then the errors and the unreadable files of the walk, in its order. -/
theorem run_accounts_for_items (built : run tree cwd request cancelled pool = .ok report) :
    ∃ w, Walk.start? tree cwd (filter request.exclude) request.root = .ok w ∧
      report.filesScanned = (w.files.1.filter w.canRead).length ∧
      report.filesSkipped = (w.files.1.filter (!w.canRead ·)).length ∧
      report.filesScanned + report.filesSkipped = w.files.1.length ∧
      report.diagnostics =
        (mapProblem? tree cwd request.importMap).toList ++ w.items.filterMap w.problem? := by
  obtain ⟨w, started, accounts⟩ := accounts_run built
  refine ⟨w, started, ?_, filesSkipped_of_accounts accounts,
    filesScanned_add_filesSkipped accounts, accounts.diagnostics⟩
  rw [accounts.scanned, Walk.files_eq_filterMap]

/-- A project with a script, a script that cannot be read, and a link that leads nowhere. -/
def raggedTree : FileTree :=
  ((FileTree.empty.place [.ofString "p", .ofString "l"] (.link (.ofString "gone"))).place
      [.ofString "p", .ofString "b.ts"] (.file [] false)).place
    [.ofString "p", .ofString "a.ts"]
    (.file (Text.Utf8.encode "import \"http://[::1]/x\";") true)

/-- The walk of that project. -/
def raggedWalk : Walk where
  tree := raggedTree
  cwd := []
  filter := filter []
  root := .ofString "/p"
  boundary := [.ofString "p"]
  located := by decide +kernel
  listable := by decide +kernel

theorem items_raggedWalk :
    raggedWalk.items = [.file [.ofString "a.ts"], .file [.ofString "b.ts"],
      .trouble (.unusable (.ofString "/p/l") .missing)] := by
  have levels : Walk.maxDepth raggedTree = 11 + 1 := by decide +kernel
  have entries : raggedTree.nodes.filterMap (fun e => FileTree.nameIn? [.ofString "p"] e.1) =
      [.ofString "a.ts", .ofString "b.ts", .ofString "l"] := by decide +kernel
  have names : raggedTree.names [.ofString "p"] =
      [.ofString "a.ts", .ofString "b.ts", .ofString "l"] := by
    rw [FileTree.names, entries]
    exact List.mergeSort_of_pairwise (by decide +kernel)
  have listed : raggedWalk.tree.list raggedWalk.cwd (raggedWalk.pathOf []) =
      .ok [.ofString "a.ts", .ofString "b.ts", .ofString "l"] := names ▸ rfl
  have script : raggedWalk.move ⟨[.ofString "p"], []⟩ [] (.ofString "a.ts") =
      .give (.file [.ofString "a.ts"]) := by decide +kernel
  have closed : raggedWalk.move ⟨[.ofString "p"], []⟩ [] (.ofString "b.ts") =
      .give (.file [.ofString "b.ts"]) := by decide +kernel
  have link : raggedWalk.move ⟨[.ofString "p"], []⟩ [] (.ofString "l") =
      .give (.trouble (.unusable (.ofString "/p/l") .missing)) := by decide +kernel
  change raggedWalk.visit (Walk.maxDepth raggedTree) ⟨[.ofString "p"], []⟩ [] = _
  rw [levels, Walk.visit]
  simp only [listed, List.flatMap_cons, List.flatMap_nil, script, closed, link]
  rfl

/-- The build of that project by two workers, with an import map that is not there. -/
def raggedRequest : BuildRequest := ⟨.ofString "/p", some (.ofString "/m"), [], 2⟩

/-- The problem with the import map. -/
def raggedMapProblem : Diagnostic :=
  .importMapUnavailable (.ofString "/m")
    (ImportMapError.message (.unread (.ofString "/m") .missing))

/-- Its report. -/
def raggedReport : BuildReport where
  index := .append .empty "http://[::1]/x" ⟨.ofString "/p/a.ts", ⟨⟨0, 7⟩, ⟨0, 23⟩⟩, .importFrom⟩
  diagnostics := [raggedMapProblem, .fileUnreadable (.ofString "/p/b.ts") FileError.denied.message,
    .directoryUnreadable (WalkError.unusable (.ofString "/p/l") .missing).message]
  filesScanned := 1

theorem run_raggedTree :
    run raggedTree [] raggedRequest (fun _ => false) .inOrder = .ok raggedReport := by
  have begun : plan? raggedTree [] raggedRequest =
      .ok ⟨.empty, raggedWalk, [raggedMapProblem], 2⟩ := rfl
  have report : Plan.report ⟨.empty, raggedWalk, [raggedMapProblem], 2⟩ = raggedReport := by
    change absorbed .empty raggedWalk (blankReport [raggedMapProblem]) raggedWalk.items = _
    rw [items_raggedWalk]
    decide +kernel
  rw [Pool.inOrder, run_of_never_started begun, report]

theorem run_accounts_for_items_ragged :
    run raggedTree [] raggedRequest (fun _ => false) .inOrder = .ok raggedReport ∧
    ∃ w, Walk.start? raggedTree [] (filter []) (.ofString "/p") = .ok w ∧
      raggedReport.filesScanned = (w.files.1.filter w.canRead).length ∧
      raggedReport.filesSkipped = (w.files.1.filter (!w.canRead ·)).length ∧
      raggedReport.filesScanned + raggedReport.filesSkipped = w.files.1.length ∧
      raggedReport.diagnostics =
        (mapProblem? raggedTree [] (some (.ofString "/m"))).toList ++ w.items.filterMap w.problem? :=
  ⟨run_raggedTree, run_accounts_for_items run_raggedTree⟩

end Build

end RemoteIndex
