import RemoteIndex.Program
import RemoteIndex.Proofs.Accounts
import RemoteIndex.Proofs.Arguments
import RemoteIndex.Proofs.Confinement
import RemoteIndex.Proofs.Pruning
import RemoteIndex.Proofs.Verdict

/-!
# The two commands

Both commands walk the same project: each makes its path absolute, loads the settings that are
found there and walks with the filter that they give. So they fail together, and otherwise the files
that the one lists are those that the other has scanned or skipped.
-/

namespace RemoteIndex

theorem Path.exists_absolute? (cwd : Path) {p : Path} (h : p.bytes ≠ []) :
    ∃ root, Path.absolute? cwd p = some root := by
  have filled : p.bytes.isEmpty = false := List.isEmpty_eq_false_iff.mpr h
  rw [absolute?, filled]
  exact ⟨_, rfl⟩

namespace Program

open Build

/-- The paths that the walk of a project lists, as seen from its root. -/
def listing (root : Path) (w : Walk) : List String :=
  w.files.1.map fun file => (file.relativeTo root).display

/-- What is to be built of a project. -/
def request (s : Surroundings) (root : Path) (importMap : Option Path) (jobs : Nat) :
    BuildRequest :=
  let settings := (Settings.load s.tree s.cwd root).1
  ⟨root, importMapPath s.cwd root settings importMap, settings.excludePatterns, jobs⟩

/-- The build of a project that nobody stops. -/
def build (s : Surroundings) (root : Path) (importMap : Option Path) (jobs : Nat) :
    Except BuildError BuildReport :=
  Build.run s.tree s.cwd (request s root importMap jobs) (fun _ => false) s.pool

/-- The walk that both commands begin with. -/
def walk? (s : Surroundings) (root : Path) : Except RootError Walk :=
  Walk.start? s.tree s.cwd
    (Build.filter (Settings.load s.tree s.cwd root).1.excludePatterns) root

/-- Every member of a group has a label in common with what the group belongs to. Where the groups
stand one behind the other, so do the labels: they are found in the list at positions that do not go
back. -/
theorem exists_positions {α β γ : Type} {group : α → List β} {shown : β → γ} {label : α → γ}
    (belongs : ∀ a, ∀ b ∈ group a, shown b = label a) (as : List α) :
    ∃ positions : List Nat, positions.Pairwise (· ≤ ·) ∧
      ((as.flatMap group).map shown).map some = positions.map ((as.map label)[·]?) := by
  induction as with
  | nil => exact ⟨[], .nil, rfl⟩
  | cons a as ih =>
    obtain ⟨positions, ascending, rest⟩ := ih
    refine ⟨List.replicate (group a).length 0 ++ positions.map (· + 1), ?_, ?_⟩
    · rw [List.pairwise_append]
      refine ⟨List.pairwise_replicate.mpr (.inr (Nat.le_refl 0)), ?_, ?_⟩
      · exact List.pairwise_map.mpr (ascending.imp (Nat.add_le_add_right · 1))
      · intro i first j _
        rw [List.eq_of_mem_replicate first]
        exact Nat.zero_le j
    · have first : ((group a).map shown).map some =
          (List.replicate (group a).length 0).map (((a :: as).map label)[·]?) := by
        rw [List.map_replicate, List.map_map]
        exact List.map_eq_replicate_iff.mpr fun b member => congrArg some (belongs a b member)
      rw [List.flatMap_cons, List.map_append, List.map_append, List.map_append, first, rest,
        List.map_map]
      rfl

variable {s : Surroundings} {root : Path}

theorem files_eq (s : Surroundings) (root : Path) :
    files s root =
      match walk? s root with
      | .error error => .failed error.message [error.cause.message]
      | .ok w => .printed (Report.lines (listing root w ++
          [toString (listing root w).length ++ " file(s)"])) [] := by
  rcases loaded : Settings.load s.tree s.cwd root with ⟨settings, warnings⟩
  simp only [files, walk?, loaded]
  cases Walk.start? s.tree s.cwd (Build.filter settings.excludePatterns) root with
  | error error => rfl
  | ok w => simp only [fileLines, listing, List.length_map]

theorem run_eq_files {args : List Argument} {verbose : Bool} {path : Path}
    (parsed : CommandLine.parse args = .ok ⟨verbose, .files path⟩)
    (absolute : Path.absolute? s.cwd.path path = some root) : run s args = files s root := by
  simp only [run, parsed, runCommand, atRoot, absolute]

theorem run_eq_tree {args : List Argument} {verbose : Bool} {path : Path} {importMap : Option Path}
    {format : OutputFormat} {jobs : Nat} {timeout : Option Nat}
    (parsed : CommandLine.parse args = .ok ⟨verbose, .tree path importMap format jobs timeout⟩)
    (absolute : Path.absolute? s.cwd.path path = some root) :
    run s args = tree s root importMap format jobs timeout := by
  simp only [run, parsed, runCommand, atRoot, absolute]

/-- The token is made before anything is built. -/
theorem tree_eq_of_timeout (s : Surroundings) (root : Path) (importMap : Option Path)
    (format : OutputFormat) (jobs : Nat) (timeout : Option Nat) :
    tree s root importMap format jobs timeout =
      match family? s timeout with
      | none => ⟨101, "", "overflow when adding duration to instant\n"⟩
      | some family =>
        match Build.run s.tree s.cwd (request s root importMap jobs) (answers s family)
          s.pool with
        | .error error =>
          .failed ("failed to build dependency tree for " ++ root.display) (causes error)
        | .ok report =>
          .printed (Report.output format root report.index) (Report.diagnosticLines report) := rfl

theorem tree_of_refused {timeout : Option Nat} (refused : family? s timeout = none)
    (importMap : Option Path) (format : OutputFormat) (jobs : Nat) :
    tree s root importMap format jobs timeout =
      ⟨101, "", "overflow when adding duration to instant\n"⟩ := by
  rw [tree_eq_of_timeout, refused]

theorem tree_of_granted {timeout : Option Nat} {family : CancelFamily}
    (granted : family? s timeout = some family) (importMap : Option Path) (format : OutputFormat)
    (jobs : Nat) :
    tree s root importMap format jobs timeout =
      match Build.run s.tree s.cwd (request s root importMap jobs) (answers s family)
        s.pool with
      | .error error =>
        .failed ("failed to build dependency tree for " ++ root.display) (causes error)
      | .ok report =>
        .printed (Report.output format root report.index) (Report.diagnosticLines report) := by
  rw [tree_eq_of_timeout, granted]

/-- Without a timeout the token of a build is never cancelled. -/
theorem tree_eq (s : Surroundings) (root : Path) (importMap : Option Path) (format : OutputFormat)
    (jobs : Nat) :
    tree s root importMap format jobs none =
      match build s root importMap jobs with
      | .error error =>
        .failed ("failed to build dependency tree for " ++ root.display) (causes error)
      | .ok report =>
        .printed (Report.output format root report.index) (Report.diagnosticLines report) := rfl

theorem build_of_walk?_eq_error {error : RootError} (refused : walk? s root = .error error)
    (importMap : Option Path) (jobs : Nat) :
    build s root importMap jobs = .error (.rootUnreadable error) := by
  have begun : plan? s.tree s.cwd (request s root importMap jobs) = .error error :=
    plan?_eq_error.mpr refused
  rw [build, run_eq, begun]

theorem build_of_trouble? {w : Walk} (started : walk? s root = .ok w) (importMap : Option Path)
    {jobs : Nat} {reason : String} (trouble : s.pool.trouble? jobs = some reason) :
    build s root importMap jobs = .error (.workerPool reason) := by
  have begun : plan? s.tree s.cwd (request s root importMap jobs) = .ok ⟨_, w, _, _⟩ :=
    plan?_eq_ok.mpr ⟨started, rfl, rfl, rfl⟩
  rw [build, run_of_never begun, Plan.whole]
  simp only [request, trouble]

/-- A build accounts for the files that the walk lists, and its references are in files of the list,
in its order. -/
theorem build_of_walk?_eq_ok {w : Walk} (started : walk? s root = .ok w)
    (importMap : Option Path) {jobs : Nat} (served : s.pool.trouble? jobs = none) :
    ∃ report, build s root importMap jobs = .ok report ∧
      report.filesScanned + report.filesSkipped = (listing root w).length ∧
      ∀ url, ∃ positions : List Nat, positions.Pairwise (· ≤ ·) ∧
        ((((report.index.get? url).getD []).map (Report.fileText root)).map some) =
          positions.map ((listing root w)[·]?) := by
  obtain ⟨report, built⟩ :=
    (exists_run_eq_ok s.tree s.cwd (request s root importMap jobs) served).mpr ⟨w, started⟩
  refine ⟨report, built, ?_, ?_⟩
  · obtain ⟨w', started', accounts⟩ := accounts_run built
    obtain rfl := Except.ok.inj (started.symm.trans started')
    rw [filesScanned_add_filesSkipped accounts, listing, List.length_map]
  · intro url
    obtain ⟨w', started', lists⟩ := lists_index_of_run built
    obtain rfl := Except.ok.inj (started.symm.trans started')
    rw [lists.getD url, references]
    refine exists_positions ?_ w.files.1
    intro file e refers
    rw [Report.fileText, (file_of_mem_referencesIn refers).1]

/-- With the same path and no timeout the two commands see the same project: either its root cannot
be walked and both fail for it, or both print what they found. Then as many files are listed as the
build has scanned or skipped, and the files of every module's references are in the list, in its
order. Only if its workers cannot be started, the build fails where the files are listed. -/
theorem run_files_and_tree (s : Surroundings) {args args' : List Argument} {verbose verbose' : Bool}
    {path : Path} {importMap : Option Path} {format : OutputFormat} {jobs : Nat}
    (toFiles : CommandLine.parse args = .ok ⟨verbose, .files path⟩)
    (toTree : CommandLine.parse args' = .ok ⟨verbose', .tree path importMap format jobs none⟩) :
    ∃ root, Path.absolute? s.cwd.path path = some root ∧
      ((∃ error, build s root importMap jobs = .error (.rootUnreadable error) ∧
          run s args = .failed error.message [error.cause.message] ∧
          run s args' = .failed ("failed to build dependency tree for " ++ root.display)
            [error.message, error.cause.message]) ∨
        ∃ listed,
          run s args =
            .printed (Report.lines (listed ++ [toString listed.length ++ " file(s)"])) [] ∧
          match s.pool.trouble? jobs with
          | none => ∃ report, build s root importMap jobs = .ok report ∧
            run s args' =
              .printed (Report.output format root report.index) (Report.diagnosticLines report) ∧
            report.filesScanned + report.filesSkipped = listed.length ∧
            ∀ url, ∃ positions : List Nat, positions.Pairwise (· ≤ ·) ∧
              (((report.index.get? url).getD []).map (Report.fileText root)).map some =
                positions.map (listed[·]?)
          | some reason => build s root importMap jobs = .error (.workerPool reason) ∧
            run s args' = .failed ("failed to build dependency tree for " ++ root.display)
              ["failed to start worker pool: " ++ reason]) := by
  obtain ⟨root, absolute⟩ :=
    Path.exists_absolute? s.cwd.path (CommandLine.path_ne_nil_of_parse toFiles)
  have absolute : Path.absolute? s.cwd.path path = some root := absolute
  have runFiles : run s args = files s root := by
    simp only [run, toFiles, runCommand, atRoot, absolute]
  have runTree : run s args' = tree s root importMap format jobs none := by
    simp only [run, toTree, runCommand, atRoot, absolute]
  refine ⟨root, absolute, ?_⟩
  rw [runFiles, runTree, files_eq, tree_eq]
  cases started : walk? s root with
  | error error =>
    refine .inl ⟨error, build_of_walk?_eq_error started importMap jobs, rfl, ?_⟩
    rw [build_of_walk?_eq_error started importMap jobs]
    rfl
  | ok w =>
    refine .inr ⟨listing root w, rfl, ?_⟩
    cases trouble : s.pool.trouble? jobs with
    | none =>
      obtain ⟨report, built, counts, edges⟩ := build_of_walk?_eq_ok started importMap trouble
      refine ⟨report, built, ?_, counts, edges⟩
      rw [built]
    | some reason =>
      refine ⟨build_of_trouble? started importMap trouble, ?_⟩
      rw [build_of_trouble? started importMap trouble]
      rfl

/-- A project with two scripts that name the same module. -/
def twins : Surroundings := ⟨twinTree, [], fun _ => default, .inOrder⟩

theorem build_twins : build twins (.ofString "/p") none 2 = .ok twinReport := by
  have asked : request twins (.ofString "/p") none 2 = twinRequest := by decide +kernel
  rw [build, asked, ← report_twinWalk 2]
  exact run_of_never_started plan?_twinRequest .inOrder

theorem run_files_and_tree_twins :
    CommandLine.parse ["files", "/p"] = .ok ⟨false, .files (.ofString "/p")⟩ ∧
    CommandLine.parse ["tree", "-j2", "--format=json", "/p"] =
      .ok ⟨false, .tree (.ofString "/p") none .json 2 none⟩ ∧
    ∃ listed,
      run twins ["files", "/p"] =
        .printed (Report.lines (listed ++ [toString listed.length ++ " file(s)"])) [] ∧
      run twins ["tree", "-j2", "--format=json", "/p"] =
        .printed (Report.output .json (.ofString "/p") twinReport.index) [] ∧
      listed.length = 2 ∧
      ∃ positions : List Nat, positions.Pairwise (· ≤ ·) ∧
        [some "a.ts", some "b.ts"] = positions.map (listed[·]?) := by
  have toFiles : CommandLine.parse ["files", "/p"] = .ok ⟨false, .files (.ofString "/p")⟩ := by
    decide +kernel
  have toTree : CommandLine.parse ["tree", "-j2", "--format=json", "/p"] =
      .ok ⟨false, .tree (.ofString "/p") none .json 2 none⟩ := by decide +kernel
  obtain ⟨root, absolute, agree⟩ := run_files_and_tree twins toFiles toTree
  have same : Path.absolute? (Place.path []) (.ofString "/p") = some (.ofString "/p") := by
    decide +kernel
  obtain rfl := Option.some.inj (absolute.symm.trans same)
  rw [build_twins] at agree
  obtain ⟨error, refused, -⟩ | ⟨listed, listing, report, built, printed, counts, edges⟩ := agree
  · cases refused
  · obtain rfl := Except.ok.inj built
    obtain ⟨positions, ascending, shown⟩ := edges "http://[::1]/x"
    refine ⟨toFiles, toTree, listed, listing, printed, counts.symm, positions, ascending, ?_⟩
    rw [← shown]
    decide +kernel

end Program

end RemoteIndex
