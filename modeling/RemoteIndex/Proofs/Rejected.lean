import RemoteIndex.Proofs.WithoutFile
import RemoteIndex.Proofs.Unset

/-!
# Settings that are rejected

A settings file that is no settings document counts for nothing: a run with it comes out as a run
without it, if no link leads to the file and it is not read as the import map. Only where a link or
the path of the import map goes on from the file, as though it were a directory, the reason that is
given for that differs.
-/

namespace RemoteIndex

/-! ## Outcomes up to reasons -/

variable {mayChange : Path → Prop}

/-- The lines are the same, or they are about problems that are the same up to a reason. -/
inductive Report.Reworded (mayChange : Path → Prop) : String → String → Prop
  | same (line : String) : Reworded mayChange line line
  | problem {d d' : Diagnostic} : d.SameUpToReason mayChange d' →
      Reworded mayChange ("  " ++ d.display) ("  " ++ d'.display)

/-- The outcomes are the same, but for the reasons that are given in lines about problems. -/
structure Outcome.SameUpToReason (mayChange : Path → Prop) (o o' : Outcome) : Prop where
  exitCode : o'.exitCode = o.exitCode
  stdout : o'.stdout = o.stdout
  stderr : ∃ ls ls', o.stderr = Report.lines ls ∧ o'.stderr = Report.lines ls' ∧
    List.Forall₂ (Report.Reworded mayChange) ls ls'

theorem Report.forall₂_reworded_same (ls : List String) :
    List.Forall₂ (Reworded mayChange) ls ls :=
  List.forall₂_same.mpr fun line _ => .same line

theorem Report.Reworded.eq_of_none {line line' : String} (none : ∀ p, ¬mayChange p)
    (h : Reworded mayChange line line') : line = line' := by
  cases h with
  | same => rfl
  | problem same =>
    cases same with
    | same => rfl
    | link changes => exact absurd changes (none _)
    | importMap changes => exact absurd changes (none _)

theorem Report.reworded_diagnosticLines {r r' : BuildReport} (h : r.SameUpToReason mayChange r') :
    List.Forall₂ (Reworded mayChange) (diagnosticLines r) (diagnosticLines r') := by
  have many := h.diagnostics.length_eq
  have calm : r'.diagnostics.isEmpty = r.diagnostics.isEmpty := by
    rw [Bool.eq_iff_iff, List.isEmpty_iff_length_eq_zero, List.isEmpty_iff_length_eq_zero, many]
  rw [diagnosticLines, diagnosticLines, calm, h.filesSkipped, ← many, ← h.filesScanned]
  split
  · exact .nil
  · exact .cons (.same _) (List.rel_map (fun _ _ same => .problem same) h.diagnostics)

namespace Outcome

variable {o o' : Outcome}

theorem sameUpToReason_failed (error : String) (causes : List String) :
    (failed error causes).SameUpToReason mayChange (failed error causes) :=
  ⟨rfl, rfl, _, _, rfl, rfl, Report.forall₂_reworded_same _⟩

theorem sameUpToReason_printed (stdout : String) {ls ls' : List String}
    (h : List.Forall₂ (Report.Reworded mayChange) ls ls') :
    (printed stdout ls).SameUpToReason mayChange (printed stdout ls') :=
  ⟨rfl, rfl, ls, ls', rfl, rfl, h⟩

theorem SameUpToReason.eq_of_none (h : o.SameUpToReason mayChange o')
    (none : ∀ p, ¬mayChange p) : o' = o := by
  obtain ⟨exitCode, stdout, ls, ls', stderr, stderr', lines⟩ := h
  have same : List.Forall₂ (· = ·) ls ls' := lines.imp fun _ _ => Report.Reworded.eq_of_none none
  rw [List.forall₂_eq_eq_eq] at same
  obtain ⟨_, _, _⟩ := o
  obtain ⟨_, _, _⟩ := o'
  simp only at exitCode stdout stderr stderr'
  rw [exitCode, stdout, stderr, stderr', same]

end Outcome

/-! ## Runs without the file -/

/-- The import map that a command is given. -/
def Command.importMap : Command → Option Path
  | .tree _ importMap _ _ _ => importMap
  | .files _ => none

/-- The surroundings without the entry at `e`. -/
def Surroundings.without (s : Surroundings) (e : Place) : Surroundings :=
  { s with tree := s.tree.prune e }

namespace Surroundings

variable (s : Surroundings) (e : Place)

@[simp]
theorem tree_without : (s.without e).tree = s.tree.prune e := rfl

@[simp]
theorem cwd_without : (s.without e).cwd = s.cwd := rfl

@[simp]
theorem pool_without : (s.without e).pool = s.pool := rfl

@[simp]
theorem answers_without (family : CancelFamily) :
    Program.answers (s.without e) family = Program.answers s family := rfl

@[simp]
theorem family?_without (timeout : Option Nat) :
    Program.family? (s.without e) timeout = Program.family? s timeout := by
  cases timeout with
  | none => rfl
  | some seconds => rfl

end Surroundings

namespace Program

open Build (ReasonMayChange)

variable {s : Surroundings} {root p : Path} {project cwd : Place}

/-- The import map that a command is given, as seen from the working directory. -/
def givenImportMap (cwd : Place) (importMap : Option Path) : Option Path :=
  importMap.map fun p => (Path.absolute? cwd.path p).getD p

/-- No link leads to the file at `e`, and it is not the import map that a command is given. -/
structure Unread (s : Surroundings) (importMap : Option Path) (e : Place) : Prop where
  links : s.tree.Unlinked e
  importMap : ∀ p, givenImportMap s.cwd importMap = some p → s.tree.locate s.cwd p ≠ .ok e

theorem isAbsolute_of_givenImportMap {importMap : Option Path}
    (given : givenImportMap cwd importMap = some p) (filled : p.bytes ≠ []) :
    p.isAbsolute = true := by
  obtain ⟨q, -, rfl⟩ := Option.map_eq_some_iff.mp given
  cases absolute : Path.absolute? cwd.path q with
  | none =>
    rw [absolute, Option.getD_none] at filled
    obtain ⟨r, absolute'⟩ := Path.exists_absolute? cwd.path filled
    exact absurd (absolute.symm.trans absolute') (by simp)
  | some r => exact (Path.absolute?_eq_some (Path.isAbsolute_place cwd) absolute).1

theorem request_of_default (unset : (Settings.load s.tree s.cwd root).1 = .default)
    (importMap : Option Path) (jobs : Nat) :
    request s root importMap jobs = ⟨root, givenImportMap s.cwd importMap, [], jobs⟩ := by
  rw [request, unset]
  cases importMap with
  | none => rfl
  | some p => rfl

theorem walk?_of_default (unset : (Settings.load s.tree s.cwd root).1 = .default) :
    walk? s root = Walk.start? s.tree s.cwd (Build.filter []) root := by
  rw [walk?, unset]
  rfl

/-- The walk of a project does not show its settings. -/
theorem shows_fileAt (dir : Place) (n : Name) (same : Settings.fileAt project = dir ++ [n]) :
    (Build.filter []).shows n = false := by
  obtain rfl := List.singleton_inj.mp (List.append_inj' same rfl).2
  decide +kernel

section SameUpToReason

variable (file : s.tree.HasFile (Settings.fileAt project))
  (unset : (Settings.load s.tree s.cwd root).1 = .default)
  (unset' : (Settings.load (s.without (Settings.fileAt project)).tree s.cwd root).1 = .default)

include file unset unset'

theorem sameUpToReason_files (unlinked : s.tree.Unlinked (Settings.fileAt project)) :
    (files s root).SameUpToReason mayChange (files (s.without (Settings.fileAt project)) root) := by
  have starts := Walk.start?_prune_of_file file s.cwd (Build.filter []) root
  rw [files_eq, files_eq, walk?_of_default unset, walk?_of_default unset',
    Surroundings.tree_without, Surroundings.cwd_without]
  cases started : Walk.start? s.tree s.cwd (Build.filter []) root with
  | error error =>
    rw [started] at starts
    rw [starts]
    exact Outcome.sameUpToReason_failed _ _
  | ok w =>
    rw [started] at starts
    obtain ⟨avoids, started'⟩ := starts
    obtain ⟨tree, -, filter, -⟩ := Walk.start?_eq_ok started
    have unseen : w.UnseenFile (Settings.fileAt project) :=
      ⟨tree ▸ file, avoids, tree ▸ unlinked, fun dir n same => filter ▸ shows_fileAt dir n same⟩
    have same : listing root (w.without (Settings.fileAt project) avoids) = listing root w := by
      rw [listing, listing, Walk.files_prune unseen]
    simp only [started', same]
    exact Outcome.sameUpToReason_printed _ .nil

theorem sameUpToReason_tree {importMap : Option Path}
    (unread : Unread s importMap (Settings.fileAt project)) (format : OutputFormat) (jobs : Nat)
    (timeout : Option Nat) :
    (tree s root importMap format jobs timeout).SameUpToReason
      (ReasonMayChange s.tree s.cwd (givenImportMap s.cwd importMap) (Settings.fileAt project))
      (tree (s.without (Settings.fileAt project)) root importMap format jobs timeout) := by
  cases granted : family? s timeout with
  | none =>
    have line : "overflow when adding duration to instant\n" =
        Report.lines ["overflow when adding duration to instant"] := by
      simp [Report.lines]
    rw [tree_of_refused granted,
      tree_of_refused ((Surroundings.family?_without s _ timeout).trans granted)]
    exact ⟨rfl, rfl, _, _, line, line, Report.forall₂_reworded_same _⟩
  | some family =>
    rw [tree_of_granted granted,
      tree_of_granted ((Surroundings.family?_without s _ timeout).trans granted),
      request_of_default unset, request_of_default unset', Surroundings.tree_without,
      Surroundings.cwd_without, Surroundings.pool_without, Surroundings.answers_without]
    obtain ⟨error, built, built'⟩ | ⟨r, r', built, built', same⟩ :=
      Build.run_prune_of_file ⟨root, givenImportMap s.cwd importMap, [], jobs⟩ file unread.links
        shows_fileAt (fun _ => isAbsolute_of_givenImportMap) unread.importMap (answers s family)
        s.pool
    · rw [built, built']
      exact Outcome.sameUpToReason_failed _ _
    · rw [built, built']
      simp only [same.index]
      exact Outcome.sameUpToReason_printed _ (Report.reworded_diagnosticLines same)

end SameUpToReason

/-- A settings file that is rejected counts as none: the settings are those of a project without
one. If no link leads to the file and it is not the import map, then a command ends with the same
exit code and the same on stdout without it, and on stderr only reasons differ. That is where a link,
or the path of the import map, goes on from the file as though it were a directory; if there are no
such ways, the outcome is the same. -/
theorem run_without_rejected (s : Surroundings) {args : List Argument} {line : CommandLine}
    {root : Path} {project : Place} {bytes : List UInt8} {accessible : Bool}
    (parsed : CommandLine.parse args = .ok line)
    (absolute : Path.absolute? s.cwd.path line.command.path = some root)
    (located : s.tree.locate s.cwd root = .ok project)
    (found : s.tree.node? (Settings.fileAt project) = some (.file bytes accessible))
    (rejects : Settings.Rejects bytes)
    (unread : Unread s line.command.importMap (Settings.fileAt project)) :
    (Settings.load s.tree s.cwd root).1 = .default ∧
      (run s args).SameUpToReason
        (ReasonMayChange s.tree s.cwd (givenImportMap s.cwd line.command.importMap)
          (Settings.fileAt project))
        (run (s.without (Settings.fileAt project)) args) ∧
      (s.tree.Detached (Settings.fileAt project) →
        (∀ p, givenImportMap s.cwd line.command.importMap = some p →
          s.tree.PathAvoids s.cwd p (Settings.fileAt project)) →
        run (s.without (Settings.fileAt project)) args = run s args) := by
  have file : s.tree.HasFile (Settings.fileAt project) := ⟨bytes, accessible, found⟩
  have unset := Settings.load_of_rejects located found rejects
  have unset' := Settings.load_prune_of_file
    (Path.absolute?_eq_some (Path.isAbsolute_place s.cwd) absolute).1 located file
  have same : (run s args).SameUpToReason
      (ReasonMayChange s.tree s.cwd (givenImportMap s.cwd line.command.importMap)
        (Settings.fileAt project))
      (run (s.without (Settings.fileAt project)) args) := by
    obtain ⟨verbose, command⟩ := line
    cases command with
    | files path =>
      rw [run_eq_files parsed absolute,
        run_eq_files (s := s.without (Settings.fileAt project)) parsed absolute]
      exact sameUpToReason_files file unset unset' unread.links
    | tree path importMap format jobs timeout =>
      rw [run_eq_tree parsed absolute,
        run_eq_tree (s := s.without (Settings.fileAt project)) parsed absolute]
      exact sameUpToReason_tree file unset unset' unread format jobs timeout
  -- Without ways on from the file there is no path that could make a difference.
  refine ⟨unset, same, fun detached avoids => same.eq_of_none ?_⟩
  rintro p ⟨passes, given | attached⟩
  · exact passes (avoids p given)
  · exact attached detached

/-! ### A file with good settings before a bad one -/

/-- Settings that would leave out every script, and a key that is none. -/
def spurnedText : String := "import_map = 'm.json'\nexclude = ['*.ts']\nmode = 1\n"

/-- A project with such a file and with a script, and a link to the project. -/
def spurned : Surroundings :=
  ⟨((FileTree.empty.place [.ofString "p", .ofString "a.ts"]
          (.file (Text.Utf8.encode "import \"http://[::1]/x\";") true)).place
        (Settings.fileAt [.ofString "p"]) (.file (Text.Utf8.encode spurnedText) true)).place
      [.ofString "l"] (.link (.ofString "p")),
    [], fun _ => default, .inOrder⟩

theorem rejects_spurnedText : Settings.Rejects (Text.Utf8.encode spurnedText) := by
  have before : Settings.Document.Reads (⟨none, none⟩, Settings.Document.unmarked spurnedText)
      (⟨some "m.json", some ["*.ts"]⟩, "mode = 1\n".toList) :=
    .head (show _ = some (⟨some "m.json", none⟩, "exclude = ['*.ts']\nmode = 1\n".toList) by
        decide +kernel)
      (.single (by decide +kernel))
  have named : Settings.Document.key? ("mode = 1\n".toList.dropWhile Settings.Document.isBlank) =
      some ("mode", " = 1\n".toList) := by decide +kernel
  have decoded : Text.Utf8.decode? (Text.Utf8.encode spurnedText) = some spurnedText := by
    decide +kernel
  rw [Settings.Rejects, decoded]
  exact Settings.ofDocument?_of_unknown before named (by decide) (by decide)

/-- The project has no other link than the one to it. -/
theorem eq_of_link_spurned {here : Place} {n : Name} {target : Path}
    (link : spurned.tree.node? (here ++ [n]) = some (.link target)) :
    here = [] ∧ n = .ofString "l" ∧ target = .ofString "p" :=
  Build.eq_of_links [] (.ofString "l") (.ofString "p") (by decide +kernel) (by decide +kernel) link

/-- The link to the project leads there, and so not to its settings. -/
theorem leads_link_spurned :
    spurned.tree.Leads FileTree.maxLinks [] (FileTree.steps (.ofString "p")) [.ofString "p"] :=
  FileTree.leads_of_resolve (by decide +kernel)

theorem run_without_rejected_spurned :
    CommandLine.parse ["tree", "/l"] =
      .ok ⟨false, .tree (.ofString "/l") none .compact 1 none⟩ ∧
    spurned.tree.locate [] (.ofString "/l") = .ok [.ofString "p"] ∧
    Settings.Rejects (Text.Utf8.encode spurnedText) ∧
    Unread spurned none (Settings.fileAt [.ofString "p"]) ∧
    run spurned ["tree", "/l"] =
      .printed "http://[::1]/x\n  a.ts:1:8\n1 remote modules, 1 references\n" [] := by
  have parsed : CommandLine.parse ["tree", "/l"] =
      .ok ⟨false, .tree (.ofString "/l") none .compact 1 none⟩ := by decide +kernel
  have absolute : Path.absolute? spurned.cwd.path (.ofString "/l") = some (.ofString "/l") := by
    decide +kernel
  have located : spurned.tree.locate [] (.ofString "/l") = .ok [.ofString "p"] := by decide +kernel
  have found : spurned.tree.node? (Settings.fileAt [.ofString "p"]) =
      some (.file (Text.Utf8.encode spurnedText) true) := by decide +kernel
  have file : spurned.tree.HasFile (Settings.fileAt [.ofString "p"]) := ⟨_, _, found⟩
  have other : [.ofString "p"] ≠ Settings.fileAt [.ofString "p"] := by decide +kernel
  have unread : Unread spurned none (Settings.fileAt [.ofString "p"]) := by
    refine ⟨?_, nofun⟩
    intro here n target link leads
    obtain ⟨rfl, rfl, rfl⟩ := eq_of_link_spurned link
    exact other (leads_link_spurned.unique leads)
  have detached : spurned.tree.Detached (Settings.fileAt [.ofString "p"]) := by
    intro here n target link _ asks
    obtain ⟨rfl, rfl, rfl⟩ := eq_of_link_spurned link
    exact other (file.eq_of_looksUp leads_link_spurned asks)
  have without : run (spurned.without (Settings.fileAt [.ofString "p"])) ["tree", "/l"] =
      .printed "http://[::1]/x\n  a.ts:1:8\n1 remote modules, 1 references\n" [] := by
    decide +kernel
  obtain ⟨-, -, same⟩ :=
    run_without_rejected spurned parsed absolute located found rejects_spurnedText unread
  exact ⟨parsed, located, rejects_spurnedText, unread, (same detached nofun).symm.trans without⟩

/-! ### A way on from the file -/

/-- A project with a settings file that is rejected, and a link that goes on from it. -/
def cornered : Surroundings :=
  ⟨(FileTree.empty.place (Settings.fileAt [.ofString "p"])
        (.file (Text.Utf8.encode "nope") true)).place
      [.ofString "p", .ofString "l"] (.link (.ofString "remote-deps.toml/x")),
    [], fun _ => default, .inOrder⟩

/-- The walk of that project. -/
def corneredWalk : Walk where
  tree := cornered.tree
  cwd := []
  filter := Build.filter []
  root := .ofString "/p"
  boundary := [.ofString "p"]
  located := by decide +kernel
  listable := by decide +kernel

theorem items_corneredWalk :
    corneredWalk.items = [.trouble (.unusable (.ofString "/p/l") .notDirectory)] := by
  have levels : Walk.maxDepth cornered.tree = 11 + 1 := by decide +kernel
  have entries : cornered.tree.nodes.filterMap (fun e => FileTree.nameIn? [.ofString "p"] e.1) =
      [.ofString "l", .ofString Settings.fileName] := by decide +kernel
  have names : cornered.tree.names [.ofString "p"] =
      [.ofString "l", .ofString Settings.fileName] := by
    rw [FileTree.names, entries]
    exact List.mergeSort_of_pairwise (by decide +kernel)
  have listed : corneredWalk.tree.list corneredWalk.cwd (corneredWalk.pathOf []) =
      .ok [.ofString "l", .ofString Settings.fileName] := names ▸ rfl
  have first : corneredWalk.move ⟨[.ofString "p"], []⟩ [] (.ofString "l") =
      .give (.trouble (.unusable (.ofString "/p/l") .notDirectory)) := by decide +kernel
  have second : corneredWalk.move ⟨[.ofString "p"], []⟩ [] (.ofString Settings.fileName) =
      .skip := by decide +kernel
  change corneredWalk.visit (Walk.maxDepth cornered.tree) ⟨[.ofString "p"], []⟩ [] = _
  rw [levels, Walk.visit]
  simp only [listed, List.flatMap_cons, List.flatMap_nil, first, second]
  rfl

/-- The path of an import map that is looked for below the file. -/
def corneredMap : Path := .ofString "/p/remote-deps.toml/m.json"

/-- The problems of a build with that import map. -/
def corneredProblems (reason : FileError) : List Diagnostic :=
  [.ofImportMapError (.unread corneredMap reason),
    .ofWalkError (.unusable (.ofString "/p/l") reason)]

theorem build_cornered :
    build cornered (.ofString "/p") (some corneredMap) 1 =
      .ok ⟨.empty, corneredProblems .notDirectory, 0⟩ := by
  have asked : request cornered (.ofString "/p") (some corneredMap) 1 =
      ⟨.ofString "/p", some corneredMap, [], 1⟩ := by decide +kernel
  have begun : Build.plan? cornered.tree [] ⟨.ofString "/p", some corneredMap, [], 1⟩ =
      .ok ⟨.empty, corneredWalk, [.ofImportMapError (.unread corneredMap .notDirectory)], 1⟩ := rfl
  have report : Build.Plan.report
      ⟨.empty, corneredWalk, [.ofImportMapError (.unread corneredMap .notDirectory)], 1⟩ =
      ⟨.empty, corneredProblems .notDirectory, 0⟩ := by
    change Build.absorbed .empty corneredWalk (Build.blankReport _) corneredWalk.items = _
    rw [items_corneredWalk]
    decide +kernel
  rw [build, asked, ← report]
  exact Build.run_of_never begun .inOrder

/-- The arguments that ask for that build. -/
def corneredArgs : List Argument := ["tree", "--import-map", "/p/remote-deps.toml/m.json", "/p"]

/-- What is said about its problems on stderr. -/
def corneredLines (reason : String) : List String :=
  ["0 files scanned, 0 skipped, 2 diagnostics:",
    "  ignoring import map /p/remote-deps.toml/m.json: failed to read import map " ++
      "\"/p/remote-deps.toml/m.json\": " ++ reason,
    "  skipped directory: /p/l: IO error for operation on /p/l: " ++ reason]

theorem unread_cornered :
    Unread cornered (some corneredMap) (Settings.fileAt [.ofString "p"]) := by
  constructor
  · intro here n target link leads
    obtain ⟨rfl, rfl, rfl⟩ := Build.eq_of_links [.ofString "p"] (.ofString "l")
      (.ofString "remote-deps.toml/x") (by decide +kernel) (by decide +kernel) link
    have lost : cornered.tree.resolve FileTree.maxLinks [.ofString "p"]
        (FileTree.steps (.ofString "remote-deps.toml/x")) = .error .notDirectory := by
      decide +kernel
    exact absurd (lost.symm.trans (FileTree.resolve_of_leads leads)) (by simp)
  · intro p given
    have seen : givenImportMap cornered.cwd (some corneredMap) = some corneredMap := by
      decide +kernel
    obtain rfl := Option.some.inj (seen.symm.trans given)
    decide +kernel

/-- A link and an import map that are looked for below the file, as though it were a directory, are
not found with and without it. The reason that is given tells whether the file is there. -/
theorem run_tells_of_rejected :
    CommandLine.parse corneredArgs =
      .ok ⟨false, .tree (.ofString "/p") (some corneredMap) .compact 1 none⟩ ∧
    Path.absolute? cornered.cwd.path (.ofString "/p") = some (.ofString "/p") ∧
    cornered.tree.locate cornered.cwd (.ofString "/p") = .ok [.ofString "p"] ∧
    cornered.tree.node? (Settings.fileAt [.ofString "p"]) =
      some (.file (Text.Utf8.encode "nope") true) ∧
    Settings.Rejects (Text.Utf8.encode "nope") ∧
    Unread cornered (some corneredMap) (Settings.fileAt [.ofString "p"]) ∧
    run cornered corneredArgs =
      .printed "0 remote modules, 0 references\n" (corneredLines "Not a directory (os error 20)") ∧
    run (cornered.without (Settings.fileAt [.ofString "p"])) corneredArgs =
      .printed "0 remote modules, 0 references\n"
        (corneredLines "No such file or directory (os error 2)") ∧
    (run (cornered.without (Settings.fileAt [.ofString "p"])) corneredArgs).stderr ≠
      (run cornered corneredArgs).stderr := by
  have parsed : CommandLine.parse corneredArgs =
      .ok ⟨false, .tree (.ofString "/p") (some corneredMap) .compact 1 none⟩ := by decide +kernel
  have absolute : Path.absolute? cornered.cwd.path (.ofString "/p") = some (.ofString "/p") := by
    decide +kernel
  have rejects : Settings.Rejects (Text.Utf8.encode "nope") := by
    rw [Settings.Rejects]
    decide +kernel
  have whole : run cornered corneredArgs = .printed "0 remote modules, 0 references\n"
      (corneredLines "Not a directory (os error 20)") := by
    rw [run_eq_tree parsed absolute, tree_eq, build_cornered]
    decide +kernel
  have without : run (cornered.without (Settings.fileAt [.ofString "p"])) corneredArgs =
      .printed "0 remote modules, 0 references\n"
        (corneredLines "No such file or directory (os error 2)") := by decide +kernel
  refine ⟨parsed, absolute, by decide +kernel, by decide +kernel, rejects, unread_cornered, whole,
    without, ?_⟩
  rw [whole, without]
  decide +kernel

end Program

end RemoteIndex
