import RemoteIndex.Proofs.References
import RemoteIndex.Proofs.Trees

/-!
# What an import map adds

A literal whose text is remote stands for itself, whatever the import map says, and any other
literal stands for something local where there is no map. So the references that a build finds
without a map are those references with the map that come from remote texts. Everything else in a
report is about files, which a map has no part in; only that a map cannot be used is told in front.
-/

namespace RemoteIndex

/-- A string literal in a file that names a module. -/
structure Literal where
  file : Path
  site : Site

namespace Literal

variable {m : ImportMap} {l : Literal} {url : String}

/-- The reference that the literal makes. -/
def edge (l : Literal) : Edge := ⟨l.file, l.site.span, l.site.form⟩

/-- What the literal stands for under an import map. -/
def resolve (m : ImportMap) (l : Literal) : String := (RawSpecifier.classify l.site).resolve m

/-- Does the literal lead to the remote module `url` under an import map? -/
def refersTo (m : ImportMap) (url : String) (l : Literal) : Bool :=
  l.resolve m = url ∧ isRemote url

/-- Is the text of the literal itself remote? -/
def ownsRemote (l : Literal) : Bool := isRemote l.site.text

theorem resolve_of_ownsRemote (remote : l.ownsRemote = true) : l.resolve m = l.site.text := by
  rw [resolve, RawSpecifier.resolve_classify]
  exact if_pos remote

theorem resolve_empty (l : Literal) : l.resolve .empty = l.site.text := by
  cases remote : l.ownsRemote with
  | true => exact resolve_of_ownsRemote remote
  | false =>
    rw [resolve, RawSpecifier.resolve_classify]
    exact if_neg (Bool.eq_false_iff.mp remote)

/-- Without an import map a literal leads to a module only if its own text is remote, and then it
leads there under any import map. -/
theorem refersTo_empty (m : ImportMap) (url : String) (l : Literal) :
    l.refersTo .empty url = (l.ownsRemote && l.refersTo m url) := by
  rw [refersTo, refersTo, resolve_empty]
  cases remote : l.ownsRemote with
  | true => rw [resolve_of_ownsRemote remote, Bool.true_and]
  | false =>
    -- The literal stands for its text, which is no remote module.
    rw [Bool.false_and, decide_eq_false_iff_not]
    rintro ⟨rfl, yes⟩
    exact absurd (remote.symm.trans yes) (by simp)

end Literal

namespace BuildReport

/-- The report with problems in front of its own. -/
def preceded (before : List Diagnostic) (r : BuildReport) : BuildReport :=
  { r with diagnostics := before ++ r.diagnostics }

/-- The reports tell the same about the files. -/
structure SameFiles (r s : BuildReport) : Prop where
  diagnostics : r.diagnostics = s.diagnostics
  filesScanned : r.filesScanned = s.filesScanned

variable {r s : BuildReport}

theorem SameFiles.filesSkipped (h : r.SameFiles s) : r.filesSkipped = s.filesSkipped := by
  rw [BuildReport.filesSkipped, h.diagnostics]
  rfl

theorem filesSkipped_preceded {before : List Diagnostic}
    (others : ∀ d ∈ before, d.isFileSkip = false) (r : BuildReport) :
    (r.preceded before).filesSkipped = r.filesSkipped := by
  have none : before.filter (·.isFileSkip) = [] := by
    rw [List.filter_eq_nil_iff]
    intro d member
    rw [others d member]
    exact Bool.false_ne_true
  rw [filesSkipped, preceded, List.filter_append, none, List.nil_append]
  rfl

theorem absorb_preceded (m : ImportMap) (before : List Diagnostic) (r : BuildReport)
    (outcome : FileOutcome) :
    (r.preceded before).absorb m outcome = (r.absorb m outcome).preceded before := by
  cases outcome with
  | scanned file specifiers => rfl
  | skipped diagnostic => simp only [absorb, preceded, List.append_assoc]

theorem SameFiles.absorb (h : r.SameFiles s) (m m' : ImportMap) (outcome : FileOutcome) :
    (r.absorb m outcome).SameFiles (s.absorb m' outcome) := by
  cases outcome with
  | scanned file specifiers => exact ⟨h.diagnostics, congrArg (· + 1) h.filesScanned⟩
  | skipped diagnostic => exact ⟨congrArg (· ++ [diagnostic]) h.diagnostics, h.filesScanned⟩

end BuildReport

namespace ImportMap

/-- Whatever is wrong with an import map, the error names its file. -/
theorem path_of_load_eq_error {tree : FileTree} {cwd : Place} {path : Path}
    {error : ImportMapError} (h : load tree cwd path = .error error) : error.path = path := by
  rw [load] at h
  split at h
  · next cause _ =>
    obtain rfl := Except.error.inj h
    rfl
  · split at h
    · obtain rfl := Except.error.inj h
      rfl
    · exact absurd h (by simp)

end ImportMap

namespace Build

open BuildReport

variable {tree : FileTree} {cwd : Place} {w : Walk} {m : ImportMap}

/-- The literals in a file that name modules, in the order of its text. A file that cannot be read
has none. -/
def literalsIn (tree : FileTree) (cwd : Place) (file : Path) : List Literal :=
  match tree.read cwd file with
  | .error _ => []
  | .ok bytes => (Script.specifierSites (Text.Utf8.decodeLossy bytes)).map (⟨file, ·⟩)

/-- The literals in the files of a walk, in the order of the walk. -/
def literals (w : Walk) : List Literal := w.files.1.flatMap (literalsIn w.tree w.cwd)

theorem referenceTo?_classify (m : ImportMap) (url : String) (file : Path) (site : Site) :
    referenceTo? m url file (.classify site) =
      (Option.guard (·.refersTo m url) (⟨file, site⟩ : Literal)).map Literal.edge := by
  by_cases leads : (RawSpecifier.classify site).resolve m = url ∧ isRemote url
  · have refers : Literal.refersTo m url ⟨file, site⟩ = true := decide_eq_true leads
    rw [referenceTo?, if_pos leads, Option.guard, if_pos refers, RawSpecifier.site_classify]
    rfl
  · have refers : ¬ Literal.refersTo m url ⟨file, site⟩ = true := mt of_decide_eq_true leads
    rw [referenceTo?, if_neg leads, Option.guard, if_neg refers]
    rfl

theorem referencesIn_eq (tree : FileTree) (cwd : Place) (m : ImportMap) (url : String)
    (file : Path) :
    referencesIn tree cwd m url file =
      ((literalsIn tree cwd file).filter (·.refersTo m url)).map Literal.edge := by
  rw [referencesIn, literalsIn]
  cases tree.read cwd file with
  | error cause => rfl
  | ok bytes =>
    simp only [specifiersOf, List.filterMap_map]
    rw [← List.filterMap_eq_filter, List.map_filterMap, List.filterMap_map]
    congr 1
    funext site
    exact referenceTo?_classify m url file site

theorem references_eq (m : ImportMap) (w : Walk) (url : String) :
    references m w url = ((literals w).filter (·.refersTo m url)).map Literal.edge := by
  rw [references, literals, List.filter_flatMap, List.map_flatMap]
  congr 1
  funext file
  exact referencesIn_eq w.tree w.cwd m url file

/-- The references without an import map are those under a map that come from remote texts. -/
theorem references_empty (m : ImportMap) (w : Walk) (url : String) :
    references .empty w url =
      (((literals w).filter (·.refersTo m url)).filter (·.ownsRemote)).map Literal.edge := by
  rw [references_eq, List.filter_filter]
  congr 2
  funext l
  exact l.refersTo_empty m url

theorem absorbed_preceded (m : ImportMap) (w : Walk) (before : List Diagnostic) (r : BuildReport)
    (items : List Walk.Item) :
    absorbed m w (r.preceded before) items = (absorbed m w r items).preceded before := by
  induction items generalizing r with
  | nil => rfl
  | cons item items ih => rw [absorbed_cons, absorbed_cons, absorb_preceded, ih]

theorem sameFiles_absorbed (m m' : ImportMap) (w : Walk) {r s : BuildReport} (h : r.SameFiles s)
    (items : List Walk.Item) : (absorbed m w r items).SameFiles (absorbed m' w s items) := by
  induction items generalizing r s with
  | nil => exact h
  | cons item items ih =>
    rw [absorbed_cons, absorbed_cons]
    exact ih (h.absorb m m' (.ofItem w item))

variable {root path : Path} {exclude : List String} {jobs jobs' : Nat}
  {cancelled cancelled' : CancelAnswers} {pool pool' : Pool}
  {report plain : BuildReport}

theorem exists_common_walk
    (mapped : run tree cwd ⟨root, some path, exclude, jobs⟩ cancelled pool = .ok report)
    (unmapped : run tree cwd ⟨root, none, exclude, jobs'⟩ cancelled' pool' = .ok plain) :
    ∃ w, report = absorbed (importMap tree cwd (some path)).1 w
        (blankReport (importMap tree cwd (some path)).2.2) w.items ∧
      plain = absorbed .empty w (blankReport []) w.items := by
  obtain ⟨w, started, rfl⟩ := run_ok mapped
  obtain ⟨w', started', rfl⟩ := run_ok unmapped
  obtain rfl : w = w' := Except.ok.inj (started.symm.trans started')
  exact ⟨w, rfl, rfl⟩

/-- If the import map cannot be used, that is told first, and the build does without. -/
theorem run_of_load_eq_error {error : ImportMapError}
    (failed : ImportMap.load tree cwd path = .error error)
    (mapped : run tree cwd ⟨root, some path, exclude, jobs⟩ cancelled pool = .ok report)
    (unmapped : run tree cwd ⟨root, none, exclude, jobs'⟩ cancelled' pool' = .ok plain) :
    report = plain.preceded [.importMapUnavailable path error.message] := by
  have used : importMap tree cwd (some path) =
      (.empty, [], [.importMapUnavailable path error.message]) := by
    simp only [importMap, failed, Diagnostic.ofImportMapError,
      ImportMap.path_of_load_eq_error failed]
  obtain ⟨w, rfl, rfl⟩ := exists_common_walk mapped unmapped
  rw [used]
  exact absorbed_preceded .empty w [.importMapUnavailable path error.message] (blankReport [])
    w.items

/-- If the import map can be used, the build tells the same about the files as without. -/
theorem sameFiles_of_load_eq_ok {loaded : ImportMap × List Warning}
    (opened : ImportMap.load tree cwd path = .ok loaded)
    (mapped : run tree cwd ⟨root, some path, exclude, jobs⟩ cancelled pool = .ok report)
    (unmapped : run tree cwd ⟨root, none, exclude, jobs'⟩ cancelled' pool' = .ok plain) :
    report.SameFiles plain := by
  have used : importMap tree cwd (some path) = (loaded.1, loaded.2, []) := by
    rw [importMap, opened]
  obtain ⟨w, rfl, rfl⟩ := exists_common_walk mapped unmapped
  rw [used]
  exact sameFiles_absorbed loaded.1 .empty w ⟨rfl, rfl⟩ w.items

/-- An import map only adds references, and only for literals whose texts are not remote. Otherwise
the reports with it and without it are the same, but that one that cannot be used is told first. -/
theorem run_importMap_adds
    (mapped : run tree cwd ⟨root, some path, exclude, jobs⟩ cancelled pool = .ok report)
    (unmapped : run tree cwd ⟨root, none, exclude, jobs'⟩ cancelled' pool' = .ok plain) :
    (∃ w, Walk.start? tree cwd (filter exclude) root = .ok w ∧
      ∀ url,
        let found := (literals w).filter
          (·.refersTo (ImportMap.create tree cwd (some path)).1 url)
        (report.index.get? url).getD [] = found.map Literal.edge ∧
        (plain.index.get? url).getD [] = (found.filter (·.ownsRemote)).map Literal.edge ∧
        List.Sublist ((plain.index.get? url).getD []) ((report.index.get? url).getD [])) ∧
    report.filesScanned = plain.filesScanned ∧
    report.filesSkipped = plain.filesSkipped ∧
    match ImportMap.load tree cwd path with
    | .ok _ => report.diagnostics = plain.diagnostics
    | .error error =>
      report.index = plain.index ∧
      report.diagnostics = .importMapUnavailable path error.message :: plain.diagnostics := by
  refine ⟨?_, ?_⟩
  · obtain ⟨w, started, lists⟩ := lists_index_of_run mapped
    obtain ⟨w', started', lists'⟩ := lists_index_of_run unmapped
    obtain rfl : w = w' := Except.ok.inj (started.symm.trans started')
    refine ⟨w, started, ?_⟩
    intro url found
    have edges : (report.index.get? url).getD [] = found.map Literal.edge := by
      rw [lists.getD, references_eq]
    have own : (plain.index.get? url).getD [] =
        (found.filter (·.ownsRemote)).map Literal.edge := by
      rw [lists'.getD]
      exact references_empty _ w url
    refine ⟨edges, own, ?_⟩
    rw [edges, own]
    exact List.filter_sublist.map Literal.edge
  · cases loaded : ImportMap.load tree cwd path with
    | ok used =>
      have same := sameFiles_of_load_eq_ok loaded mapped unmapped
      exact ⟨same.filesScanned, same.filesSkipped, same.diagnostics⟩
    | error error =>
      obtain rfl := run_of_load_eq_error loaded mapped unmapped
      have noFile : ∀ d ∈ [Diagnostic.importMapUnavailable path error.message],
          d.isFileSkip = false := by
        intro d member
        rw [List.mem_singleton.mp member]
        rfl
      exact ⟨rfl, filesSkipped_preceded noFile plain, rfl, rfl⟩

/-- A script that names a module by an alias in a statement, and by its address in a comment. -/
def mirroredScript : String := "import \"lib/x\"; // @deno-types=\"http://[::1]/x\""

/-- A project with that script, and an import map beside it with aliases for both. -/
def mirroredTree : FileTree :=
  (FileTree.empty.place [.ofString "p", .ofString "a.ts"]
      (.file (Text.Utf8.encode mirroredScript) true)).place
    [.ofString "m"]
    (.file (Text.Utf8.encode
      "\x7b\"imports\": \x7b\"lib/\": \"http://[::1]/\", \"http://\": \"http://[::2]/\"\x7d\x7d")
      true)

/-- The walk of that project. -/
def mirroredWalk : Walk where
  tree := mirroredTree
  cwd := []
  filter := filter []
  root := .ofString "/p"
  boundary := [.ofString "p"]
  located := by decide +kernel
  listable := by decide +kernel

/-- The reference that is made by the alias. -/
def aliasEdge : Edge := ⟨.ofString "/p/a.ts", ⟨⟨0, 7⟩, ⟨0, 14⟩⟩, .importFrom⟩

/-- The reference that is made by the address. -/
def addressEdge : Edge := ⟨.ofString "/p/a.ts", ⟨⟨0, 31⟩, ⟨0, 47⟩⟩, .typesHint⟩

/-- What the build of the project by some workers reports with the import map. -/
def mirroredReport : BuildReport where
  index := (DependencyIndex.empty.append "http://[::1]/x" aliasEdge).append "http://[::1]/x"
    addressEdge
  diagnostics := []
  filesScanned := 1

/-- What it reports without. -/
def unmappedReport : BuildReport where
  index := .append .empty "http://[::1]/x" addressEdge
  diagnostics := []
  filesScanned := 1

theorem outcomes_mirroredWalk :
    outcomes mirroredWalk mirroredWalk.items =
      [.scanned (.ofString "/p/a.ts")
        [.internal ⟨"lib/x", aliasEdge.span, aliasEdge.form⟩,
          .remote ⟨"http://[::1]/x", addressEdge.span, addressEdge.form⟩]] := by
  have items : mirroredWalk.items = [.file [.ofString "a.ts"]] := by decide +kernel
  have read : mirroredWalk.tree.read mirroredWalk.cwd (mirroredWalk.pathOf [.ofString "a.ts"]) =
      .ok (Text.Utf8.encode mirroredScript) := by decide +kernel
  have text : Text.Utf8.decodeLossy (Text.Utf8.encode mirroredScript) = mirroredScript := by
    decide +kernel
  have sites : Script.specifierSites mirroredScript =
      [⟨"lib/x", aliasEdge.span, aliasEdge.form⟩] ++
        [⟨"http://[::1]/x", addressEdge.span, addressEdge.form⟩] :=
    Script.Tree.sites_eq_of_pairwise (by decide +kernel) (by decide +kernel) (by decide +kernel)
  have specifiers : specifiersOf (Text.Utf8.encode mirroredScript) =
      [.internal ⟨"lib/x", aliasEdge.span, aliasEdge.form⟩,
        .remote ⟨"http://[::1]/x", addressEdge.span, addressEdge.form⟩] := by
    rw [specifiersOf, text, sites]
    decide +kernel
  rw [items, outcomes, List.map_singleton]
  simp only [FileOutcome.ofItem, read, FileOutcome.ofText_decodeLossy, specifiers]
  rfl

/-- The build of the project, by any number of workers, absorbs what the script names. -/
theorem run_mirroredTree (path : Option Path) (jobs : Nat) :
    run mirroredTree [] ⟨.ofString "/p", path, [], jobs⟩ (fun _ => false) .inOrder =
      .ok ((outcomes mirroredWalk mirroredWalk.items).foldl
        (·.absorb (importMap mirroredTree [] path).1)
        (blankReport (importMap mirroredTree [] path).2.2)) := by
  have begun : plan? mirroredTree [] ⟨.ofString "/p", path, [], jobs⟩ =
      .ok ⟨(importMap mirroredTree [] path).1, mirroredWalk, (importMap mirroredTree [] path).2.2,
        jobs⟩ := rfl
  exact run_of_never begun .inOrder

theorem run_importMap_adds_mirrored :
    run mirroredTree [] ⟨.ofString "/p", some (.ofString "/m"), [], 2⟩ (fun _ => false) .inOrder =
      .ok mirroredReport ∧
    run mirroredTree [] ⟨.ofString "/p", none, [], 1⟩ (fun _ => false) .inOrder =
      .ok unmappedReport ∧
    ∃ w, Walk.start? mirroredTree [] (filter []) (.ofString "/p") = .ok w ∧
      ∀ url,
        let found := (literals w).filter
          (·.refersTo (ImportMap.create mirroredTree [] (some (.ofString "/m"))).1 url)
        (mirroredReport.index.get? url).getD [] = found.map Literal.edge ∧
        (unmappedReport.index.get? url).getD [] =
          (found.filter (·.ownsRemote)).map Literal.edge ∧
        List.Sublist ((unmappedReport.index.get? url).getD [])
          ((mirroredReport.index.get? url).getD []) := by
  have mapped : run mirroredTree [] ⟨.ofString "/p", some (.ofString "/m"), [], 2⟩
      (fun _ => false) .inOrder = .ok mirroredReport := by
    rw [run_mirroredTree, outcomes_mirroredWalk]
    decide +kernel
  have unmapped : run mirroredTree [] ⟨.ofString "/p", none, [], 1⟩ (fun _ => false) .inOrder =
      .ok unmappedReport := by
    rw [run_mirroredTree, outcomes_mirroredWalk]
    decide +kernel
  exact ⟨mapped, unmapped, (run_importMap_adds mapped unmapped).1⟩

end Build

end RemoteIndex
