import RemoteIndex.Proofs.Accounts
import RemoteIndex.Proofs.Deletion
import RemoteIndex.Proofs.Succession

/-!
# Trouble with one file

What is in a file, and whether it can be read at all, matters to nothing but what is read from it.
Two trees that differ in one file only (`FileTree.SameBut`) are looked up and walked alike; so two
builds of them find the same in all other files and meet the same other problems.
-/

namespace RemoteIndex

namespace FileTree

variable {t t' : FileTree} {e q : Place} {cwd : Place} {p : Path}

/-- There is a file at the place. -/
def HasFile (t : FileTree) (q : Place) : Prop :=
  ∃ bytes accessible, t.node? q = some (.file bytes accessible)

/-- The trees have a file at `e` and may have different ones there, which may be readable or not.
Elsewhere they have the same. -/
structure SameBut (t t' : FileTree) (e : Place) : Prop where
  elsewhere : ∀ q ≠ e, t'.node? q = t.node? q
  file : t.HasFile e
  file' : t'.HasFile e

namespace SameBut

theorem same_or_files (h : t.SameBut t' e) (q : Place) :
    t'.node? q = t.node? q ∨ t.HasFile q ∧ t'.HasFile q := by
  by_cases here : q = e
  · exact .inr (here ▸ ⟨h.file, h.file'⟩)
  · exact .inl (h.elsewhere q here)

theorem directory_iff (h : t.SameBut t' e) {accessible : Bool} :
    t'.node? q = some (.directory accessible) ↔ t.node? q = some (.directory accessible) := by
  rcases h.same_or_files q with same | ⟨⟨_, _, found⟩, _, _, found'⟩
  · rw [same]
  · simp [found, found']

/-- Steps do not tell what is in a file. -/
theorem land (h : t.SameBut t' e) (here : Place) (s : Step) : t'.land here s = t.land here s := by
  rw [land.eq_def, land.eq_def]
  rcases h.same_or_files here with same | ⟨⟨_, _, found⟩, _, _, found'⟩
  · rw [same]
    cases s with
    | down n =>
      rcases h.same_or_files (here ++ [n]) with below | ⟨⟨_, _, found⟩, _, _, found'⟩
      · simp only [below]
      · simp only [found, found']
    | _ => rfl
  · rw [found, found']

theorem follow (h : t.SameBut t' e) (jump : Place → Path → List Step → Except FileError Place)
    (here : Place) (ss : List Step) : t'.follow jump here ss = t.follow jump here ss := by
  induction ss generalizing here with
  | nil => rw [FileTree.follow, FileTree.follow]
  | cons s rest ih =>
    rw [FileTree.follow, FileTree.follow, h.land]
    simp only [ih]

theorem resolve (h : t.SameBut t' e) (links : Nat) : t'.resolve links = t.resolve links := by
  induction links with
  | zero =>
    funext here ss
    rw [FileTree.resolve, FileTree.resolve, h.follow]
  | succ links ih =>
    funext here ss
    rw [FileTree.resolve, FileTree.resolve, ih, h.follow]

theorem locate (h : t.SameBut t' e) (cwd : Place) (p : Path) :
    t'.locate cwd p = t.locate cwd p := by
  rw [FileTree.locate, FileTree.locate, h.resolve]

theorem isDirectory (h : t.SameBut t' e) (cwd : Place) (p : Path) :
    t'.isDirectory cwd p = t.isDirectory cwd p := by
  rw [FileTree.isDirectory, FileTree.isDirectory, stat, stat, h.locate]
  cases t.locate cwd p with
  | error cause => rfl
  | ok place =>
    simp only [bind, Except.bind]
    rcases h.same_or_files place with same | ⟨⟨_, _, found⟩, _, _, found'⟩
    · rw [same]
    · rw [found, found']

theorem names (h : t.SameBut t' e) (place : Place) : t'.names place = t.names place := by
  have members (n : Name) : n ∈ t'.names place ↔ n ∈ t.names place := by
    rw [mem_names, mem_names]
    rcases h.same_or_files (place ++ [n]) with same | ⟨⟨_, _, found⟩, _, _, found'⟩
    · rw [same]
    · simp [found, found']
  have alike : (t'.names place).Perm (t.names place) :=
    (List.perm_ext_iff_of_nodup (t'.nodup_names place) (t.nodup_names place)).mpr members
  refine List.Perm.eq_of_pairwise ?_ (t'.pairwise_names place) (t.pairwise_names place) alike
  intro a b _ _ before behind
  exact absurd before (List.not_lt.mpr (List.le_of_lt behind))

theorem list (h : t.SameBut t' e) (cwd : Place) (p : Path) : t'.list cwd p = t.list cwd p := by
  rw [FileTree.list, FileTree.list, h.locate]
  cases t.locate cwd p with
  | error cause => rfl
  | ok place =>
    simp only [bind, Except.bind, h.names]
    rcases h.same_or_files place with same | ⟨⟨_, _, found⟩, _, _, found'⟩
    · rw [same]
    · rw [found, found']

/-- The one file apart, what a path leads to is read alike. -/
theorem read (h : t.SameBut t' e) (other : t.locate cwd p ≠ .ok e) :
    t'.read cwd p = t.read cwd p := by
  rw [FileTree.read, FileTree.read, stat, stat, h.locate]
  cases located : t.locate cwd p with
  | error cause => rfl
  | ok place =>
    have elsewhere : place ≠ e := fun same => other (same ▸ located)
    simp only [bind, Except.bind, h.elsewhere place elsewhere]

theorem load (h : t.SameBut t' e) (other : t.locate cwd p ≠ .ok e) :
    ImportMap.load t' cwd p = ImportMap.load t cwd p := by
  rw [ImportMap.load, ImportMap.load, readText, readText, h.read other]

end SameBut

/-! ### Writing a file -/

theorem HasFile.inner (h : t.HasFile q) : q ≠ [] := by
  rintro rfl
  obtain ⟨_, _, found⟩ := h
  exact absurd found (by simp [node?])

theorem HasFile.proper (h : t.HasFile q) : ∀ n ∈ q, n.Proper := by
  obtain ⟨_, _, found⟩ := id h
  exact t.proper _ (mem_of_node? h.inner found)

/-- A file that is written over another one makes a tree that differs in it only. -/
theorem HasFile.sameBut_insert (h : t.HasFile e) (bytes : List UInt8) (accessible : Bool) :
    t.SameBut (t.insert e (.file bytes accessible)) e := by
  have nodes : (t.insert e (.file bytes accessible)).nodes =
      (e, .file bytes accessible) :: t.nodes.filter fun x => decide (x.1 ≠ e) := by
    rw [insert, dif_pos h.proper]
  refine ⟨fun q other => ?_, h, bytes, accessible, ?_⟩
  · have passes : (q == e) = false := beq_eq_false_iff_ne.mpr other
    rw [node?, node?, nodes, List.lookup_cons, passes, lookup_filter fun place => place ≠ e]
    simp [other]
  · rw [node?, nodes, if_neg (by simpa using h.inner), List.lookup_cons_self]

end FileTree

/-! ## Walks -/

namespace Walk

open FileTree (SameBut)

variable {w : Walk} {t' : FileTree} {e : Place} {here : Station} {trail : List Station} {n : Name}
  {depth : Nat}

/-- The same walk where the file at `e` is another one. -/
def instead (w : Walk) (h : w.tree.SameBut t' e) : Walk :=
  { w with
    tree := t'
    located := (h.locate w.cwd w.root).trans w.located
    listable := h.directory_iff.mpr w.listable }

theorem moveAtLink_instead (h : w.tree.SameBut t' e) (names : List Name) (target : Place) :
    (w.instead h).moveAtLink trail names n target = w.moveAtLink trail names n target := by
  have tree : (w.instead h).tree = t' := rfl
  rw [moveAtLink, moveAtLink, tree]
  rcases h.same_or_files target with same | ⟨⟨_, _, found⟩, _, _, found'⟩
  · rw [same]
    rfl
  · rw [found, found']
    rfl

theorem move_instead (h : w.tree.SameBut t' e) :
    (w.instead h).move here trail n = w.move here trail n := by
  have tree : (w.instead h).tree = t' := rfl
  have located : t'.locate (w.instead h).cwd ((w.instead h).pathOf (here.names ++ [n])) =
      w.tree.locate w.cwd (w.pathOf (here.names ++ [n])) := h.locate _ _
  rw [move, move, tree]
  simp only [located, moveAtLink_instead]
  rcases h.same_or_files (here.place ++ [n]) with same | ⟨⟨_, _, found⟩, _, _, found'⟩
  · rw [same]
    rfl
  · rw [found, found']
    rfl

theorem sight_instead (h : w.tree.SameBut t' e) :
    (w.instead h).sight depth here trail = w.sight depth here trail := by
  induction depth generalizing here trail with
  | zero => rfl
  | succ depth ih =>
    have same : (w.instead h).sightAt depth here trail = w.sightAt depth here trail := by
      funext n
      rw [sightAt, sightAt, move_instead]
      simp only [ih]
    have listed : (w.instead h).tree.list (w.instead h).cwd ((w.instead h).pathOf here.names) =
        w.tree.list w.cwd (w.pathOf here.names) := h.list _ _
    rw [sight_succ, sight_succ, same, listed]
    rfl

/-- A walk meets the same whatever is in the file. -/
theorem items_instead (h : w.tree.SameBut t' e) : (w.instead h).items = w.items := by
  have begun : w.Trail [⟨w.boundary, []⟩] := .start
  have begun' : (w.instead h).Trail [⟨w.boundary, []⟩] := .start
  have levels : w.sightings = w.sight (maxDepth w.tree + maxDepth t') _ _ :=
    begun.sight_eq (Nat.le_add_right _ _) (Nat.le_add_right _ _)
  have levels' : (w.instead h).sightings =
      (w.instead h).sight (maxDepth w.tree + maxDepth t') _ _ :=
    begun'.sight_eq (Nat.le_add_right _ _) (Nat.le_add_left _ _)
  rw [← map_item_sightings, ← map_item_sightings, levels, levels', sight_instead]

theorem files_instead (h : w.tree.SameBut t' e) : (w.instead h).files = w.files := by
  rw [files, files, items_instead]
  rfl

variable {t : FileTree} {cwd : Place} {f : WalkFilter} {path : Path}

theorem start?_instead_of_error {error : RootError} (h : t.SameBut t' e)
    (failed : start? t cwd f path = .error error) : start? t' cwd f path = .error error :=
  start?_eq_error_of_sameUpToReason
    (fun r _ => ⟨h.isDirectory cwd r, h.locate cwd r, fun _ _ => h.directory_iff⟩) failed

theorem start?_instead_of_ok (h : t.SameBut t' e) (started : start? t cwd f path = .ok w) :
    ∃ same : w.tree.SameBut t' e, start? t' cwd f path = .ok (w.instead same) := by
  obtain ⟨rfl, rfl, rfl, absolute⟩ := start?_eq_ok started
  exact ⟨h, (w.instead h).start?_eq_ok_of_root absolute⟩

end Walk

/-! ## Builds -/

/-- The file that the diagnostic is about, if it is a skipped file. -/
def Diagnostic.skippedFile? : Diagnostic → Option Path
  | .fileUnreadable path _ => some path
  | .parseFailed path _ => some path
  | .directoryUnreadable _ => none
  | .importMapUnavailable _ _ => none

namespace Build

open FileTree (SameBut)

variable {t t' : FileTree} {e : Place} {cwd : Place} {request : BuildRequest} {w : Walk}
  {m : ImportMap}

/-- Does the path lead to something else than what is at `e`, or nowhere? -/
def leadsElsewhere (t : FileTree) (cwd e : Place) (p : Path) : Bool := t.locate cwd p ≠ .ok e

/-- The references to `url` outside the file at `e`. -/
def edgesElsewhere (t : FileTree) (cwd e : Place) (r : BuildReport) (url : String) : List Edge :=
  ((r.index.get? url).getD []).filter fun edge => leadsElsewhere t cwd e edge.file

/-- The problems but for those of the file at `e` being skipped. -/
def problemsElsewhere (t : FileTree) (cwd e : Place) (r : BuildReport) : List Diagnostic :=
  r.diagnostics.filter fun d => d.skippedFile?.all (leadsElsewhere t cwd e)

/-- The reports tell the same of everything but the file at `e`, whatever paths lead to that. -/
structure AgreeElsewhere (t : FileTree) (cwd e : Place) (r r' : BuildReport) : Prop where
  edges : ∀ url, edgesElsewhere t cwd e r' url = edgesElsewhere t cwd e r url
  met : r'.filesScanned + r'.filesSkipped = r.filesScanned + r.filesSkipped
  problems : problemsElsewhere t cwd e r' = problemsElsewhere t cwd e r

theorem referencesIn_instead (h : t.SameBut t' e) {file : Path}
    (elsewhere : leadsElsewhere t cwd e file = true) (m : ImportMap) (url : String) :
    referencesIn t' cwd m url file = referencesIn t cwd m url file := by
  rw [referencesIn, referencesIn, h.read (of_decide_eq_true elsewhere)]

theorem references_instead (h : w.tree.SameBut t' e) (m : ImportMap) (url : String) :
    (references m (w.instead h) url).filter (fun e' => leadsElsewhere w.tree w.cwd e e'.file) =
      (references m w url).filter fun e' => leadsElsewhere w.tree w.cwd e e'.file := by
  have files : (w.instead h).files.1 = w.files.1 := congrArg Prod.fst (Walk.files_instead h)
  rw [references, references, ← flatMap_referencesIn_filter, ← flatMap_referencesIn_filter, files]
  apply List.flatMap_congr
  intro file member
  exact referencesIn_instead h (List.mem_filter.mp member).2 m url

/-- Whether the file at `e` can be read shows in its own problem only. -/
theorem filter_problem?_of_leads {names : List Name}
    (leads : leadsElsewhere t cwd e (w.pathOf names) = false) :
    (w.problem? (.file names)).filter (·.skippedFile?.all (leadsElsewhere t cwd e)) = none := by
  obtain ⟨-, -, -, problem⟩ | ⟨cause, -, -, problem⟩ := w.read_cases names
  · rw [problem, Option.filter_none]
  · simp [problem, Diagnostic.skippedFile?, leads]

theorem problem?_instead (h : w.tree.SameBut t' e) (item : Walk.Item) :
    ((w.instead h).problem? item).filter (·.skippedFile?.all (leadsElsewhere w.tree w.cwd e)) =
      (w.problem? item).filter (·.skippedFile?.all (leadsElsewhere w.tree w.cwd e)) := by
  cases item with
  | trouble error => rfl
  | file names =>
    cases elsewhere : leadsElsewhere w.tree w.cwd e (w.pathOf names) with
    | true =>
      have read : (w.instead h).tree.read (w.instead h).cwd ((w.instead h).pathOf names) =
          w.tree.read w.cwd (w.pathOf names) := h.read (of_decide_eq_true elsewhere)
      rw [Walk.problem?, Walk.problem?, read]
      rfl
    | false =>
      have unseen := filter_problem?_of_leads (w := w) elsewhere
      exact (filter_problem?_of_leads (w := w.instead h) elsewhere).trans unseen.symm

theorem problems_instead (h : w.tree.SameBut t' e) :
    ((w.instead h).items.filterMap (w.instead h).problem?).filter
        (·.skippedFile?.all (leadsElsewhere w.tree w.cwd e)) =
      (w.items.filterMap w.problem?).filter
        (·.skippedFile?.all (leadsElsewhere w.tree w.cwd e)) := by
  rw [List.filter_filterMap, List.filter_filterMap, Walk.items_instead]
  simp only [problem?_instead h]

/-- The reports of a walk and of the same walk with another file, under one import map. -/
theorem agreeElsewhere_instead (h : w.tree.SameBut t' e) {r r' : BuildReport}
    (lists : r.index.Lists (references m w)) (lists' : r'.index.Lists (references m (w.instead h)))
    (accounts : r.Accounts w (mapProblem? t cwd request.importMap).toList w.items)
    (accounts' : r'.Accounts (w.instead h) (mapProblem? t cwd request.importMap).toList
      (w.instead h).items) :
    AgreeElsewhere w.tree w.cwd e r r' where
  edges url := by
    rw [edgesElsewhere, edgesElsewhere, lists.getD, lists'.getD]
    exact references_instead h m url
  met := by
    rw [filesScanned_add_filesSkipped accounts, filesScanned_add_filesSkipped accounts',
      Walk.files_instead]
  problems := by
    rw [problemsElsewhere, problemsElsewhere, accounts.diagnostics, accounts'.diagnostics,
      List.filter_append, List.filter_append, problems_instead]

/-- An import map that is not the file is loaded alike. -/
theorem load_instead (h : t.SameBut t' e)
    (apart : ∀ p, request.importMap = some p → t.locate cwd p ≠ .ok e) :
    ImportMap.create t' cwd request.importMap = ImportMap.create t cwd request.importMap ∧
      mapProblem? t' cwd request.importMap = mapProblem? t cwd request.importMap := by
  cases map : request.importMap with
  | none => exact ⟨rfl, rfl⟩
  | some p =>
    have load := h.load (apart p map)
    rw [ImportMap.create, ImportMap.create, mapProblem?, mapProblem?, load]
    exact ⟨rfl, rfl⟩

/-- What a build that nobody stops reports of its walk. -/
theorem report_of_start? (started : Walk.start? t cwd (filter request.exclude) request.root = .ok w)
    (schedule : Schedule) :
    ∃ r, run t cwd request (fun _ => false) (.started schedule) = .ok r ∧
      r.index.Lists (references (ImportMap.create t cwd request.importMap).1 w) ∧
      r.Accounts w (mapProblem? t cwd request.importMap).toList w.items := by
  have begun : plan? t cwd request = .ok ⟨_, w, _, _⟩ :=
    plan?_eq_ok.mpr ⟨started, rfl, rfl, rfl⟩
  have built := run_of_never_started begun schedule
  obtain ⟨walk, started', lists⟩ := lists_index_of_run built
  obtain ⟨walk', started'', accounts⟩ := accounts_run built
  obtain rfl := Except.ok.inj (started.symm.trans started')
  obtain rfl := Except.ok.inj (started.symm.trans started'')
  exact ⟨_, built, lists, accounts⟩

/-- What is in one file, and whether that can be read, changes nothing in what a build finds in the
other files. Unless it is the import map of the build, a build with another file in its place fails
as the one build does, or has a report that tells the same of everything else. Through links to the
directories around it, or to itself, the file may be met by several paths; by all of them it is that
one file. -/
theorem run_sameBut (h : t.SameBut t' e)
    (apart : ∀ p, request.importMap = some p → t.locate cwd p ≠ .ok e)
    (schedule schedule' : Schedule) :
    (∃ error, run t cwd request (fun _ => false) (.started schedule) = .error error ∧
        run t' cwd request (fun _ => false) (.started schedule') = .error error) ∨
      ∃ r r', run t cwd request (fun _ => false) (.started schedule) = .ok r ∧
        run t' cwd request (fun _ => false) (.started schedule') = .ok r' ∧
        AgreeElsewhere t cwd e r r' := by
  cases started : Walk.start? t cwd (filter request.exclude) request.root with
  | error error =>
    have failed := plan?_eq_error.mpr started
    have failed' := plan?_eq_error.mpr (Walk.start?_instead_of_error h started)
    refine .inl ⟨.rootUnreadable error, ?_, ?_⟩
    · rw [run_eq, failed]
    · rw [run_eq, failed']
  | ok w =>
    obtain ⟨same, started'⟩ := Walk.start?_instead_of_ok h started
    obtain ⟨r, built, lists, accounts⟩ := report_of_start? started schedule
    obtain ⟨r', built', lists', accounts'⟩ := report_of_start? started' schedule'
    obtain ⟨created, problem⟩ := load_instead h apart
    rw [created] at lists'
    rw [problem] at accounts'
    obtain ⟨rfl, rfl, -⟩ := Walk.start?_eq_ok started
    exact .inr ⟨r, r', built, built', agreeElsewhere_instead same lists lists' accounts accounts'⟩

/-- The place of the script that cannot be read. -/
def raggedPlace : Place := [.ofString "p", .ofString "b.ts"]

/-- The ragged project with a script that can be read in place of that, and that names the module
which the other one names. -/
def mendedTree : FileTree :=
  raggedTree.insert raggedPlace (.file (Text.Utf8.encode "import \"http://[::1]/x\";") true)

theorem run_sameBut_mended :
    ∃ r, run mendedTree [] raggedRequest (fun _ => false) .inOrder = .ok r ∧
      AgreeElsewhere raggedTree [] raggedPlace raggedReport r := by
  have file : raggedTree.HasFile raggedPlace := ⟨[], false, by decide +kernel⟩
  have apart : ∀ p, raggedRequest.importMap = some p →
      raggedTree.locate [] p ≠ .ok raggedPlace := by
    rintro p map
    obtain rfl : .ofString "/m" = p := Option.some.inj map
    decide +kernel
  have same : raggedTree.SameBut mendedTree raggedPlace := file.sameBut_insert _ _
  rcases run_sameBut same apart .inOrder .inOrder with
    ⟨error, failed, -⟩ | ⟨r, r', built, built', agree⟩
  · exact absurd (run_raggedTree.symm.trans failed) (by simp)
  · obtain rfl := Except.ok.inj (run_raggedTree.symm.trans built)
    exact ⟨r', built', agree⟩

end Build

end RemoteIndex
