import RemoteIndex.Proofs.Components
import RemoteIndex.Proofs.Reach
import RemoteIndex.Proofs.References

/-!
# Pruning and filtering

A walk that leaves names out cuts whole directories off. What it gives is what a walk of everything
gives, less the files that have a left-out name on their way: the ways to the other files are the
same in both walks, so links lead back on them in both or in neither. The same holds of the indexes
of two builds, of which one excludes names.
-/

namespace RemoteIndex

/-! ## Filters -/

namespace WalkFilter

/-- Is the name a text that fits one of the globs among the given texts? -/
def fitsGlob (sources : List String) (n : Name) : Bool :=
  n.text?.any fun text => (globs sources).any (·.isMatch text)

theorem isExcluded_excluding (f : WalkFilter) (sources : List String) (text : String) :
    (f.excluding sources).isExcluded text =
      (f.isExcluded text || (globs sources).any (·.isMatch text)) := by
  rw [isExcluded, excluding, List.any_append, List.any_map]
  rfl

theorem prunes_excluding (f : WalkFilter) (sources : List String) (n : Name) :
    (f.excluding sources).prunes n = (f.prunes n || fitsGlob sources n) := by
  rw [prunes, prunes, fitsGlob]
  cases n.text? with
  | none => rfl
  | some text => exact f.isExcluded_excluding sources text

theorem shows_excluding (f : WalkFilter) (sources : List String) (n : Name) :
    (f.excluding sources).shows n = (f.shows n && !fitsGlob sources n) := by
  rw [shows, shows, fitsGlob]
  cases n.text? with
  | none => rfl
  | some text =>
    simp only [Option.any_some, isIncludedFile, isExcluded_excluding]
    cases f.isExcluded text with
    | true => rfl
    | false => exact Bool.and_comm ..

/-- Only the globs among the texts count, in whatever order and however often. -/
theorem fitsGlob_congr {sources others : List String}
    (same : ∀ glob, glob ∈ globs others ↔ glob ∈ globs sources) :
    fitsGlob others = fitsGlob sources := by
  funext n
  rw [fitsGlob, fitsGlob]
  congr 1
  funext text
  rw [Bool.eq_iff_iff, List.any_eq_true, List.any_eq_true]
  simp only [same]

end WalkFilter

open WalkFilter

namespace Walk

variable {w : Walk} {g : WalkFilter} {here station : Station} {trail : List Station} {n : Name}
  {names : List Name} {depth : Nat} {item : Item} {sources : List String}

/-- The same walk with another filter. -/
def refilter (w : Walk) (g : WalkFilter) : Walk := { w with filter := g }

theorem start?_refilter (tree : FileTree) (cwd : Place) (f g : WalkFilter) (path : Path) :
    start? tree cwd g path = (start? tree cwd f path).map (·.refilter g) := by
  rw [start?, start?]
  split
  · rfl
  · split
    · rfl
    · split
      · rfl
      · split
        · rfl
        · rfl

theorem exists_start?_iff (tree : FileTree) (cwd : Place) (f g : WalkFilter) (path : Path) :
    (∃ w, start? tree cwd g path = .ok w) ↔ ∃ w, start? tree cwd f path = .ok w := by
  rw [start?_refilter tree cwd f g]
  cases start? tree cwd f path with
  | error error => simp [Except.map]
  | ok w => simp [Except.map]

/-- A move depends on what the filter says about its name, and on nothing else of it. -/
theorem move_refilter (prunes : g.prunes n = w.filter.prunes n)
    (shows : g.shows n = w.filter.shows n) :
    (w.refilter g).move here trail n = w.move here trail n := by
  simp only [move, moveAtLink, moveAtFile, refilter, pathOf, prunes, shows]

/-- What there is at and below the entry `n` of a directory. -/
def below (w : Walk) (depth : Nat) (here : Station) (trail : List Station) (n : Name) : List Item :=
  match w.move here trail n with
  | .descend station => w.visit depth station (here :: trail)
  | .give item => [item]
  | .skip => []

theorem visit_succ (w : Walk) (depth : Nat) (here : Station) (trail : List Station) :
    w.visit (depth + 1) here trail =
      match w.tree.list w.cwd (w.pathOf here.names) with
      | .error cause => [.trouble (.unusable (w.pathOf here.names) cause)]
      | .ok children => children.flatMap (w.below depth here trail) := rfl

theorem visit_refilter (prunes : ∀ n, g.prunes n = w.filter.prunes n)
    (shows : ∀ n, g.shows n = w.filter.shows n) :
    (w.refilter g).visit depth here trail = w.visit depth here trail := by
  induction depth generalizing here trail with
  | zero => rfl
  | succ depth ih =>
    have same : (w.refilter g).below depth here trail = w.below depth here trail := by
      funext n
      rw [below, below, move_refilter (prunes n) (shows n)]
      simp only [ih]
    rw [visit_succ, visit_succ, same]
    rfl

/-- Filters that agree on every name have the same walk. -/
theorem items_refilter (w : Walk) (prunes : ∀ n, g.prunes n = w.filter.prunes n)
    (shows : ∀ n, g.shows n = w.filter.shows n) : (w.refilter g).items = w.items :=
  visit_refilter prunes shows

/-! ## The files of two walks -/

/-- The names that lead to an item, if it is a file. -/
def Item.names? : Item → Option (List Name)
  | .file names => some names
  | .trouble _ => none

theorem mem_filterMap_names? {items : List Item} :
    names ∈ items.filterMap Item.names? ↔ .file names ∈ items := by
  rw [List.mem_filterMap]
  constructor
  · rintro ⟨item, member, given⟩
    cases item with
    | file reached => exact Option.some.inj given ▸ member
    | trouble error => exact absurd given (by simp [Item.names?])
  · intro member
    exact ⟨.file names, member, rfl⟩

theorem files_eq (w : Walk) : w.files.1 = (w.items.filterMap Item.names?).map w.pathOf := by
  rw [List.map_filterMap]
  change w.items.filterMap _ = _
  congr 1
  funext item
  cases item with
  | file names => rfl
  | trouble error => rfl

theorem prefix_of_mem_visit (member : .file names ∈ w.visit depth here trail) :
    here.names <+: names := by
  induction depth generalizing here trail with
  | zero => exact absurd member List.not_mem_nil
  | succ depth ih =>
    rcases mem_visit_succ.mp member with meets | ⟨children, n, station, -, -, moved, behind⟩
    · cases meets with
      | entry _ _ moved =>
        obtain ⟨-, rfl, -⟩ := move_eq_file.mp moved
        exact List.prefix_append _ _
    · obtain ⟨-, path, -⟩ := move_eq_descend.mp moved
      exact (path ▸ List.prefix_append _ _ : here.names <+: station.names).trans (ih behind)

/-- The way to a file at or below an entry passes the entry. -/
theorem prefix_of_mem_below (member : .file names ∈ w.below depth here trail n) :
    here.names ++ [n] <+: names := by
  rw [below] at member
  split at member
  · next station moved =>
    obtain ⟨-, path, -⟩ := move_eq_descend.mp moved
    exact path ▸ prefix_of_mem_visit member
  · next item moved =>
    obtain rfl := List.mem_singleton.mp member
    obtain ⟨-, rfl, -⟩ := move_eq_file.mp moved
    exact List.prefix_refl _
  · exact absurd member List.not_mem_nil

/-- There is no file at or below an entry that is left out. -/
theorem filterMap_below_of_prunes (pruned : w.filter.prunes n = true) :
    (w.below depth here trail n).filterMap Item.names? = [] := by
  rw [below]
  split
  · next station moved =>
    obtain ⟨kept, -⟩ := move_eq_descend.mp moved
    exact absurd (pruned.symm.trans kept) (by simp)
  · next item moved =>
    cases item with
    | trouble error => rfl
    | file names =>
      have kept := not_prunes_of_shows (move_eq_file.mp moved).1
      exact absurd (pruned.symm.trans kept) (by simp)
  · rfl

/-- The walk that also leaves out what fits one of the globs. -/
def pruned (w : Walk) (sources : List String) : Walk := w.refilter (w.filter.excluding sources)

/-- Is none of the names one that fits a glob? -/
def isKept (sources : List String) (names : List Name) : Bool := !names.any (fitsGlob sources)

theorem isKept_concat (names : List Name) (n : Name) :
    isKept sources (names ++ [n]) = (isKept sources names && !fitsGlob sources n) := by
  simp [isKept]

/-- Nothing at or below an entry that fits a glob is kept. -/
theorem filter_below_of_fitsGlob (fits : fitsGlob sources n = true) :
    ((w.below depth here trail n).filterMap Item.names?).filter (isKept sources) = [] := by
  rw [List.filter_eq_nil_iff]
  intro names member
  have passed : n ∈ names := (prefix_of_mem_below (mem_filterMap_names?.mp member)).subset (by simp)
  simp only [isKept, Bool.not_eq_true, Bool.not_eq_false']
  exact List.any_eq_true.mpr ⟨n, passed, fits⟩

/-- At an entry, cutting names off comes to the same as leaving out files afterwards, if it does in
the directories further down. -/
theorem filterMap_below_pruned (open_ : isKept sources here.names = true)
    (further : ∀ station, isKept sources station.names = true →
      ((w.pruned sources).visit depth station (here :: trail)).filterMap Item.names? =
        ((w.visit depth station (here :: trail)).filterMap Item.names?).filter (isKept sources)) :
    ((w.pruned sources).below depth here trail n).filterMap Item.names? =
      ((w.below depth here trail n).filterMap Item.names?).filter (isKept sources) := by
  cases fits : fitsGlob sources n with
  | true =>
    have cut : (w.pruned sources).filter.prunes n = true := by
      change (w.filter.excluding sources).prunes n = true
      rw [prunes_excluding, fits, Bool.or_true]
    rw [filterMap_below_of_prunes cut, filter_below_of_fitsGlob fits]
  | false =>
    -- Both walks have come here by the same way, so links lead back to the same directories.
    have same : (w.pruned sources).move here trail n = w.move here trail n := by
      apply move_refilter
      · rw [prunes_excluding, fits, Bool.or_false]
      · rw [shows_excluding, fits, Bool.not_false, Bool.and_true]
    have through : isKept sources (here.names ++ [n]) = true := by
      rw [isKept_concat, open_, fits]
      rfl
    rw [below, below, same]
    cases moved : w.move here trail n with
    | skip => rfl
    | descend station =>
      obtain ⟨-, path, -⟩ := move_eq_descend.mp moved
      exact further station (path ▸ through)
    | give item =>
      cases item with
      | trouble error => rfl
      | file names =>
        obtain ⟨-, rfl, -⟩ := move_eq_file.mp moved
        change [here.names ++ [n]] = [here.names ++ [n]].filter (isKept sources)
        rw [List.filter_cons_of_pos through, List.filter_nil]

/-- Cutting names off during a walk comes to the same as leaving out files afterwards. -/
theorem filterMap_visit_pruned (open_ : isKept sources here.names = true) :
    ((w.pruned sources).visit depth here trail).filterMap Item.names? =
      ((w.visit depth here trail).filterMap Item.names?).filter (isKept sources) := by
  induction depth generalizing here trail with
  | zero => rfl
  | succ depth ih =>
    have first : (w.pruned sources).visit (depth + 1) here trail =
        match w.tree.list w.cwd (w.pathOf here.names) with
        | .error cause => [.trouble (.unusable (w.pathOf here.names) cause)]
        | .ok children => children.flatMap ((w.pruned sources).below depth here trail) := rfl
    rw [first, visit_succ]
    cases w.tree.list w.cwd (w.pathOf here.names) with
    | error cause => rfl
    | ok children =>
      simp only [List.filterMap_flatMap, List.filter_flatMap]
      congr 1
      funext n
      exact filterMap_below_pruned open_ fun station kept => ih kept

theorem proper_of_file_mem_items (member : .file names ∈ w.items) : ∀ n ∈ names, n.Proper := by
  intro n named
  obtain ⟨before, behind, rfl⟩ := List.append_of_mem named
  have reaches := file_mem_items.mp member
  exact (reaches.way before n (by simp)).proper

theorem bytes_root_ne_nil (w : Walk) : w.root.bytes ≠ [] := by
  obtain ⟨-, given, -⟩ := FileTree.locate_eq_ok.mp w.located
  exact given

/-- The files of a pruned walk are those of the walk without a left-out name below the root. -/
theorem files_pruned (w : Walk) (sources : List String) :
    (w.pruned sources).files.1 =
      w.files.1.filter fun p => isKept sources (p.namesBelow w.root) := by
  have cut : (w.pruned sources).items.filterMap Item.names? =
      (w.items.filterMap Item.names?).filter (isKept sources) := filterMap_visit_pruned rfl
  rw [files_eq, files_eq, List.filter_map]
  change ((w.pruned sources).items.filterMap Item.names?).map w.pathOf = _
  rw [cut]
  congr 1
  apply List.filter_congr
  intro names member
  have proper := proper_of_file_mem_items (mem_filterMap_names?.mp member)
  change _ = isKept sources ((w.root.extend names).namesBelow w.root)
  rw [Path.namesBelow_extend w.bytes_root_ne_nil proper]

end Walk

/-! ## The references of two builds -/

namespace Build

variable {tree : FileTree} {cwd : Place} {request : BuildRequest} {m : ImportMap} {w : Walk}
  {sources : List String}

/-- The references in some of the files are some of the references in all. -/
theorem flatMap_referencesIn_filter (url : String) (kept : Path → Bool) (files : List Path) :
    (files.filter kept).flatMap (referencesIn tree cwd m url) =
      (files.flatMap (referencesIn tree cwd m url)).filter fun e => kept e.file := by
  induction files with
  | nil => rfl
  | cons file files ih =>
    rw [List.flatMap_cons, List.filter_append, ← ih]
    have same : (referencesIn tree cwd m url file).filter (fun e => kept e.file) =
        (referencesIn tree cwd m url file).filter fun _ => kept file := by
      apply List.filter_congr
      intro e member
      rw [(file_of_mem_referencesIn member).1]
    rw [same]
    cases keeps : kept file with
    | true => simp [keeps]
    | false => simp [keeps]

theorem references_pruned (m : ImportMap) (w : Walk) (sources : List String) (url : String) :
    references m (w.pruned sources) url =
      (references m w url).filter fun e => Walk.isKept sources (e.file.namesBelow w.root) := by
  rw [references, references, Walk.files_pruned]
  exact flatMap_referencesIn_filter url _ _

theorem filter_eq_excluding_nil (sources : List String) :
    filter sources = (filter []).excluding sources := by
  simp [filter, excluding, globs]

theorem plan?_exclude (tree : FileTree) (cwd : Place) (request : BuildRequest)
    (sources : List String) :
    plan? tree cwd { request with exclude := sources } =
      (plan? tree cwd request).map fun p =>
        { p with walk := p.walk.refilter (filter sources) } := by
  rw [plan?, plan?, Walk.start?_refilter tree cwd (filter request.exclude)]
  cases Walk.start? tree cwd (filter request.exclude) request.root with
  | error error => rfl
  | ok w => rfl

/-- Builds whose exclusions hold the same globs return the same. -/
theorem run_exclude_congr (request : BuildRequest) {others : List String}
    (same : ∀ glob, glob ∈ globs others ↔ glob ∈ globs sources) (cancelled : CancelAnswers)
    (pool : Pool) :
    run tree cwd { request with exclude := others } cancelled pool =
      run tree cwd { request with exclude := sources } cancelled pool := by
  have agree := fitsGlob_congr same
  have items (w : Walk) :
      (w.refilter (filter others)).items = (w.refilter (filter sources)).items := by
    rw [filter_eq_excluding_nil others, filter_eq_excluding_nil sources]
    apply (w.refilter ((filter []).excluding sources)).items_refilter
    · intro n
      change _ = ((filter []).excluding sources).prunes n
      rw [prunes_excluding, prunes_excluding, agree]
    · intro n
      change _ = ((filter []).excluding sources).shows n
      rw [shows_excluding, shows_excluding, agree]
  rw [run_eq, run_eq, plan?_exclude tree cwd request others,
    plan?_exclude tree cwd request sources]
  cases plan? tree cwd request with
  | error error => rfl
  | ok p =>
    simp only [Except.map, Plan.looks, Plan.whole, Plan.report, items]
    rfl

/-- A build that nobody stops has a report exactly if its root can be walked and it has the workers
it needs. -/
theorem exists_run_eq_ok (tree : FileTree) (cwd : Place) (request : BuildRequest)
    {pool : Pool} (served : pool.trouble? request.jobs = none) :
    (∃ report, run tree cwd request (fun _ => false) pool = .ok report) ↔
      ∃ w, Walk.start? tree cwd (filter request.exclude) request.root = .ok w := by
  cases begun : plan? tree cwd request with
  | error error =>
    rw [run_eq, begun]
    simp [plan?_eq_error.mp begun]
  | ok p =>
    have jobs : p.jobs = request.jobs := (plan?_eq_ok.mp begun).2.2.2
    rw [run_of_never begun, Plan.whole, jobs, served]
    simp [(plan?_eq_ok.mp begun).1]

/-- The index of a build that excludes names has the references that the index of a build without
exclusions has, less those in files with a name below the root that fits one of the globs. Of the
exclusions only the globs among them count, in whatever order and however often. -/
theorem get?_index_excluding (tree : FileTree) (cwd : Place) (root : Path)
    (importMap : Option Path) (sources : List String) :
    (∀ jobs schedule jobs' schedule',
      (∃ report, run tree cwd ⟨root, importMap, sources, jobs⟩ (fun _ => false)
        (.started schedule) = .ok report) ↔
      ∃ plain, run tree cwd ⟨root, importMap, [], jobs'⟩ (fun _ => false) (.started schedule') =
        .ok plain) ∧
    (∀ jobs cancelled pool report jobs' cancelled' pool' plain,
      run tree cwd ⟨root, importMap, sources, jobs⟩ cancelled pool = .ok report →
      run tree cwd ⟨root, importMap, [], jobs'⟩ cancelled' pool' = .ok plain →
      ∃ base, Path.absolute? cwd.path root = some base ∧
        ∀ url, report.index.get? url =
          let kept := ((plain.index.get? url).getD []).filter fun e =>
            !(e.file.namesBelow base).any (fitsGlob sources)
          if kept = [] then none else some kept) ∧
    ∀ others, (∀ glob, glob ∈ globs others ↔ glob ∈ globs sources) →
      ∀ jobs cancelled pool,
        run tree cwd ⟨root, importMap, others, jobs⟩ cancelled pool =
          run tree cwd ⟨root, importMap, sources, jobs⟩ cancelled pool := by
  refine ⟨?_, ?_, ?_⟩
  · intro jobs schedule jobs' schedule'
    rw [exists_run_eq_ok tree cwd _ rfl, exists_run_eq_ok tree cwd _ rfl]
    exact Walk.exists_start?_iff tree cwd (filter []) (filter sources) root
  · intro jobs cancelled pool report jobs' cancelled' pool' plain cut whole
    obtain ⟨w, started, lists⟩ := lists_index_of_run whole
    obtain ⟨w', started', lists'⟩ := lists_index_of_run cut
    rw [Walk.start?_refilter tree cwd (filter []), started] at started'
    obtain rfl := Except.ok.inj started'
    refine ⟨w.root, (Walk.start?_eq_ok started).2.2.2, fun url => ?_⟩
    have pruned : w.refilter (filter sources) = w.pruned sources := by
      rw [Walk.pruned, (Walk.start?_eq_ok started).2.2.1, filter_eq_excluding_nil]
    change report.index.Lists
      (references (ImportMap.create tree cwd importMap).1 (w.refilter (filter sources))) at lists'
    rw [pruned] at lists'
    have found := lists' url
    rw [references_pruned, ← lists.getD url] at found
    exact found
  · intro others same jobs cancelled pool
    exact run_exclude_congr ⟨root, importMap, [], jobs⟩ same cancelled pool

/-- The report on a project with one script, in the directory `lib`. -/
def shelvedReport : BuildReport where
  index := .append .empty "http://[::1]/x"
    ⟨.ofString "/p/lib/a.ts", ⟨⟨0, 7⟩, ⟨0, 23⟩⟩, .importFrom⟩
  diagnostics := []
  filesScanned := 1

theorem get?_index_excluding_lib :
    (∃ base, Path.absolute? (Place.path []) (.ofString "/p") = some base ∧
      ∀ url, DependencyIndex.empty.get? url =
        let kept := ((shelvedReport.index.get? url).getD []).filter fun e =>
          !(e.file.namesBelow base).any (fitsGlob ["lib", "["])
        if kept = [] then none else some kept) ∧
    run Walk.linkedTree [] ⟨.ofString "/p", none, ["[", "lib", "lib"], 2⟩ (fun _ => false)
      .inOrder = .ok ⟨.empty, [], 0⟩ := by
  have plain : run Walk.linkedTree [] ⟨.ofString "/p", none, [], 1⟩ (fun _ => false) .inOrder =
      .ok shelvedReport := by decide +kernel
  have cut : run Walk.linkedTree [] ⟨.ofString "/p", none, ["lib", "["], 2⟩ (fun _ => false)
      .inOrder = .ok ⟨.empty, [], 0⟩ := by decide +kernel
  have twice : globs ["[", "lib", "lib"] = globs ["lib"] ++ globs ["lib"] := by decide +kernel
  have once : globs ["lib", "["] = globs ["lib"] := by decide +kernel
  obtain ⟨-, kept, counted⟩ :=
    get?_index_excluding Walk.linkedTree [] (.ofString "/p") none ["lib", "["]
  refine ⟨kept _ _ _ _ _ _ _ _ cut plain, ?_⟩
  rw [counted ["[", "lib", "lib"] (fun glob => by simp [twice, once])]
  exact cut

end Build

end RemoteIndex
