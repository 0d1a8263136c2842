import RemoteIndex.Proofs.Accounts
import RemoteIndex.Proofs.Deletion

/-!
# Builds without what is left out

A build tells the same of a project whether or not an entry is there that its filter leaves out, if
neither the root, nor another link, nor the import map is looked up by way of the entry. Its index
and its counts are the same, and of its problems only those are gone that the walk met at the entry.
-/

namespace RemoteIndex

namespace BuildReport

/-- The reports tell the same about what was found in files. -/
structure SameFinds (r s : BuildReport) : Prop where
  index : r.index = s.index
  filesScanned : r.filesScanned = s.filesScanned

variable {r s : BuildReport}

theorem SameFinds.absorb (h : r.SameFinds s) (m : ImportMap) (outcome : FileOutcome) :
    (r.absorb m outcome).SameFinds (s.absorb m outcome) := by
  cases outcome with
  | scanned file specifiers =>
    exact ⟨congrArg (specifiers.foldl (recordSpecifier m file)) h.index,
      congrArg (· + 1) h.filesScanned⟩
  | skipped diagnostic => exact ⟨h.index, h.filesScanned⟩

end BuildReport

namespace FileOutcome

/-- The problem that an outcome is. -/
def problem? : FileOutcome → Option Diagnostic
  | .scanned _ _ => none
  | .skipped diagnostic => some diagnostic

end FileOutcome

namespace Build

open Walk (Sighting)

variable {m : ImportMap} {w : Walk} {e : Place} {r s : BuildReport}

/-- The problem that something met on a walk is. -/
def problem? (w : Walk) (s : Sighting) : Option Diagnostic :=
  (FileOutcome.ofItem w s.item).problem?

theorem problem?_eq (w : Walk) (s : Sighting) : problem? w s = w.problem? s.item := by
  rw [problem?]
  cases s.item with
  | trouble error => rfl
  | file names =>
    obtain ⟨bytes, read, -, problem⟩ | ⟨cause, read, -, problem⟩ := w.read_cases names
    · simp only [problem, FileOutcome.ofItem, read, FileOutcome.ofText_decodeLossy,
        FileOutcome.problem?]
    · simp only [problem, FileOutcome.ofItem, read, FileOutcome.problem?]

theorem diagnostics_absorbed (before : List Diagnostic) (sightings : List Sighting) :
    (absorbed m w (blankReport before) (sightings.map (·.item))).diagnostics =
      before ++ sightings.filterMap (problem? w) := by
  have problems : problem? w = fun s => w.problem? s.item := funext (problem?_eq w)
  rw [(accounts_absorbed m w before _).diagnostics, List.filterMap_map, problems]
  rfl

/-- The errors of a walk leave alone what is found in files. -/
theorem sameFinds_absorbed_filter {sightings : List Sighting}
    (troubles : ∀ s ∈ sightings, s.entry = e → ∃ error, s.item = .trouble error)
    (same : r.SameFinds s) :
    (absorbed m w r ((sightings.filter (·.entry ≠ e)).map (·.item))).SameFinds
      (absorbed m w s (sightings.map (·.item))) := by
  induction sightings generalizing r s with
  | nil => exact same
  | cons first sightings ih =>
    have behind : ∀ s ∈ sightings, s.entry = e → ∃ error, s.item = .trouble error :=
      fun s member => troubles s (List.mem_cons_of_mem first member)
    rw [List.map_cons, absorbed_cons]
    by_cases gone : first.entry = e
    · obtain ⟨error, trouble⟩ := troubles first List.mem_cons_self gone
      rw [List.filter_cons_of_neg (by simpa using gone), trouble]
      exact ih behind ⟨same.index, same.filesScanned⟩
    · rw [List.filter_cons_of_pos (by simpa using gone), List.map_cons, absorbed_cons]
      exact ih behind (same.absorb m (.ofItem w first.item))

/-- The errors of a walk are no files that are skipped. -/
theorem filter_isFileSkip_problems {sightings : List Sighting}
    (troubles : ∀ s ∈ sightings, s.entry = e → ∃ error, s.item = .trouble error) :
    ((sightings.filter (·.entry ≠ e)).filterMap (problem? w)).filter (·.isFileSkip) =
      (sightings.filterMap (problem? w)).filter (·.isFileSkip) := by
  induction sightings with
  | nil => rfl
  | cons first sightings ih =>
    have behind := ih fun s member => troubles s (List.mem_cons_of_mem first member)
    by_cases gone : first.entry = e
    · obtain ⟨error, trouble⟩ := troubles first List.mem_cons_self gone
      have problem : problem? w first = some (.ofWalkError error) := by
        rw [problem?, trouble]
        rfl
      rw [List.filter_cons_of_neg (by simpa using gone), behind,
        List.filterMap_cons_some problem]
      rfl
    · rw [List.filter_cons_of_pos (by simpa using gone), List.filterMap_cons,
        List.filterMap_cons]
      split
      · exact behind
      · rw [List.filter_cons, List.filter_cons, behind]

/-- What is read of an import map that avoids the entry is the same without it. -/
theorem importMap_prune {tree : FileTree} {cwd : Place} {path : Option Path}
    (avoids : ∀ p, path = some p → tree.PathAvoids cwd p e) :
    importMap (tree.prune e) cwd path = importMap tree cwd path := by
  cases path with
  | none => rfl
  | some p => simp only [importMap, ImportMap.load, (avoids p rfl).readText]

theorem absorbed_without (inert : w.Inert e) :
    absorbed m (w.without e inert.root) r (w.without e inert.root).items =
      absorbed m w r ((w.sightings.filter (·.entry ≠ e)).map (·.item)) := by
  have same : outcomes (w.without e inert.root) (w.without e inert.root).items =
      outcomes w ((w.sightings.filter (·.entry ≠ e)).map (·.item)) := by
    rw [Walk.items_without inert, outcomes, outcomes, List.map_map, List.map_map]
    apply List.map_congr_left
    intro s member
    obtain ⟨met, other⟩ := List.mem_filter.mp member
    exact Walk.ofItem_without inert met (by simpa using other)
  rw [absorbed, absorbed, same]

theorem report_without (inert : w.Inert e) {diagnostics : List Diagnostic} {jobs : Nat} :
    Plan.report ⟨m, w.without e inert.root, diagnostics, jobs⟩ =
      absorbed m w (blankReport diagnostics) ((w.sightings.filter (·.entry ≠ e)).map (·.item)) :=
  absorbed_without inert

variable {tree : FileTree} {cwd : Place} {path : Path} {request : BuildRequest} {p : Plan}

theorem plan?_prune_of_error {error : RootError}
    (root : ∀ r, Path.absolute? cwd.path request.root = some r → tree.PathAvoids cwd r e)
    (failed : plan? tree cwd request = .error error) :
    plan? (tree.prune e) cwd request = .error error :=
  plan?_eq_error.mpr (Walk.start?_prune_of_error root (plan?_eq_error.mp failed))

theorem plan?_prune_of_ok
    (root : ∀ r, Path.absolute? cwd.path request.root = some r → tree.PathAvoids cwd r e)
    (map : ∀ q, request.importMap = some q → tree.PathAvoids cwd q e)
    (begun : plan? tree cwd request = .ok p) :
    ∃ avoids, plan? (tree.prune e) cwd request =
      .ok { p with walk := p.walk.without e avoids } := by
  obtain ⟨started, map', diagnostics, jobs⟩ := plan?_eq_ok.mp begun
  obtain ⟨avoids, started'⟩ := Walk.start?_prune_of_ok root started
  refine ⟨avoids, plan?_eq_ok.mpr ⟨started', ?_, ?_, jobs⟩⟩
  · rw [importMap_prune map]
    exact map'
  · rw [importMap_prune map]
    exact diagnostics

/-- The report `rest` tells what `report` does, but for problems that the walk met at the entry. -/
structure SameElsewhere (rest report : BuildReport) (w : Walk) (e : Place) : Prop where
  index : rest.index = report.index
  filesScanned : rest.filesScanned = report.filesScanned
  filesSkipped : rest.filesSkipped = report.filesSkipped
  diagnostics : ∃ before,
    report.diagnostics = before ++ w.sightings.filterMap (problem? w) ∧
      rest.diagnostics = before ++ (w.sightings.filter (·.entry ≠ e)).filterMap (problem? w)

theorem sameElsewhere_report (inert : p.walk.Inert e) :
    SameElsewhere (Plan.report { p with walk := p.walk.without e inert.root }) p.report p.walk
      e := by
  have troubles : ∀ s ∈ p.walk.sightings, s.entry = e → ∃ error, s.item = .trouble error :=
    fun s member same => (Walk.meetsUnfollowable_of_mem_sightings inert member same).2
  have whole : p.report = absorbed p.importMap p.walk (blankReport p.diagnostics)
      (p.walk.sightings.map (·.item)) := by
    rw [Plan.report, Walk.map_item_sightings]
  have finds : (Plan.report { p with walk := p.walk.without e inert.root }).SameFinds p.report := by
    rw [report_without inert, whole]
    exact sameFinds_absorbed_filter troubles ⟨rfl, rfl⟩
  have before : p.report.diagnostics =
      p.diagnostics ++ p.walk.sightings.filterMap (problem? p.walk) := by
    rw [whole, diagnostics_absorbed]
  have after : (Plan.report { p with walk := p.walk.without e inert.root }).diagnostics =
      p.diagnostics ++
        (p.walk.sightings.filter (·.entry ≠ e)).filterMap (problem? p.walk) := by
    rw [report_without inert, diagnostics_absorbed]
  refine ⟨finds.index, finds.filesScanned, ?_, p.diagnostics, before, after⟩
  rw [BuildReport.filesSkipped, BuildReport.filesSkipped, before, after, List.filter_append,
    List.filter_append, filter_isFileSkip_problems troubles]

theorem run_prune_of_calm (inert : p.walk.Inert e) (calm : ¬p.walk.MeetsUnfollowable e)
    (begun : plan? tree cwd request = .ok p)
    (begun' : plan? (tree.prune e) cwd request =
      .ok { p with walk := p.walk.without e inert.root })
    (cancelled : CancelAnswers) (pool : Pool) :
    run (tree.prune e) cwd request cancelled pool =
      run tree cwd request cancelled pool := by
  have items := (Walk.sameElsewhere_without inert).calm calm
  have report : Plan.report { p with walk := p.walk.without e inert.root } = p.report := by
    rw [report_without inert, Walk.filter_sightings_of_not_meetsUnfollowable inert calm,
      Walk.map_item_sightings]
    rfl
  rw [run_eq, run_eq, begun, begun']
  simp only [report, Plan.looks, Plan.whole, items]

/-- An entry that the filter leaves out can be deleted if neither the way of the root nor that of a
link elsewhere, nor that of the import map, asks for it. Nothing changes but that errors are gone
which the walk met at the entry itself, and there it met none unless the entry is a link that it
could not follow. -/
theorem run_prune_of_excluded (tree : FileTree) (cwd : Place) (path : Path) (dir : Place) (n : Name)
    (root : ∀ r, Path.absolute? cwd.path path = some r → tree.PathAvoids cwd r (dir ++ [n]))
    (alone : tree.Detached (dir ++ [n])) :
    (∀ f : WalkFilter, f.prunes n = true →
      match Walk.start? tree cwd f path with
      | .error error => Walk.start? (tree.prune (dir ++ [n])) cwd f path = .error error
      | .ok w =>
        (∀ s ∈ w.sightings, s.entry = dir ++ [n] →
          w.MeetsUnfollowable (dir ++ [n]) ∧ ∃ error, s.item = .trouble error) ∧
        ∃ rest, Walk.start? (tree.prune (dir ++ [n])) cwd f path = .ok rest ∧
          rest.SameElsewhere w (dir ++ [n])) ∧
    ∀ importMap exclude jobs, (filter exclude).prunes n = true →
      (∀ q, importMap = some q → tree.PathAvoids cwd q (dir ++ [n])) →
      let request : BuildRequest := ⟨path, importMap, exclude, jobs⟩
      match Walk.start? tree cwd (filter exclude) path with
      | .error error => ∀ cancelled pool,
        run tree cwd request cancelled pool = .error (.rootUnreadable error) ∧
        run (tree.prune (dir ++ [n])) cwd request cancelled pool =
          .error (.rootUnreadable error)
      | .ok w =>
        (¬w.MeetsUnfollowable (dir ++ [n]) → ∀ cancelled pool,
          run (tree.prune (dir ++ [n])) cwd request cancelled pool =
            run tree cwd request cancelled pool) ∧
        ∃ report rest,
          (∀ schedule, run tree cwd request (fun _ => false) (.started schedule) = .ok report) ∧
          (∀ schedule, run (tree.prune (dir ++ [n])) cwd request (fun _ => false)
            (.started schedule) = .ok rest) ∧
          SameElsewhere rest report w (dir ++ [n]) := by
  have inert {w : Walk} {f : WalkFilter} (pruned : f.prunes n = true)
      (started : Walk.start? tree cwd f path = .ok w) : w.Inert (dir ++ [n]) := by
    obtain ⟨rfl, rfl, rfl, absolute⟩ := Walk.start?_eq_ok started
    refine ⟨root w.root absolute, alone, fun before m same => ?_⟩
    obtain rfl := List.singleton_inj.mp (List.append_inj' same rfl).2
    exact pruned
  constructor
  · intro f pruned
    cases started : Walk.start? tree cwd f path with
    | error error => exact Walk.start?_prune_of_error root started
    | ok w =>
      have inert := inert pruned started
      obtain ⟨avoids, started'⟩ := Walk.start?_prune_of_ok root started
      exact ⟨fun s member same => Walk.meetsUnfollowable_of_mem_sightings inert member same, _,
        started', Walk.sameElsewhere_without inert⟩
  · intro importMap exclude jobs pruned map request
    cases begun : plan? tree cwd request with
    | error error =>
      have failed : Walk.start? tree cwd (filter exclude) path = .error error :=
        plan?_eq_error.mp begun
      have failed' := plan?_prune_of_error root begun
      rw [failed]
      intro cancelled pool
      rw [run_eq, run_eq, begun, failed']
      exact ⟨rfl, rfl⟩
    | ok p =>
      have started : Walk.start? tree cwd (filter exclude) path = .ok p.walk :=
        (plan?_eq_ok.mp begun).1
      have inert := inert pruned started
      obtain ⟨avoids, begun'⟩ := plan?_prune_of_ok root map begun
      rw [started]
      have calm : ¬p.walk.MeetsUnfollowable (dir ++ [n]) → ∀ cancelled pool, _ :=
        fun calm cancelled pool => run_prune_of_calm inert calm begun begun' cancelled pool
      exact ⟨calm, _, _, run_of_never_started begun, run_of_never_started begun',
        sameElsewhere_report inert⟩

/-! ### Entries that are left out and met all the same -/

/-- A project with nothing in it but a hidden link to itself. -/
def knotTree : FileTree :=
  FileTree.empty.place [.ofString "p", .ofString ".l"] (.link (.ofString "."))

/-- A project with a hidden directory, and a link that leads to the project by way of it. -/
def detourTree : FileTree :=
  (FileTree.empty.place [.ofString "p", .ofString ".d"] (.directory true)).place
    [.ofString "l"] (.link (.ofString "p/.d/.."))

/-- A project with an import map in a hidden directory. -/
def cabinetTree : FileTree :=
  FileTree.empty.place [.ofString "p", .ofString ".m", .ofString "m.json"]
    (.file (Text.Utf8.encode "\x7b\"imports\": \x7b\x7d\x7d") true)

/-- The places of the links in a tree. -/
def links (t : FileTree) : List Place :=
  (t.nodes.filter fun x => x.2 matches .link _).map Prod.fst

theorem mem_links {t : FileTree} {q : Place} {target : Path}
    (link : t.node? q = some (.link target)) : q ∈ links t := by
  have inner : q ≠ [] := by
    rintro rfl
    exact absurd link (by simp [FileTree.node?])
  have member := FileTree.mem_of_node? inner link
  exact List.mem_map.mpr ⟨(q, .link target), List.mem_filter.mpr ⟨member, rfl⟩, rfl⟩

/-- The one link of a tree. -/
theorem eq_of_links {t : FileTree} (dir : Place) (m : Name) (target : Path) {here : Place}
    {n : Name} {target' : Path} (only : links t = [dir ++ [m]])
    (there : t.node? (dir ++ [m]) = some (.link target))
    (link : t.node? (here ++ [n]) = some (.link target')) :
    here = dir ∧ n = m ∧ target' = target := by
  have same := mem_links link
  rw [only, List.mem_singleton] at same
  obtain ⟨rfl, named⟩ := List.append_inj' same rfl
  obtain rfl := List.singleton_inj.mp named
  exact ⟨rfl, rfl, Node.link.inj (Option.some.inj (link.symm.trans there))⟩

theorem links_knotTree : links knotTree = [[.ofString "p", .ofString ".l"]] := by
  decide +kernel

theorem detached_knotTree : knotTree.Detached ([.ofString "p"] ++ [.ofString ".l"]) := by
  intro here n target link apart
  have only := mem_links link
  rw [links_knotTree, List.mem_singleton] at only
  exact absurd (only ▸ List.prefix_refl _) apart

theorem avoids_knotTree :
    knotTree.PathAvoids [] (.ofString "/p") ([.ofString "p"] ++ [.ofString ".l"]) := by
  have way : FileTree.steps (.ofString "/p") = [.down (.ofString "p")] := by decide +kernel
  have lands : knotTree.land [] (.down (.ofString "p")) = .ok (.place [.ofString "p"]) := by
    decide +kernel
  constructor
  · decide +kernel
  · rw [way]
    intro asks
    cases asks with
    | here found => exact absurd found (by decide +kernel)
    | step _ rest => cases rest
    | link lands' _ _ => exact absurd (lands.symm.trans lands') (by simp)

/-- The walk of that project meets the link, and the walk without the link meets nothing. -/
theorem sameElsewhere_knotTree :
    ∃ w rest,
      Walk.start? knotTree [] .projectDefault (.ofString "/p") = .ok w ∧
      Walk.start? (knotTree.prune ([.ofString "p"] ++ [.ofString ".l"])) [] .projectDefault
        (.ofString "/p") = .ok rest ∧
      rest.SameElsewhere w ([.ofString "p"] ++ [.ofString ".l"]) ∧
      ∃ report others,
        run knotTree [] ⟨.ofString "/p", none, [], 1⟩ (fun _ => false) .inOrder = .ok report ∧
        run (knotTree.prune ([.ofString "p"] ++ [.ofString ".l"])) []
          ⟨.ofString "/p", none, [], 1⟩ (fun _ => false) .inOrder = .ok others ∧
        SameElsewhere others report w ([.ofString "p"] ++ [.ofString ".l"]) := by
  have absolute : Path.absolute? (Place.path []) (.ofString "/p") = some (.ofString "/p") := by
    decide +kernel
  have root : ∀ r, Path.absolute? (Place.path []) (.ofString "/p") = some r →
      knotTree.PathAvoids [] r ([.ofString "p"] ++ [.ofString ".l"]) := by
    intro r given
    obtain rfl := Option.some.inj (absolute.symm.trans given)
    exact avoids_knotTree
  have plain : filter [] = .projectDefault := by decide +kernel
  have pruned : WalkFilter.projectDefault.prunes (.ofString ".l") = true := by decide +kernel
  have begins : (Walk.start? knotTree [] .projectDefault (.ofString "/p")).isOk = true := by
    decide +kernel
  obtain ⟨walks, builds⟩ := run_prune_of_excluded knotTree [] (.ofString "/p") [.ofString "p"]
    (.ofString ".l") root detached_knotTree
  have walks := walks .projectDefault pruned
  have builds := builds none [] 1 (plain ▸ pruned) nofun
  rw [plain] at builds
  cases started : Walk.start? knotTree [] .projectDefault (.ofString "/p") with
  | error error => exact absurd (started ▸ begins) (by simp [Except.isOk, Except.toBool])
  | ok w =>
    rw [started] at walks builds
    obtain ⟨-, rest, started', same⟩ := walks
    obtain ⟨-, report, others, built, built', same'⟩ := builds
    exact ⟨w, rest, rfl, started', same, report, others, built .inOrder, built' .inOrder, same'⟩

/-- What is left out may be met all the same: a link as an error, even if nothing else leads to it;
a directory on the way to the root; and one with the import map in it. -/
theorem exists_excluded_entry_met :
    (WalkFilter.projectDefault.prunes (.ofString ".l") = true ∧
      links knotTree = [[.ofString "p", .ofString ".l"]] ∧
      (Walk.start? knotTree [] .projectDefault (.ofString "/p")).map (·.items) =
        .ok [.trouble (.loop (.ofString "/p/.l") (.ofString "/p"))] ∧
      (Walk.start? (knotTree.prune [.ofString "p", .ofString ".l"]) [] .projectDefault
        (.ofString "/p")).map (·.items) = .ok []) ∧
    (WalkFilter.projectDefault.prunes (.ofString ".d") = true ∧
      links detourTree = [[.ofString "l"]] ∧
      detourTree.locate [] (.ofString "/l") = .ok [.ofString "p"] ∧
      (Walk.start? detourTree [] .projectDefault (.ofString "/l")).map (·.items) = .ok [] ∧
      (Walk.start? (detourTree.prune [.ofString "p", .ofString ".d"]) [] .projectDefault
        (.ofString "/l")).map (·.items) = .error ⟨.ofString "/l", .noDirectory⟩) ∧
    (WalkFilter.projectDefault.prunes (.ofString ".m") = true ∧
      links cabinetTree = [] ∧
      run cabinetTree [] ⟨.ofString "/p", some (.ofString "/p/.m/m.json"), [], 1⟩ (fun _ => false)
        .inOrder = .ok ⟨.empty, [], 0⟩ ∧
      run (cabinetTree.prune [.ofString "p", .ofString ".m"]) []
        ⟨.ofString "/p", some (.ofString "/p/.m/m.json"), [], 1⟩ (fun _ => false) .inOrder =
        .ok ⟨.empty, [.ofImportMapError (.unread (.ofString "/p/.m/m.json") .missing)], 0⟩) := by
  refine ⟨⟨?_, ?_, ?_, ?_⟩, ⟨?_, ?_, ?_, ?_, ?_⟩, ?_, ?_, ?_, ?_⟩ <;> decide +kernel

end Build

end RemoteIndex
