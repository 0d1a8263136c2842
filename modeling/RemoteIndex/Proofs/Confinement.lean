import RemoteIndex.Proofs.Reach
import RemoteIndex.Proofs.References

/-!
# Confinement

Nothing that a walk gives lies outside its root, and so nothing does that a build reads or names.
What counts is the place that a path leads to, name by name: only links are checked on the way, and
every other entry is where the directory before it is.
-/

namespace RemoteIndex

/-- The path leads to a place at or below another one. -/
def FileTree.LeadsInto (t : FileTree) (cwd : Place) (p : Path) (boundary : Place) : Prop :=
  ∃ place, boundary <+: place ∧ t.LeadsTo cwd p place ∧
    -- Only the length of the path can keep the place from being found.
    (t.locate cwd p = .ok place ∨ FileTree.maxPath < p.bytes.length)

/-- The path is looked up at or below a place. -/
def FileTree.FoundIn (t : FileTree) (cwd : Place) (p : Path) (boundary : Place) : Prop :=
  ∃ place, boundary <+: place ∧ t.locate cwd p = .ok place

theorem FileTree.LeadsInto.foundIn {t : FileTree} {cwd : Place} {p : Path} {boundary place : Place}
    (h : t.LeadsInto cwd p boundary) (located : t.locate cwd p = .ok place) :
    t.FoundIn cwd p boundary := by
  obtain ⟨there, inside, leads, -⟩ := h
  obtain rfl := leads.eq_of_locate located
  exact ⟨there, inside, located⟩

namespace Walk

variable {w : Walk} {here : Station} {trail : List Station} {n : Name} {children : List Name}
  {place : Place} {p : Path}

/-- What a walk admits behind a trail leads into the root. -/
theorem Trail.leadsInto (h : w.Trail (here :: trail))
    (listed : w.tree.list w.cwd (w.pathOf here.names) = .ok children)
    (admitted : w.Admits here n place) :
    w.tree.LeadsInto w.cwd (w.pathOf (here.names ++ [n])) w.boundary := by
  have leads := h.leadsTo listed admitted
  refine ⟨place, admitted.inside h.inside, leads, ?_⟩
  rcases Nat.lt_or_ge FileTree.maxPath (w.pathOf (here.names ++ [n])).bytes.length with long | short
  · exact .inr long
  · have proper := FileTree.proper_of_node? admitted.isSome
    rw [pathOf_concat] at leads short ⊢
    exact .inl (leads.locate_join proper (h.list_eq_ok listed).1 short)

theorem leadsInto_of_mem_files (member : p ∈ w.files.1) :
    w.tree.LeadsInto w.cwd p w.boundary := by
  obtain ⟨names, met, rfl⟩ := mem_files_iff.mp member
  obtain ⟨here, trail, children, n, place, bytes, accessible, h, listed, -, -, rfl, admitted, -⟩ :=
    file_mem_items_iff.mp met
  exact h.leadsInto listed admitted

end Walk

namespace Build

variable {tree : FileTree} {cwd : Place} {m : ImportMap} {w : Walk}

/-- A file that has been scanned is one of the walk, and could be read. -/
theorem scanned_ofItem {item : Walk.Item} {file : Path} {specifiers : List RawSpecifier}
    (member : item ∈ w.items) (scanned : FileOutcome.ofItem w item = .scanned file specifiers) :
    file ∈ w.files.1 ∧ ∃ bytes, w.tree.read w.cwd file = .ok bytes := by
  cases item with
  | trouble error => exact absurd scanned (by simp [FileOutcome.ofItem])
  | file names =>
    cases read : w.tree.read w.cwd (w.pathOf names) with
    | error cause => exact absurd scanned (by simp [FileOutcome.ofItem, read])
    | ok bytes =>
      simp only [FileOutcome.ofItem, read, FileOutcome.ofText_decodeLossy,
        FileOutcome.scanned.injEq] at scanned
      obtain ⟨rfl, -⟩ := scanned
      exact ⟨Walk.mem_files_iff.mpr ⟨names, member, rfl⟩, bytes, read⟩

/-- A reference is in a file of the walk that could be read. -/
theorem file_of_mem_references {url : String} {e : Edge} (member : e ∈ references m w url) :
    e.file ∈ w.files.1 ∧ ∃ bytes, w.tree.read w.cwd e.file = .ok bytes := by
  rw [references, List.mem_flatMap] at member
  obtain ⟨file, given, refers⟩ := member
  obtain ⟨rfl, read⟩ := file_of_mem_referencesIn refers
  exact ⟨given, read⟩

theorem foundIn_of_read {file : Path} {bytes : List UInt8} (member : file ∈ w.files.1)
    (read : w.tree.read w.cwd file = .ok bytes) : w.tree.FoundIn w.cwd file w.boundary := by
  obtain ⟨place, located⟩ := FileTree.locate_of_read read
  exact (Walk.leadsInto_of_mem_files member).foundIn located

/-- Every file of a walk lies in the place that its root leads to, and so does every file that a
build reads or that is named in its index. -/
theorem leadsInto_root (tree : FileTree) (cwd : Place) (path : Path) :
    (∀ filter w, Walk.start? tree cwd filter path = .ok w →
      Path.absolute? cwd.path path = some w.root ∧ tree.locate cwd w.root = .ok w.boundary ∧
        ∀ p ∈ w.files.1, tree.LeadsInto cwd p w.boundary) ∧
    ∀ request cancelled schedule report, request.root = path →
      run tree cwd request cancelled schedule = .ok report →
      ∃ w, Walk.start? tree cwd (filter request.exclude) path = .ok w ∧
        (∀ item ∈ w.items, ∀ file specifiers,
          FileOutcome.ofItem w item = .scanned file specifiers →
          tree.FoundIn cwd file w.boundary) ∧
        ∀ url edges, report.index.get? url = some edges →
          ∀ e ∈ edges, tree.FoundIn cwd e.file w.boundary := by
  constructor
  · intro filter w started
    obtain ⟨rfl, rfl, -, absolute⟩ := Walk.start?_eq_ok started
    exact ⟨absolute, w.located, fun p member => Walk.leadsInto_of_mem_files member⟩
  · rintro request cancelled schedule report rfl built
    obtain ⟨w, started, lists⟩ := lists_index_of_run built
    refine ⟨w, started, ?_, ?_⟩
    · intro item member file specifiers scanned
      obtain ⟨rfl, rfl, -, -⟩ := Walk.start?_eq_ok started
      obtain ⟨given, bytes, read⟩ := scanned_ofItem member scanned
      exact foundIn_of_read given read
    · intro url edges listed e member
      obtain ⟨rfl, rfl, -, -⟩ := Walk.start?_eq_ok started
      have refers : e ∈ references (ImportMap.create w.tree w.cwd request.importMap).1 w url := by
        rw [← lists.getD url, listed]
        exact member
      obtain ⟨given, bytes, read⟩ := file_of_mem_references refers
      exact foundIn_of_read given read

/-- The report of a build over a link: it names the script by the way that it was reached. -/
def linkedReport : BuildReport where
  index := .append .empty "http://[::1]/x"
    ⟨.ofString "/l/lib/a.ts", ⟨⟨0, 7⟩, ⟨0, 23⟩⟩, .importFrom⟩
  diagnostics := []
  filesScanned := 1

theorem linked_script_foundIn :
    run Walk.linkedTree [] ⟨.ofString "l/.", none, [], 1⟩ (fun _ => false) .inOrder =
      .ok linkedReport ∧
    Walk.linkedTree.FoundIn [] (.ofString "/l/lib/a.ts") [.ofString "p"] := by
  have built : run Walk.linkedTree [] ⟨.ofString "l/.", none, [], 1⟩ (fun _ => false) .inOrder =
      .ok linkedReport := by decide +kernel
  obtain ⟨walks, builds⟩ := leadsInto_root Walk.linkedTree [] (.ofString "l/.")
  obtain ⟨w, started, -, edges⟩ := builds _ _ _ _ rfl built
  obtain ⟨absolute, located, -⟩ := walks _ w started
  have root : w.root = .ofString "/l" := by
    have known : Path.absolute? (Place.path []) (.ofString "l/.") = some (.ofString "/l") := by
      decide +kernel
    exact Option.some.inj (absolute.symm.trans known)
  have boundary : w.boundary = [.ofString "p"] := by
    have known : Walk.linkedTree.locate [] (.ofString "/l") = .ok [.ofString "p"] := by
      decide +kernel
    rw [root] at located
    exact Except.ok.inj (located.symm.trans known)
  refine ⟨built, boundary ▸ edges "http://[::1]/x" _ rfl _ List.mem_cons_self⟩

end Build

end RemoteIndex
