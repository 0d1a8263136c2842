import RemoteIndex.Proofs.Confinement
import RemoteIndex.Proofs.Pruning

/-!
# Hidden directories and dependencies

A project's filter leaves out the directories that dependencies are kept in, and what is hidden. It
decides by the text of a name. The names of the dependencies are texts, so nothing below them is
found; and a hidden directory is gone through only if its name is no text. A file that is shown has
a text for a name, so it is never hidden itself.
-/

namespace RemoteIndex

namespace Name

/-- The byte that hidden names begin with. -/
def dot : UInt8 := 0x2E

/-- Does the name begin with a dot? -/
def isHidden (n : Name) : Bool := n.head? == some dot

/-- Is it the name of a directory that dependencies are kept in? -/
def isDependency (n : Name) : Bool := (WalkFilter.dependencyNames.map ofString).contains n

theorem pieces_dot (bs : List UInt8) :
    Text.Utf8.pieces (dot :: bs) = .char '.' :: Text.Utf8.pieces bs := by
  rw [Text.Utf8.pieces.eq_def]
  rfl

/-- The text of a hidden name begins with a dot. -/
theorem toList_of_isHidden {n : Name} {text : String} (hidden : n.isHidden = true)
    (read : n.text? = some text) : ∃ cs, text.toList = '.' :: cs := by
  cases n with
  | nil => exact absurd hidden (by simp [isHidden])
  | cons b bs =>
    obtain rfl : b = dot := by simpa [isHidden] using hidden
    rw [text?, Text.Utf8.decode?, pieces_dot, Text.Utf8.wholeText?, Option.map_map,
      Option.map_eq_some_iff] at read
    obtain ⟨cs, -, rfl⟩ := read
    exact ⟨cs, String.toList_ofList⟩

/-- The names of the dependencies' directories are texts. -/
theorem text_of_isDependency {n : Name} (dependency : n.isDependency = true) :
    ∃ text, n.text? = some text ∧ text ∈ WalkFilter.dependencyNames := by
  have texts : ∀ s ∈ WalkFilter.dependencyNames, (ofString s).text? = some s := by decide +kernel
  obtain ⟨s, known, rfl⟩ := List.mem_map.mp (List.contains_iff_mem.mp dependency)
  exact ⟨s, texts s known, known⟩

end Name

namespace WalkFilter

open Pattern (Expression CharSet)

theorem occursIn_hidden (cs : List Char) : hidden.occursIn ('.' :: cs) = true := by
  have dot : (CharSet.single '.').has '.' = true := CharSet.has_single.mpr rfl
  simp only [Expression.occursIn, hidden, Expression.char, Expression.rows, List.length_cons,
    List.replicate_succ, Expression.Row.step, Expression.Row.atStart, dot]
  rfl

theorem isExcluded_of_hidden {text : String} {cs : List Char} (begins : text.toList = '.' :: cs) :
    projectDefault.isExcluded text = true := by
  have fits : (NamePattern.expression hidden).isMatch text = true := by
    rw [NamePattern.isMatch, begins]
    exact occursIn_hidden cs
  exact List.any_eq_true.mpr ⟨.expression hidden, by simp [projectDefault], fits⟩

theorem isExcluded_of_dependency {text : String} (known : text ∈ dependencyNames) :
    projectDefault.isExcluded text = true := by
  refine List.any_eq_true.mpr ⟨.name text, ?_, by simp [NamePattern.isMatch]⟩
  exact List.mem_append.mpr (.inl (List.mem_map.mpr ⟨text, known, rfl⟩))

/-- A project's filter leaves out every name that it can read and that is hidden or a
dependency's. -/
theorem prunes_of_text {sources : List String} {n : Name} {text : String}
    (read : n.text? = some text) (h : n.isHidden = true ∨ n.isDependency = true) :
    (Build.filter sources).prunes n = true := by
  have excluded : projectDefault.isExcluded text = true := by
    rcases h with hidden | dependency
    · obtain ⟨cs, begins⟩ := Name.toList_of_isHidden hidden read
      exact isExcluded_of_hidden begins
    · obtain ⟨other, read', known⟩ := Name.text_of_isDependency dependency
      obtain rfl := Option.some.inj (read.symm.trans read')
      exact isExcluded_of_dependency known
  rw [Build.filter, prunes, read, Option.any_some, isExcluded_excluding, excluded]
  rfl

end WalkFilter

/-- Below `base`, the path goes through no directory of dependencies and through no hidden one whose
name is a text, and it does not end in a hidden name. -/
structure Path.Exposed (p base : Path) : Prop where
  own : ∀ n ∈ p.namesBelow base, n.isDependency = false
  shown : ∀ n ∈ p.namesBelow base, n.isHidden = true → n.text? = none
  last : ∀ n, (p.namesBelow base).getLast? = some n → n.isHidden = false

namespace Walk

variable {w : Walk} {names : List Name} {n : Name} {p : Path}

/-- No name on the way to a file is left out. -/
theorem Reaches.kept (h : w.Reaches names) (member : n ∈ names) : w.filter.prunes n = false := by
  obtain ⟨before, behind, rfl⟩ := List.append_of_mem member
  have here : before ++ [n] <+: before ++ n :: behind := ⟨behind, by simp⟩
  exact (h.way before n here).kept

theorem exposed_of_mem_files {sources : List String} (filter : w.filter = Build.filter sources)
    (member : p ∈ w.files.1) : p.Exposed w.root := by
  obtain ⟨names, rfl, reaches⟩ := mem_files.mp member
  have proper := proper_of_file_mem_items (file_mem_items.mpr reaches)
  have below : (w.pathOf names).namesBelow w.root = names :=
    Path.namesBelow_extend w.bytes_root_ne_nil proper
  have unread : ∀ n ∈ names, n.isHidden = true ∨ n.isDependency = true → n.text? = none := by
    intro n passed h
    have kept := reaches.kept passed
    rw [filter] at kept
    cases read : n.text? with
    | none => rfl
    | some text =>
      have pruned : (Build.filter sources).prunes n = true := WalkFilter.prunes_of_text read h
      exact absurd (pruned.symm.trans kept) (by simp)
  constructor
  · intro n passed
    rw [below] at passed
    by_contra dependency
    rw [Bool.not_eq_false] at dependency
    obtain ⟨text, read, -⟩ := Name.text_of_isDependency dependency
    exact absurd (read.symm.trans (unread n passed (.inr dependency))) (by simp)
  · intro n passed hidden
    rw [below] at passed
    exact unread n passed (.inl hidden)
  · intro n last
    rw [below] at last
    obtain ⟨m, text, ends, read, -⟩ := reaches.shown
    obtain rfl : m = n := Option.some.inj (ends.symm.trans last)
    by_contra hidden
    rw [Bool.not_eq_false] at hidden
    have none := unread m (List.mem_of_getLast? last) (.inl hidden)
    exact absurd (read.symm.trans none) (by simp)

end Walk

namespace Build

/-- Whatever else is excluded, no file of a project's walk and none that a build names is in a
directory of dependencies, or in a hidden directory with a text for a name, or hidden itself. -/
theorem exposed_below_root (tree : FileTree) (cwd : Place) (path : Path) (sources : List String) :
    (∀ w, Walk.start? tree cwd (filter sources) path = .ok w →
      Path.absolute? cwd.path path = some w.root ∧ ∀ p ∈ w.files.1, p.Exposed w.root) ∧
    ∀ importMap jobs cancelled schedule report,
      run tree cwd ⟨path, importMap, sources, jobs⟩ cancelled schedule = .ok report →
      ∃ base, Path.absolute? cwd.path path = some base ∧
        ∀ url edges, report.index.get? url = some edges → ∀ e ∈ edges, e.file.Exposed base := by
  constructor
  · intro w started
    obtain ⟨-, -, filtered, absolute⟩ := Walk.start?_eq_ok started
    exact ⟨absolute, fun p member => Walk.exposed_of_mem_files filtered member⟩
  · intro importMap jobs cancelled schedule report built
    obtain ⟨w, started, lists⟩ := lists_index_of_run built
    obtain ⟨-, -, filtered, absolute⟩ := Walk.start?_eq_ok started
    refine ⟨w.root, absolute, ?_⟩
    intro url edges listed e member
    have refers : e ∈ references (ImportMap.create tree cwd importMap).1 w url := by
      rw [← lists.getD url, listed]
      exact member
    exact Walk.exposed_of_mem_files filtered (file_of_mem_references refers).1

/-- A hidden name that is no text. -/
def garbledName : Name := [Name.dot, 0xFF]

/-- A project with one script, in a directory of that name. -/
def shadedTree : FileTree :=
  FileTree.empty.place [.ofString "p", garbledName, .ofString "b.ts"]
    (.file (Text.Utf8.encode "import \"http://[::1]/x\";") true)

/-- The script that a walk of the project finds. -/
def garbledPath : Path := (Path.ofString "/p").extend [garbledName, .ofString "b.ts"]

/-- Its report. -/
def shadedReport : BuildReport where
  index := .append .empty "http://[::1]/x" ⟨garbledPath, ⟨⟨0, 7⟩, ⟨0, 23⟩⟩, .importFrom⟩
  diagnostics := []
  filesScanned := 1

theorem run_shadedTree :
    run shadedTree [] ⟨.ofString "/p", none, [], 1⟩ (fun _ => false) .inOrder =
      .ok shadedReport := by
  decide +kernel

theorem exposed_garbledPath :
    run shadedTree [] ⟨.ofString "/p", none, [], 1⟩ (fun _ => false) .inOrder =
      .ok shadedReport ∧ garbledPath.Exposed (.ofString "/p") := by
  obtain ⟨-, builds⟩ := exposed_below_root shadedTree [] (.ofString "/p") []
  obtain ⟨base, absolute, edges⟩ := builds _ _ _ _ _ run_shadedTree
  have root : Path.absolute? (Place.path []) (.ofString "/p") = some (.ofString "/p") := by
    decide +kernel
  obtain rfl := Option.some.inj (root.symm.trans absolute)
  exact ⟨run_shadedTree, edges "http://[::1]/x" _ rfl _ List.mem_cons_self⟩

/-- A directory may be hidden and gone through all the same: that its name is hidden is not seen
where the name is no text. -/
theorem exists_edge_in_hidden_directory :
    run shadedTree [] ⟨.ofString "/p", none, [], 1⟩ (fun _ => false) .inOrder =
      .ok shadedReport ∧
    ∃ edges, shadedReport.index.get? "http://[::1]/x" = some edges ∧
      ∃ e ∈ edges, ∃ n ∈ e.file.namesBelow (.ofString "/p"), n.isHidden = true := by
  refine ⟨run_shadedTree, _, rfl, _, List.mem_cons_self, garbledName, ?_, rfl⟩
  decide +kernel

end Build

end RemoteIndex
