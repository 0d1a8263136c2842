import RemoteIndex.Proofs.Pruning
import RemoteIndex.Proofs.Separation

/-!
# The order of a walk

A walk gives its files in the order of their components, which is not that of their bytes: what is
in `a` comes before `a.ts`. The entries of a directory are met in the order of their names, and
below an entry every way begins with its name, so the order holds of the whole walk if it holds
below each entry. The references of a module follow it, and in each file the order of the text.
-/

namespace RemoteIndex

/-! ## Paths -/

namespace Path

/-- The components of a path, each as it is written. -/
def writtenComponents (p : Path) : List (List UInt8) := p.components.map fun c => c.path.bytes

/-- The components of the path come before those of the other one: at the first place where they
differ, the bytes are smaller, or the path has ended. -/
def Precedes (p q : Path) : Prop := p.writtenComponents < q.writtenComponents

theorem not_precedes_self (p : Path) : ¬ p.Precedes p := List.lt_irrefl _

theorem Precedes.ne {p q : Path} (h : p.Precedes q) : p ≠ q := by
  rintro rfl
  exact p.not_precedes_self h

theorem writtenComponents_extend {p : Path} {names : List Name} (given : p.bytes ≠ [])
    (proper : ∀ n ∈ names, n.Proper) :
    (p.extend names).writtenComponents = p.writtenComponents ++ names := by
  rw [writtenComponents, components_extend given proper, List.map_append, List.map_map]
  exact congrArg _ (List.map_id names)

/-- Below one path, the order is that of the names behind it. -/
theorem precedes_extend {p : Path} {names others : List Name} (given : p.bytes ≠ [])
    (proper : ∀ n ∈ names, n.Proper) (proper' : ∀ n ∈ others, n.Proper) (less : names < others) :
    (p.extend names).Precedes (p.extend others) := by
  rw [Precedes, writtenComponents_extend given proper, writtenComponents_extend given proper']
  exact List.append_left_lt less

end Path

/-- Ways that part behind a directory are in the order of the entries they part at. -/
theorem lt_of_prefixes {names before behind : List Name} {n m : Name} (less : n < m)
    (first : names ++ [n] <+: before) (second : names ++ [m] <+: behind) : before < behind := by
  obtain ⟨more, rfl⟩ := first
  obtain ⟨more', rfl⟩ := second
  rw [List.append_assoc, List.append_assoc]
  exact List.append_left_lt (List.cons_lt_cons_iff.mpr (.inl less))

namespace FileTree

theorem nodup_names (t : FileTree) (p : Place) : (t.names p).Nodup := by
  rw [names, (List.mergeSort_perm _ _).nodup_iff]
  have places : t.nodes.Pairwise fun e e' => e.1 ≠ e'.1 := List.pairwise_map.mp t.distinct
  refine List.pairwise_filterMap.mpr (places.imp fun ne n named m named' same => ne ?_)
  rw [nameIn?_eq_some.mp named, nameIn?_eq_some.mp named', same]

/-- The names in a directory are in strictly ascending order. -/
theorem pairwise_names (t : FileTree) (p : Place) : (t.names p).Pairwise (· < ·) := by
  have transitive (a b c : Name) (ab : a.atMost b = true) (bc : b.atMost c = true) :
      a.atMost c = true :=
    decide_eq_true (List.le_trans (of_decide_eq_true ab) (of_decide_eq_true bc))
  have total (a b : Name) : (a.atMost b || b.atMost a) = true := by
    simpa [Name.atMost] using List.le_total a b
  have sorted := List.pairwise_mergeSort transitive total
    (t.nodes.filterMap fun e => nameIn? p e.1)
  exact (sorted.and (t.nodup_names p)).imp fun both =>
    Std.lt_of_le_of_ne (of_decide_eq_true both.1) both.2

end FileTree

namespace Walk

variable {w : Walk} {here : Station} {trail : List Station} {depth : Nat}

/-- From a directory on downwards, the files are in the order of the names that lead to them. -/
theorem pairwise_visit (w : Walk) (depth : Nat) (here : Station) (trail : List Station) :
    ((w.visit depth here trail).filterMap Item.names?).Pairwise (· < ·) := by
  induction depth generalizing here trail with
  | zero => exact .nil
  | succ depth ih =>
    rw [visit_succ]
    split
    · exact .nil
    · next children listed =>
      obtain ⟨place, -, -, rfl⟩ := FileTree.list_eq_ok.mp listed
      rw [List.filterMap_flatMap, List.pairwise_flatMap]
      constructor
      · intro n _
        rw [below]
        split
        · exact ih _ _
        · next item _ => 
          cases item with
          | file names => exact List.pairwise_singleton _ _
          | trouble error => exact .nil
        · exact .nil
      · refine (w.tree.pairwise_names place).imp fun less before member behind member' => ?_
        exact lt_of_prefixes less (prefix_of_mem_below (mem_filterMap_names?.mp member))
          (prefix_of_mem_below (mem_filterMap_names?.mp member'))

theorem pairwise_items (w : Walk) : (w.items.filterMap Item.names?).Pairwise (· < ·) :=
  w.pairwise_visit _ _ _

theorem precedes_pathOf {before behind : List Name} (first : .file before ∈ w.items)
    (second : .file behind ∈ w.items) (less : before < behind) :
    (w.pathOf before).Precedes (w.pathOf behind) :=
  Path.precedes_extend w.bytes_root_ne_nil (proper_of_file_mem_items first)
    (proper_of_file_mem_items second) less

/-- A walk gives its files one behind the other in the order of their components. -/
theorem pairwise_files (w : Walk) : w.files.1.Pairwise Path.Precedes := by
  rw [files_eq, List.pairwise_map]
  refine w.pairwise_items.imp_of_mem fun member member' less => ?_
  exact precedes_pathOf (mem_filterMap_names?.mp member) (mem_filterMap_names?.mp member') less

theorem nodup_files (w : Walk) : w.files.1.Nodup := w.pairwise_files.imp Path.Precedes.ne

end Walk

/-! ## References -/

/-- The reference comes before the other one: its file does, or it begins first in the same file. -/
def Edge.Precedes (e e' : Edge) : Prop :=
  e.file.Precedes e'.file ∨ e.file = e'.file ∧ e.span.start < e'.span.start

namespace Build

variable {tree : FileTree} {cwd : Place} {m : ImportMap}

theorem pairwise_specifiersOf (bytes : List UInt8) :
    (specifiersOf bytes).Pairwise fun a b => a.site.span.start < b.site.span.start := by
  rw [specifiersOf, List.pairwise_map]
  simp only [RawSpecifier.site_classify]
  exact (Script.fits_outline _).ascending

theorem span_of_referenceTo? {url : String} {file : Path} {raw : RawSpecifier} {e : Edge}
    (h : referenceTo? m url file raw = some e) : e.span = raw.site.span := by
  rw [referenceTo?] at h
  split at h
  · exact congrArg Edge.span (Option.some.inj h).symm
  · exact absurd h (by simp)

/-- In a file, the references of a module begin one behind the other. -/
theorem pairwise_referencesIn (tree : FileTree) (cwd : Place) (m : ImportMap) (url : String)
    (file : Path) :
    (referencesIn tree cwd m url file).Pairwise fun e e' => e.span.start < e'.span.start := by
  rw [referencesIn]
  split
  · exact .nil
  · next bytes _ =>
    refine List.pairwise_filterMap.mpr ((pairwise_specifiersOf bytes).imp ?_)
    intro raw raw' less e refers e' refers'
    rw [span_of_referenceTo? refers, span_of_referenceTo? refers']
    exact less

theorem pairwise_references (m : ImportMap) (w : Walk) (url : String) :
    (references m w url).Pairwise Edge.Precedes := by
  rw [references, List.pairwise_flatMap]
  constructor
  · intro file _
    refine (pairwise_referencesIn w.tree w.cwd m url file).imp_of_mem fun member member' less => ?_
    have same := (file_of_mem_referencesIn member).1.trans (file_of_mem_referencesIn member').1.symm
    exact .inr ⟨same, less⟩
  · refine w.pairwise_files.imp fun before e member e' member' => .inl ?_
    rw [(file_of_mem_referencesIn member).1, (file_of_mem_referencesIn member').1]
    exact before

/-- Whatever the tree and the filter, the files of a walk are in the order of their components, none
is there twice, and what is below an entry comes before what is at or below a later entry of the
same directory. So the references of a module in an index are in the order of their files, and in
each file in the order of its text. -/
theorem files_and_references_ascend (tree : FileTree) (cwd : Place) :
    (∀ filter path w, Walk.start? tree cwd filter path = .ok w →
      w.files.1.Pairwise Path.Precedes ∧ w.files.1.Nodup ∧
      ∀ names n m before behind, n < m → .file (names ++ n :: before) ∈ w.items →
        .file (names ++ m :: behind) ∈ w.items →
        (w.pathOf (names ++ n :: before)).Precedes (w.pathOf (names ++ m :: behind))) ∧
    ∀ request cancelled schedule report, run tree cwd request cancelled schedule = .ok report →
      ∀ url edges, report.index.get? url = some edges → edges.Pairwise Edge.Precedes := by
  constructor
  · intro filter path w _
    refine ⟨w.pairwise_files, w.nodup_files, ?_⟩
    intro names n m before behind less first second
    refine Walk.precedes_pathOf first second (List.append_left_lt ?_)
    exact List.cons_lt_cons_iff.mpr (.inl less)
  · intro request cancelled schedule report built url edges found
    obtain ⟨w, -, lists⟩ := get?_index_of_run built
    have known := (lists url).symm.trans found
    dsimp only at known
    split at known
    · exact absurd known (by simp)
    · exact Option.some.inj known ▸ pairwise_references _ w url

/-- A project with a directory `a` beside a script `a.ts`, and a link that leads to the
directory. -/
def besideTree : FileTree :=
  ((FileTree.empty.place [.ofString "p", .ofString "b"] (.link (.ofString "a"))).place
      [.ofString "p", .ofString "a.ts"]
      (.file (Text.Utf8.encode "import 'http://[::1]/x'") true)).place
    [.ofString "p", .ofString "a", .ofString "z.ts"]
    (.file (Text.Utf8.encode "export * from 'http://[::1]/x'") true)

/-- The walk of that project. -/
def besideWalk : Walk where
  tree := besideTree
  cwd := []
  filter := filter []
  root := .ofString "/p"
  boundary := [.ofString "p"]
  located := by decide +kernel
  listable := by decide +kernel

theorem items_besideWalk :
    besideWalk.items = [.file [.ofString "a", .ofString "z.ts"], .file [.ofString "a.ts"],
      .file [.ofString "b", .ofString "z.ts"]] := by
  have levels : Walk.maxDepth besideTree = 19 + 1 := by decide +kernel
  have entries : besideTree.nodes.filterMap (fun e => FileTree.nameIn? [.ofString "p"] e.1) =
      [.ofString "a", .ofString "a.ts", .ofString "b"] := by decide +kernel
  have names : besideTree.names [.ofString "p"] =
      [.ofString "a", .ofString "a.ts", .ofString "b"] := by
    rw [FileTree.names, entries]
    exact List.mergeSort_of_pairwise (by decide +kernel)
  have listed : besideWalk.tree.list besideWalk.cwd (besideWalk.pathOf []) =
      .ok [.ofString "a", .ofString "a.ts", .ofString "b"] := names ▸ rfl
  have directory : besideWalk.move ⟨[.ofString "p"], []⟩ [] (.ofString "a") =
      .descend ⟨[.ofString "p", .ofString "a"], [.ofString "a"]⟩ := by decide +kernel
  have script : besideWalk.move ⟨[.ofString "p"], []⟩ [] (.ofString "a.ts") =
      .give (.file [.ofString "a.ts"]) := by decide +kernel
  have link : besideWalk.move ⟨[.ofString "p"], []⟩ [] (.ofString "b") =
      .descend ⟨[.ofString "p", .ofString "a"], [.ofString "b"]⟩ := by decide +kernel
  change besideWalk.visit (Walk.maxDepth besideTree) ⟨[.ofString "p"], []⟩ [] = _
  rw [levels, Walk.visit]
  simp only [listed, List.flatMap_cons, List.flatMap_nil, directory, script, link]
  decide +kernel

/-- The references of the module that the scripts name. -/
def besideEdges : List Edge :=
  [⟨.ofString "/p/a/z.ts", ⟨⟨0, 14⟩, ⟨0, 30⟩⟩, .exportFrom⟩,
    ⟨.ofString "/p/a.ts", ⟨⟨0, 7⟩, ⟨0, 23⟩⟩, .importFrom⟩,
    ⟨.ofString "/p/b/z.ts", ⟨⟨0, 14⟩, ⟨0, 30⟩⟩, .exportFrom⟩]

/-- The script in the directory comes first, and is there once more by way of the link. -/
theorem besideEdges_ascend :
    (∃ report, run besideTree [] ⟨.ofString "/p", none, [], 1⟩ (fun _ => false) .inOrder =
        .ok report ∧ report.index.get? "http://[::1]/x" = some besideEdges) ∧
      besideEdges.Pairwise Edge.Precedes := by
  have begun : plan? besideTree [] ⟨.ofString "/p", none, [], 1⟩ =
      .ok ⟨.empty, besideWalk, [], 1⟩ := rfl
  have built := run_of_never begun .inOrder
  have edges : (Plan.report ⟨.empty, besideWalk, [], 1⟩).index.get? "http://[::1]/x" =
      some besideEdges := by
    change (absorbed .empty besideWalk (blankReport []) besideWalk.items).index.get? _ = _
    rw [items_besideWalk]
    decide +kernel
  exact ⟨⟨_, built, edges⟩,
    (files_and_references_ascend besideTree []).2 _ _ _ _ built _ _ edges⟩

end Build

end RemoteIndex
