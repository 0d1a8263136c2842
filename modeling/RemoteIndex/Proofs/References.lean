import RemoteIndex.Proofs.Scan

/-!
# The references in an index

What the index of a build says about a module can be told without the build: it is the list of the
specifiers that lead to the module, file by file in the order of the walk and in each file in the
order of its text. The invariant that carries this through the build is `DependencyIndex.Lists`.
-/

namespace RemoteIndex

namespace DependencyIndex

/-- The index has exactly these references of each module, and a module without any is not in it. -/
def Lists (i : DependencyIndex) (references : String → List Edge) : Prop :=
  ∀ url, i.get? url = if references url = [] then none else some (references url)

theorem lists_empty : empty.Lists fun _ => [] := by
  intro url
  simp

theorem Lists.congr {i : DependencyIndex} {references others : String → List Edge}
    (h : i.Lists references) (same : ∀ url, references url = others url) : i.Lists others := by
  intro url
  rw [← same url]
  exact h url

theorem Lists.getD {i : DependencyIndex} {references : String → List Edge}
    (h : i.Lists references) (url : String) : (i.get? url).getD [] = references url := by
  rw [h url]
  split
  · next none => rw [none, Option.getD_none]
  · rw [Option.getD_some]

/-- Recording adds the reference to its own module, if that is remote, and to no other. -/
theorem Lists.record {i : DependencyIndex} {references : String → List Edge}
    (h : i.Lists references) (specifier : String) (edge : Edge) :
    (i.record specifier edge).1.Lists fun url =>
      references url ++ if specifier = url ∧ isRemote url then [edge] else [] := by
  intro url
  cases remote : isRemote specifier with
  | false =>
    rw [record_of_not_isRemote remote]
    have none : ¬ (specifier = url ∧ isRemote url) := by
      rintro ⟨rfl, yes⟩
      rw [remote] at yes
      exact absurd yes (by simp)
    simp only [if_neg none, List.append_nil]
    exact h url
  | true =>
    rw [record_of_isRemote remote]
    by_cases same : specifier = url
    · subst same
      rw [get?_append_self, h.getD]
      simp [remote]
    · rw [get?_append_ne (Ne.symm same), h url]
      simp [same]

end DependencyIndex

namespace Build

/-- What a specifier in `file` adds to the references of `url`. -/
def referenceTo? (m : ImportMap) (url : String) (file : Path) (raw : RawSpecifier) : Option Edge :=
  if raw.resolve m = url ∧ isRemote url then some ⟨file, raw.site.span, raw.site.form⟩ else none

/-- The references of `url` in a file, in the order of its text. A file that cannot be read has
none. -/
def referencesIn (tree : FileTree) (cwd : Place) (m : ImportMap) (url : String) (file : Path) :
    List Edge :=
  match tree.read cwd file with
  | .error _ => []
  | .ok bytes => (specifiersOf bytes).filterMap (referenceTo? m url file)

/-- A reference that is found in a file is in that file, which could be read. -/
theorem file_of_mem_referencesIn {tree : FileTree} {cwd : Place} {m : ImportMap} {url : String}
    {file : Path} {e : Edge} (member : e ∈ referencesIn tree cwd m url file) :
    e.file = file ∧ ∃ bytes, tree.read cwd file = .ok bytes := by
  rw [referencesIn] at member
  split at member
  · exact absurd member List.not_mem_nil
  · next bytes read =>
    obtain ⟨raw, -, refers⟩ := List.mem_filterMap.mp member
    rw [referenceTo?] at refers
    split at refers
    · exact ⟨congrArg Edge.file (Option.some.inj refers).symm, bytes, read⟩
    · exact absurd refers (by simp)

/-- The references of `url` in the files of a walk, in the order of the walk. -/
def references (m : ImportMap) (w : Walk) (url : String) : List Edge :=
  w.files.1.flatMap (referencesIn w.tree w.cwd m url)

/-- The references of `url` in what became of an item. -/
def outcomeReferences (m : ImportMap) (url : String) : FileOutcome → List Edge
  | .scanned file specifiers => specifiers.filterMap (referenceTo? m url file)
  | .skipped _ => []

theorem lists_foldl_recordSpecifier (m : ImportMap) (file : Path) (specifiers : List RawSpecifier)
    {i : DependencyIndex} {known : String → List Edge} (h : i.Lists known) :
    (specifiers.foldl (BuildReport.recordSpecifier m file) i).Lists fun url =>
      known url ++ specifiers.filterMap (referenceTo? m url file) := by
  induction specifiers generalizing i known with
  | nil => exact h.congr fun url => by simp
  | cons raw specifiers ih =>
    rw [List.foldl_cons]
    refine (ih (h.record (raw.resolve m) ⟨file, raw.site.span, raw.site.form⟩)).congr ?_
    intro url
    by_cases leads : raw.resolve m = url ∧ isRemote url
    · have refers : referenceTo? m url file raw = some ⟨file, raw.site.span, raw.site.form⟩ :=
        if_pos leads
      rw [if_pos leads, List.filterMap_cons_some refers, List.append_assoc]
      rfl
    · have passes : referenceTo? m url file raw = none := if_neg leads
      rw [if_neg leads, List.filterMap_cons_none passes, List.append_nil]

theorem lists_absorb (m : ImportMap) (outcome : FileOutcome) {r : BuildReport}
    {known : String → List Edge} (h : r.index.Lists known) :
    (r.absorb m outcome).index.Lists fun url => known url ++ outcomeReferences m url outcome := by
  cases outcome with
  | scanned file specifiers => exact lists_foldl_recordSpecifier m file specifiers h
  | skipped diagnostic => exact h.congr fun url => (List.append_nil _).symm

theorem lists_foldl_absorb (m : ImportMap) (found : List FileOutcome) {r : BuildReport}
    {known : String → List Edge} (h : r.index.Lists known) :
    (found.foldl (·.absorb m) r).index.Lists fun url =>
      known url ++ found.flatMap (outcomeReferences m url) := by
  induction found generalizing r known with
  | nil => exact h.congr fun url => by simp
  | cons outcome found ih =>
    rw [List.foldl_cons]
    refine (ih (lists_absorb m outcome h)).congr ?_
    intro url
    rw [List.flatMap_cons, List.append_assoc]

theorem outcomeReferences_ofItem (m : ImportMap) (w : Walk) (url : String) (names : List Name) :
    outcomeReferences m url (.ofItem w (.file names)) =
      referencesIn w.tree w.cwd m url (w.pathOf names) := by
  cases read : w.tree.read w.cwd (w.pathOf names) with
  | error cause => simp [FileOutcome.ofItem, referencesIn, outcomeReferences, read]
  | ok bytes => simp [FileOutcome.ofItem, referencesIn, outcomeReferences, read]

/-- Item by item or file by file, the references of a walk are the same. -/
theorem flatMap_outcomes (m : ImportMap) (w : Walk) (url : String) :
    (outcomes w w.items).flatMap (outcomeReferences m url) = references m w url := by
  rw [references, Walk.files, outcomes]
  induction w.items with
  | nil => rfl
  | cons item items ih =>
    rw [List.map_cons, List.flatMap_cons, ih]
    cases item with
    | file names =>
      rw [outcomeReferences_ofItem]
      rfl
    | trouble error => rfl

/-- The import map that a build goes by is the one that was loaded, or else the empty one. -/
theorem importMap_eq_create (tree : FileTree) (cwd : Place) (path : Option Path) :
    (importMap tree cwd path).1 = (ImportMap.create tree cwd path).1 := by
  cases path with
  | none => rfl
  | some path =>
    cases loaded : ImportMap.load tree cwd path with
    | ok m => simp [importMap, ImportMap.create, loaded]
    | error error => simp [importMap, ImportMap.create, loaded]

theorem lists_index_of_run {tree : FileTree} {cwd : Place} {request : BuildRequest}
    {cancelled : CancelAnswers} {pool : Pool} {report : BuildReport}
    (h : run tree cwd request cancelled pool = .ok report) :
    ∃ w, Walk.start? tree cwd (filter request.exclude) request.root = .ok w ∧
      report.index.Lists (references (ImportMap.create tree cwd request.importMap).1 w) := by
  obtain ⟨w, started, rfl⟩ := run_ok h
  refine ⟨w, started, ?_⟩
  rw [importMap_eq_create]
  refine (lists_foldl_absorb _ _ DependencyIndex.lists_empty).congr ?_
  intro url
  rw [List.nil_append, flatMap_outcomes]

/-- The index of a build has of every module the references that a walk of the project finds in its
files, and no module without any. -/
theorem get?_index_of_run {tree : FileTree} {cwd : Place} {request : BuildRequest}
    {cancelled : CancelAnswers} {pool : Pool} {report : BuildReport}
    (h : run tree cwd request cancelled pool = .ok report) :
    ∃ w, Walk.start? tree cwd (filter request.exclude) request.root = .ok w ∧
      ∀ url, report.index.get? url =
        let found := references (ImportMap.create tree cwd request.importMap).1 w url
        if found = [] then none else some found := by
  obtain ⟨w, started, lists⟩ := lists_index_of_run h
  exact ⟨w, started, fun url => lists url⟩

/-- A project with one script, which names a module by an alias, and an import map beside it. -/
def aliasedTree : FileTree :=
  (FileTree.empty.place [.ofString "p", .ofString "a.ts"]
      (.file (Text.Utf8.encode "import \"lib/x\";") true)).place
    [.ofString "m"]
    (.file (Text.Utf8.encode "\x7b\"imports\": \x7b\"lib/\": \"http://[::1]/\"\x7d\x7d") true)

/-- The build of that project. -/
def aliasedRequest : BuildRequest := ⟨.ofString "/p", some (.ofString "/m"), [], 2⟩

/-- Its report: the alias has become an address. -/
def aliasedReport : BuildReport where
  index := .append .empty "http://[::1]/x" ⟨.ofString "/p/a.ts", ⟨⟨0, 7⟩, ⟨0, 14⟩⟩, .importFrom⟩
  diagnostics := []
  filesScanned := 1

theorem get?_index_aliased :
    run aliasedTree [] aliasedRequest (fun _ => false) .inOrder = .ok aliasedReport ∧
    ∃ w, Walk.start? aliasedTree [] (filter []) (.ofString "/p") = .ok w ∧
      ∀ url, aliasedReport.index.get? url =
        let found := references (ImportMap.create aliasedTree [] (some (.ofString "/m"))).1 w url
        if found = [] then none else some found := by
  have built : run aliasedTree [] aliasedRequest (fun _ => false) .inOrder = .ok aliasedReport := by
    decide +kernel
  exact ⟨built, get?_index_of_run built⟩

end Build

end RemoteIndex
