import RemoteIndex.Proofs.LeftOut
import RemoteIndex.Proofs.Unlinked

/-!
# Builds without a file

A build comes out alike without a file that its walk does not show and that it reads by no link and
not as its import map. Its index and its counts are the same, and so are its problems, but for the
reasons given where the way of a link or of the import map goes on from the file.
-/

namespace RemoteIndex

/-! ## Reports up to reasons -/

/-- The diagnostics are the same, or are those of a link or an import map whose way goes on from a
file, which is taken for a directory in the one case and is missing in the other. -/
inductive Diagnostic.SameUpToReason (mayChange : Path → Prop) : Diagnostic → Diagnostic → Prop
  | same (d : Diagnostic) : SameUpToReason mayChange d d
  | link {path : Path} : mayChange path →
      SameUpToReason mayChange (.ofWalkError (.unusable path .notDirectory))
        (.ofWalkError (.unusable path .missing))
  | importMap {path : Path} : mayChange path →
      SameUpToReason mayChange (.ofImportMapError (.unread path .notDirectory))
        (.ofImportMapError (.unread path .missing))

/-- What became of two items is the same, up to the reason of a problem. -/
inductive FileOutcome.SameUpToReason (mayChange : Path → Prop) : FileOutcome → FileOutcome → Prop
  | scanned (file : Path) (specifiers : List RawSpecifier) :
      SameUpToReason mayChange (.scanned file specifiers) (.scanned file specifiers)
  | skipped {d d' : Diagnostic} : d.SameUpToReason mayChange d' →
      SameUpToReason mayChange (.skipped d) (.skipped d')

/-- The reports tell the same about what was found in files, and their problems are the same up to
reasons. -/
structure BuildReport.SameUpToReason (mayChange : Path → Prop) (r r' : BuildReport) : Prop
    extends r.SameFinds r' where
  diagnostics : List.Forall₂ (Diagnostic.SameUpToReason mayChange) r.diagnostics r'.diagnostics

variable {mayChange : Path → Prop}

theorem Diagnostic.SameUpToReason.isFileSkip {d d' : Diagnostic}
    (h : d.SameUpToReason mayChange d') : d'.isFileSkip = d.isFileSkip := by
  cases h with
  | same => rfl
  | link _ => rfl
  | importMap _ => rfl

theorem Diagnostic.forall₂_sameUpToReason (ds : List Diagnostic) :
    List.Forall₂ (Diagnostic.SameUpToReason mayChange) ds ds :=
  List.forall₂_same.mpr fun d _ => .same d

theorem FileOutcome.SameUpToReason.same (outcome : FileOutcome) :
    outcome.SameUpToReason mayChange outcome := by
  cases outcome with
  | scanned file specifiers => exact .scanned file specifiers
  | skipped d => exact .skipped (.same d)

namespace BuildReport

variable {r r' : BuildReport}

theorem SameUpToReason.filesSkipped (h : r.SameUpToReason mayChange r') :
    r'.filesSkipped = r.filesSkipped := by
  have skips : List.Forall₂ (Diagnostic.SameUpToReason mayChange)
      (r.diagnostics.filter (·.isFileSkip)) (r'.diagnostics.filter (·.isFileSkip)) :=
    List.rel_filter (fun _ _ alike => Bool.eq_iff_iff.mp alike.isFileSkip.symm) h.diagnostics
  exact skips.length_eq.symm

theorem SameUpToReason.absorb (h : r.SameUpToReason mayChange r') (m : ImportMap)
    {o o' : FileOutcome} (alike : o.SameUpToReason mayChange o') :
    (r.absorb m o).SameUpToReason mayChange (r'.absorb m o') := by
  cases alike with
  | scanned file specifiers =>
    exact ⟨h.toSameFinds.absorb m (.scanned file specifiers), h.diagnostics⟩
  | skipped alike =>
    exact ⟨⟨h.index, h.filesScanned⟩, List.rel_append h.diagnostics (.cons alike .nil)⟩

theorem SameUpToReason.foldl_absorb (h : r.SameUpToReason mayChange r') (m : ImportMap)
    {os os' : List FileOutcome}
    (alike : List.Forall₂ (FileOutcome.SameUpToReason mayChange) os os') :
    (os.foldl (·.absorb m) r).SameUpToReason mayChange (os'.foldl (·.absorb m) r') :=
  List.rel_foldl (fun _ _ h _ _ alike => h.absorb m alike) h alike

end BuildReport

namespace Build

variable {t : FileTree} {cwd : Place} {e : Place} {w : Walk} {request : BuildRequest}
  {importMap : Option Path}

/-- The way of the path goes to the file at `e` or on from it, and the path is that of the import
map or there are links with such ways. -/
def ReasonMayChange (t : FileTree) (cwd : Place) (importMap : Option Path) (e : Place)
    (p : Path) : Prop :=
  ¬t.PathAvoids cwd p e ∧ (importMap = some p ∨ ¬t.Detached e)

theorem sameUpToReason_blankReport {ds ds' : List Diagnostic}
    (h : List.Forall₂ (Diagnostic.SameUpToReason mayChange) ds ds') :
    (blankReport ds).SameUpToReason mayChange (blankReport ds') :=
  ⟨⟨rfl, rfl⟩, h⟩

/-! ## What is found without the file -/

/-- What a walk meets becomes the same without the file, or goes astray by it. -/
theorem outcomes_prune (unseen : w.UnseenFile e)
    (links : ∀ p, w.ReasonMayChange e p → mayChange p) :
    List.Forall₂ (FileOutcome.SameUpToReason mayChange) (outcomes w w.items)
      (outcomes (w.without e unseen.root) (w.without e unseen.root).items) := by
  rw [outcomes, outcomes, List.forall₂_map_left_iff, List.forall₂_map_right_iff]
  have met := (List.forall₂_and_left (p := (· ∈ w.items)) _ _).mpr
    ⟨fun _ member => member, Walk.items_prune unseen⟩
  refine met.imp ?_
  rintro item item' ⟨member, alike⟩
  cases alike with
  | misled astray => exact .skipped (.link (links _ astray))
  | same item =>
    cases item with
    | trouble error => exact .same _
    | file names =>
      have read := (Walk.avoids_of_file_mem_items unseen member).read
      have same : FileOutcome.ofItem (w.without e unseen.root) (.file names) =
          .ofItem w (.file names) := by
        rw [FileOutcome.ofItem, FileOutcome.ofItem]
        simp only [Walk.without, Walk.pathOf] at read ⊢
        rw [read]
      rw [same]
      exact .same _

/-- An import map that is not the file is the same without it, or goes astray by it. -/
theorem importMap_prune_of_file (file : t.HasFile e)
    (absolute : ∀ p, importMap = some p → p.bytes ≠ [] → p.isAbsolute = true)
    (other : ∀ p, importMap = some p → t.locate cwd p ≠ .ok e) :
    (Build.importMap (t.prune e) cwd importMap).1 = (Build.importMap t cwd importMap).1 ∧
      List.Forall₂ (Diagnostic.SameUpToReason (ReasonMayChange t cwd importMap e))
        (Build.importMap t cwd importMap).2.2 (Build.importMap (t.prune e) cwd importMap).2.2 := by
  cases importMap with
  | none => exact ⟨rfl, .nil⟩
  | some p =>
    have unread {t : FileTree} {cause : FileError} (read : t.readText cwd p = .error cause) :
        Build.importMap t cwd (some p) =
          (.empty, [], [.ofImportMapError (.unread p cause)]) := by
      simp only [Build.importMap, ImportMap.load, read]
    have same (read : (t.prune e).readText cwd p = t.readText cwd p) :
        Build.importMap (t.prune e) cwd (some p) = Build.importMap t cwd (some p) := by
      simp only [Build.importMap, ImportMap.load, read]
    by_cases empty : p.bytes = []
    · obtain rfl : p = ⟨[]⟩ := by cases p; exact congrArg Path.mk empty
      rw [same rfl]
      exact ⟨rfl, Diagnostic.forall₂_sameUpToReason _⟩
    · obtain read | ⟨astray, before, after⟩ := file.readText_prune_of_ne
        (file.not_prefix_origin (absolute p rfl empty)) (other p rfl)
      · rw [same read]
        exact ⟨rfl, Diagnostic.forall₂_sameUpToReason _⟩
      · rw [unread before, unread after]
        exact ⟨rfl, .cons (.importMap ⟨astray, .inl rfl⟩) .nil⟩

/-- The root of a build can be walked without the file if it can be with it, and then there are as
many looks at the token, and the report is alike. -/
theorem plan?_prune_of_file (file : t.HasFile e) (unlinked : t.Unlinked e)
    (hidden : ∀ dir n, e = dir ++ [n] → (filter request.exclude).shows n = false)
    (absolute : ∀ p, request.importMap = some p → p.bytes ≠ [] → p.isAbsolute = true)
    (other : ∀ p, request.importMap = some p → t.locate cwd p ≠ .ok e) :
    (∃ error, plan? t cwd request = .error error ∧
        plan? (t.prune e) cwd request = .error error) ∨
      ∃ p p', plan? t cwd request = .ok p ∧ plan? (t.prune e) cwd request = .ok p' ∧
        (p'.looks = p.looks ∧ p'.jobs = p.jobs) ∧
        p.report.SameUpToReason (ReasonMayChange t cwd request.importMap e) p'.report := by
  have starts := Walk.start?_prune_of_file file cwd (filter request.exclude) request.root
  cases begun : plan? t cwd request with
  | error error =>
    rw [plan?_eq_error.mp begun] at starts
    exact .inl ⟨error, rfl, plan?_eq_error.mpr starts⟩
  | ok p =>
    obtain ⟨started, map, diagnostics, jobs⟩ := plan?_eq_ok.mp begun
    rw [started] at starts
    obtain ⟨avoids, started'⟩ := starts
    obtain ⟨rfl, rfl, filtered, -⟩ := Walk.start?_eq_ok started
    have unseen : p.walk.UnseenFile e :=
      ⟨file, avoids, unlinked, fun dir n at_e => filtered ▸ hidden dir n at_e⟩
    obtain ⟨sameMap, problems⟩ := importMap_prune_of_file file absolute other
    rw [← map] at sameMap
    rw [← diagnostics] at problems
    refine .inr ⟨p, ⟨p.importMap, p.walk.without e avoids, _, p.jobs⟩, rfl,
      plan?_eq_ok.mpr ⟨started', sameMap.symm, rfl, jobs⟩, ?_, ?_⟩
    · refine ⟨?_, rfl⟩
      funext pool
      simp only [Plan.looks, (Walk.items_prune unseen).length_eq]
    · exact (sameUpToReason_blankReport problems).foldl_absorb p.importMap
        (outcomes_prune unseen fun _ astray => ⟨astray.1, .inr astray.2⟩)

/-- A build without a file that is not shown, to which no link leads and that is not the import map,
fails as it does with the file, or its report is alike. -/
theorem run_prune_of_file (request : BuildRequest) (file : t.HasFile e) (unlinked : t.Unlinked e)
    (hidden : ∀ dir n, e = dir ++ [n] → (filter request.exclude).shows n = false)
    (absolute : ∀ p, request.importMap = some p → p.bytes ≠ [] → p.isAbsolute = true)
    (other : ∀ p, request.importMap = some p → t.locate cwd p ≠ .ok e)
    (cancelled : CancelAnswers) (pool : Pool) :
    (∃ error, run t cwd request cancelled pool = .error error ∧
        run (t.prune e) cwd request cancelled pool = .error error) ∨
      ∃ r r', run t cwd request cancelled pool = .ok r ∧
        run (t.prune e) cwd request cancelled pool = .ok r' ∧
        r.SameUpToReason (ReasonMayChange t cwd request.importMap e) r' := by
  obtain ⟨error, begun, begun'⟩ | ⟨p, p', begun, begun', ⟨looks, jobs⟩, alike⟩ :=
    plan?_prune_of_file file unlinked hidden absolute other
  · refine .inl ⟨.rootUnreadable error, ?_, ?_⟩
    · rw [run_eq, begun]
    · rw [run_eq, begun']
  · rw [run_eq, run_eq, begun, begun']
    simp only [looks, Plan.whole, jobs]
    cases (List.range (p.looks pool)).any cancelled with
    | true => exact .inl ⟨.cancelled, rfl, rfl⟩
    | false =>
      cases pool.trouble? p.jobs with
      | none => exact .inr ⟨p.report, p'.report, rfl, rfl, alike⟩
      | some reason => exact .inl ⟨.workerPool reason, rfl, rfl⟩

end Build

end RemoteIndex
