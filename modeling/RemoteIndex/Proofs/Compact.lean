import Mathlib.Algebra.GroupWithZero.Nat
import RemoteIndex.Proofs.Records
import RemoteIndex.Proofs.Verdict
import RemoteIndex.Report

/-!
# The lines of the compact format

The compact format has a line for every module, a line for every reference below it and a last line
with their numbers. Texts are printed as they are, so this counts lines only as long as no text of a
module and no name of a file has a line feed in it; then whoever reads the lines finds the modules
again, and of every reference the file and the start.
-/

namespace RemoteIndex

namespace Report

/-! ## Lines of a text -/

/-- The lines of a text, each of which a line feed ends. -/
def splitLines (text : String) : List String :=
  (text.toList.splitOn '\n').dropLast.map String.ofList

/-- The number of line feeds in a text. -/
def breaks (text : String) : Nat := text.toList.count '\n'

theorem breaks_append (s t : String) : breaks (s ++ t) = breaks s + breaks t := by
  rw [breaks, String.toList_append, List.count_append]
  rfl

theorem breaks_eq_zero {s : String} : breaks s = 0 ↔ '\n' ∉ s.toList := List.count_eq_zero

theorem breaks_toString (n : Nat) : breaks (toString n) = 0 := by
  rw [breaks_eq_zero, Nat.toString_eq_ofList_toDigits, String.toList_ofList]
  intro member
  have digit : Char.isDigit '\n' = true :=
    Nat.isDigit_of_mem_toDigits (by decide) (by decide) member
  exact absurd digit (by decide)

theorem toList_lines (ls : List String) :
    (lines ls).toList = ls.flatMap fun l => l.toList ++ ['\n'] := by
  rw [lines, String.toList_join, List.flatMap_map]
  simp only [String.toList_append]
  rfl

theorem length_splitLines (text : String) : (splitLines text).length = breaks text := by
  have cuts (cs : List Char) : (cs.splitOn '\n').length = cs.count '\n' + 1 := by
    induction cs with
    | nil => rfl
    | cons c cs ih =>
      rw [List.splitOn_cons_eq_if_modifyHead, List.count_cons]
      split
      · rw [List.length_cons, ih]
      · rw [List.length_modifyHead, ih, Nat.add_zero]
  rw [splitLines, List.length_map, List.length_dropLast, cuts, breaks]
  omega

theorem breaks_lines (ls : List String) : breaks (lines ls) = ls.length + (ls.map breaks).sum := by
  rw [breaks, toList_lines]
  induction ls with
  | nil => rfl
  | cons l ls ih =>
    rw [List.flatMap_cons, List.count_append, ih, List.count_append, List.length_cons,
      List.map_cons, List.sum_cons]
    change breaks l + 1 + _ = _
    omega

/-- Lines that are put together come apart again, unless there is a line feed in one of them. -/
theorem splitLines_lines {ls : List String} (whole : ∀ l ∈ ls, breaks l = 0) :
    splitLines (lines ls) = ls := by
  have cuts : (lines ls).toList.splitOn '\n' = ls.map String.toList ++ [[]] := by
    rw [toList_lines]
    induction ls with
    | nil => rfl
    | cons l ls ih =>
      obtain ⟨first, behind⟩ := List.forall_mem_cons.mp whole
      rw [List.flatMap_cons, List.append_assoc, List.singleton_append,
        List.splitOn_append_cons_self, List.splitOn_eq_singleton (breaks_eq_zero.mp first),
        ih behind]
      rfl
  rw [splitLines, cuts, List.dropLast_concat, List.map_map]
  simp

/-! ## Reading lines -/

/-- What is before a colon and a number that end the text, and the number. -/
def readNumber? (cs : List Char) : Option (List Char × Nat) :=
  match cs.reverse.dropWhile Char.isDigit with
  | ':' :: before =>
    some (before.reverse, Nat.ofDigitChars 10 (cs.reverse.takeWhile Char.isDigit).reverse 0)
  | _ => none

/-- The file and the start that a line shows of a reference. The line of a reference begins with two
blanks and counts from one. -/
def readReference? (line : String) : Option (String × Position) :=
  match line.toList with
  | ' ' :: ' ' :: cs => do
    let (cs, column) ← readNumber? cs
    let (file, line) ← readNumber? cs
    some (String.ofList file, ⟨line - 1, column - 1⟩)
  | _ => none

/-- The references that lines begin with, and the modules behind them with their references. -/
def readModules : List String → List (String × Position) × List (String × List (String × Position))
  | [] => ([], [])
  | line :: ls =>
    let (references, modules) := readModules ls
    match readReference? line with
    | some reference => (reference :: references, modules)
    | none => ([], (line, references) :: modules)

/-- The modules of a text in the compact format, with what is shown of their references. -/
def readCompact (text : String) : List (String × List (String × Position)) :=
  (readModules (splitLines text).dropLast).2

theorem readNumber?_append (cs : List Char) (n : Nat) :
    readNumber? (cs ++ ':' :: (toString n).toList) = some (cs, n) := by
  have digits : ∀ c ∈ (Nat.toDigits 10 n).reverse, c.isDigit = true := by
    intro c member
    exact Nat.isDigit_of_mem_toDigits (by decide) (by decide) (List.mem_reverse.mp member)
  have reversed : (cs ++ ':' :: Nat.toDigits 10 n).reverse =
      (Nat.toDigits 10 n).reverse ++ ':' :: cs.reverse := by simp
  have colon : ¬Char.isDigit ':' = true := by decide
  rw [Nat.toString_eq_ofList_toDigits, String.toList_ofList, readNumber?, reversed,
    List.dropWhile_append_of_pos digits, List.takeWhile_append_of_pos digits,
    List.dropWhile_cons_of_neg colon, List.takeWhile_cons_of_neg colon]
  simp [Nat.ofDigitChars_ten_toDigits]

/-- What the line of a reference shows. -/
def shownAt (root : Path) (e : Edge) : String × Position := (fileText root e, e.span.start)

theorem readReference?_edgeLine (root : Path) (e : Edge) :
    readReference? (edgeLine root e) = some (shownAt root e) := by
  have written : (edgeLine root e).toList = ' ' :: ' ' :: ((fileText root e).toList ++
      ':' :: (toString (e.span.start.line + 1)).toList ++
      ':' :: (toString (e.span.start.column + 1)).toList) := by
    simp [edgeLine, Span.display]
  simp only [readReference?, written, Option.bind_eq_bind, readNumber?_append, Option.bind_some,
    String.ofList_toList, Nat.add_sub_cancel]
  rfl

/-- An address does not begin with a blank. -/
theorem readReference?_of_isRemote {url : String} (remote : isRemote url = true) :
    readReference? url = none := by
  obtain ⟨c, cs, whole, letter⟩ := exists_toList_of_isRemote remote
  rw [readReference?, whole]
  split
  · next blanks =>
    rw [(List.cons.inj blanks).1] at letter
    exact absurd letter (by decide)
  · rfl

theorem readModules_edgeLines (root : Path) (edges : List Edge) (ls : List String) :
    readModules (edges.map (edgeLine root) ++ ls) =
      (edges.map (shownAt root) ++ (readModules ls).1, (readModules ls).2) := by
  induction edges with
  | nil => rfl
  | cons e edges ih =>
    rw [List.map_cons, List.cons_append, readModules, ih]
    simp only [readReference?_edgeLine]
    rfl

theorem readModules_rows (root : Path) {rows : List (String × List Edge)}
    (remote : ∀ row ∈ rows, isRemote row.1 = true) :
    readModules (rows.flatMap fun (url, edges) => url :: edges.map (edgeLine root)) =
      ([], rows.map fun (url, edges) => (url, edges.map (shownAt root))) := by
  induction rows with
  | nil => rfl
  | cons row rows ih =>
    obtain ⟨first, behind⟩ := List.forall_mem_cons.mp remote
    rw [List.flatMap_cons, List.cons_append, readModules, readModules_edgeLines, ih behind]
    simp only [readReference?_of_isRemote first, List.append_nil]
    rfl

/-! ## Whole lines -/

/-- There is no line feed in the texts of the modules and the files. -/
def Unbroken (root : Path) (i : DependencyIndex) : Prop :=
  ∀ row ∈ i.toList, breaks row.1 = 0 ∧ ∀ e ∈ row.2, breaks (fileText root e) = 0

theorem breaks_edgeLine (root : Path) (e : Edge) :
    breaks (edgeLine root e) = breaks (fileText root e) := by
  have blanks : breaks "  " = 0 := by decide
  have colon : breaks ":" = 0 := by decide
  simp only [edgeLine, Span.display, breaks_append, breaks_toString, blanks, colon]
  omega

theorem breaks_summaryLine (i : DependencyIndex) : breaks (summaryLine i) = 0 := by
  have modules : breaks " remote modules, " = 0 := by decide
  have references : breaks " references" = 0 := by decide
  simp only [summaryLine, breaks_append, breaks_toString, modules, references]

theorem unbroken_iff {root : Path} {i : DependencyIndex} :
    Unbroken root i ↔ ∀ l ∈ compactLines root i, breaks l = 0 := by
  simp only [compactLines, List.forall_mem_append, List.forall_mem_singleton, breaks_summaryLine,
    and_true, List.forall_mem_flatMap, List.forall_mem_cons, List.forall_mem_map, breaks_edgeLine]
  rfl

theorem length_compactLines (root : Path) (i : DependencyIndex) :
    (compactLines root i).length = i.size + i.edgeCount + 1 := by
  have size : i.size = i.toList.length := rfl
  rw [compactLines, DependencyIndex.edgeCount_eq, List.length_append, List.length_singleton, size]
  congr 1
  induction i.toList with
  | nil => rfl
  | cons row rows ih =>
    simp only [List.flatMap_cons, List.length_append, List.length_cons, List.length_map, ih]
    omega

theorem length_splitLines_compact (root : Path) (i : DependencyIndex) :
    (splitLines (output .compact root i)).length = i.size + i.edgeCount + 1 ↔ Unbroken root i := by
  have length : (splitLines (output .compact root i)).length =
      i.size + i.edgeCount + 1 + ((compactLines root i).map breaks).sum := by
    rw [length_splitLines, output, breaks_lines, length_compactLines]
  rw [length, unbroken_iff, Nat.add_eq_left, List.sum_eq_zero_iff_forall_eq_nat, List.forall_mem_map]

end Report

namespace Build

variable {tree : FileTree} {cwd : Place} {request : BuildRequest} {cancelled : CancelAnswers}
  {pool : Pool} {report : BuildReport}

/-- The modules in the index of a build are remote. -/
theorem isRemote_of_mem_toList (built : run tree cwd request cancelled pool = .ok report)
    {row : String × List Edge} (member : row ∈ report.index.toList) : isRemote row.1 = true := by
  obtain ⟨w, -, lists⟩ := lists_index_of_run built
  have some := lists.mem_keys.mp (List.mem_map_of_mem member)
  obtain ⟨e, refers⟩ := List.exists_mem_of_ne_nil _ some
  obtain ⟨file, -, inFile⟩ := List.mem_flatMap.mp refers
  rw [referencesIn] at inFile
  split at inFile
  · exact absurd inFile List.not_mem_nil
  · obtain ⟨raw, -, refersTo⟩ := List.mem_filterMap.mp inFile
    rw [referenceTo?] at refersTo
    split at refersTo
    · next leads => exact leads.2
    · exact absurd refersTo (by simp)

open Report

/-- The compact format of what a build has found has a line for each module, one for each reference
and one more exactly when no text of a module and no name of a file has a line feed. Then the lines
are the modules by ascending bytes, each with a line per reference behind it, and the line with the
two numbers; and the modules are read back from them, with the file and the start of each of their
references. -/
theorem splitLines_output_compact (built : run tree cwd request cancelled pool = .ok report)
    (root : Path) :
    let index := report.index
    let text := output .compact root index
    ((splitLines text).length = index.size + index.edgeCount + 1 ↔ Unbroken root index) ∧
    (index.toList.map fun row => Text.Utf8.encode row.1).Pairwise (· < ·) ∧
    (Unbroken root index →
      splitLines text =
        index.toList.flatMap (fun (url, edges) => url :: edges.map fun e =>
          "  " ++ fileText root e ++ ":" ++
            (toString (e.span.start.line + 1) ++ ":" ++ toString (e.span.start.column + 1))) ++
        [toString index.toList.length ++ " remote modules, " ++
          toString (index.toList.flatMap Prod.snd).length ++ " references"] ∧
      readCompact text =
        index.toList.map fun (url, edges) =>
          (url, edges.map fun e => (fileText root e, e.span.start))) := by
  intro index text
  refine ⟨length_splitLines_compact root index, index.pairwise_encode_keys, ?_⟩
  intro unbroken
  have whole : splitLines text = compactLines root index := splitLines_lines (unbroken_iff.mp unbroken)
  constructor
  · rw [whole, compactLines, summaryLine, DependencyIndex.edgeCount_eq]
    rfl
  · rw [readCompact, whole, compactLines, List.dropLast_concat,
      readModules_rows root fun row member => isRemote_of_mem_toList built member]
    rfl

theorem splitLines_output_compact_twins :
    run twinTree [] twinRequest (fun _ => false) .inOrder = .ok twinReport ∧
    Unbroken (.ofString "/p") twinReport.index ∧
    (splitLines (output .compact (.ofString "/p") twinReport.index)).length = 4 ∧
    splitLines (output .compact (.ofString "/p") twinReport.index) =
      ["http://[::1]/x", "  a.ts:1:8", "  b.ts:1:15", "1 remote modules, 2 references"] ∧
    readCompact (output .compact (.ofString "/p") twinReport.index) =
      [("http://[::1]/x", [("a.ts", ⟨0, 7⟩), ("b.ts", ⟨0, 14⟩)])] := by
  have built : run twinTree [] twinRequest (fun _ => false) .inOrder = .ok twinReport := by
    rw [← report_twinWalk 2]
    exact run_of_never plan?_twinRequest .inOrder
  have unbroken : Unbroken (.ofString "/p") twinReport.index := by
    unfold Unbroken
    decide +kernel
  obtain ⟨length, -, contents⟩ := splitLines_output_compact built (.ofString "/p")
  obtain ⟨split, read⟩ := contents unbroken
  refine ⟨built, unbroken, (length.mpr unbroken).trans ?_, split.trans ?_, read.trans ?_⟩ <;>
  decide +kernel

/-- A project with a script that names a module in a literal of two lines. -/
def continuedTree : FileTree :=
  FileTree.empty.place [.ofString "p", .ofString "a.ts"]
    (.file (Text.Utf8.encode "import \"http://[::1]/a\\\nb\";") true)

/-- The index of that project. The literal is kept as it was written. -/
def continuedIndex : DependencyIndex :=
  .append .empty "http://[::1]/a\\\nb"
    ⟨.ofString "/p/a.ts", ⟨⟨0, 7⟩, ⟨1, 2⟩⟩, .importFrom⟩

/-- One module and one reference, which take up four lines. -/
theorem exists_module_on_two_lines :
    run continuedTree [] ⟨.ofString "/p", none, [], 1⟩ (fun _ => false) .inOrder =
      .ok ⟨continuedIndex, [], 1⟩ ∧
    continuedIndex.size = 1 ∧ continuedIndex.edgeCount = 1 ∧
    splitLines (output .compact (.ofString "/p") continuedIndex) =
      ["http://[::1]/a\\", "b", "  a.ts:1:8", "1 remote modules, 1 references"] := by
  decide +kernel

end Build

end RemoteIndex
