import Mathlib.Algebra.Order.BigOperators.Group.List
import Mathlib.Data.List.Forall2
import Mathlib.Order.Bounds.Basic
import RemoteIndex.Proofs.Records
import RemoteIndex.Report

/-!
# The columns of the table

A column is as wide as its longest cell is in bytes, and a cell is filled up to that many
characters. No text has more characters than bytes, so every cell has room and all rows have their
cells at the same characters, whatever the texts are.
-/

namespace RemoteIndex.Report

/-! ## Widths -/

/-- The fold that a width is computed by gives the greatest of the numbers. -/
theorem isGreatest_foldl_max (least : Nat) (ns : List Nat) :
    IsGreatest {n | n = least ∨ n ∈ ns} (ns.foldl max least) := by
  induction ns generalizing least with
  | nil =>
    refine ⟨.inl rfl, ?_⟩
    rintro n (rfl | member)
    · exact Nat.le_refl n
    · exact absurd member List.not_mem_nil
  | cons first ns ih =>
    obtain ⟨attained, bound⟩ := ih (max least first)
    rw [List.foldl_cons]
    constructor
    · rcases attained with reached | behind
      · rw [Set.mem_ofPred_eq, reached]
        by_cases less : least ≤ first
        · exact .inr (by simp [Nat.max_eq_right less])
        · exact .inl (Nat.max_eq_left (by omega))
      · exact .inr (List.mem_cons_of_mem first behind)
    · have start : max least first ≤ ns.foldl max (max least first) := bound (.inl rfl)
      rintro n (rfl | member)
      · omega
      · rcases List.mem_cons.mp member with rfl | behind
        · omega
        · exact bound (.inr behind)

/-- The sizes of the modules' texts, and that of the head of their column. -/
def urlSizes (i : DependencyIndex) : Set Nat :=
  {n | n = 3 ∨ ∃ row ∈ i.toList, row.1.utf8ByteSize = n}

/-- The sizes of the files' texts, and that of the head of their column. -/
def fileSizes (root : Path) (i : DependencyIndex) : Set Nat :=
  {n | n = 4 ∨ ∃ row ∈ i.toList, ∃ e ∈ row.2, (fileText root e).utf8ByteSize = n}

theorem isGreatest_urlSizes (root : Path) (i : DependencyIndex) :
    IsGreatest (urlSizes i) (widths root i).url := by
  have greatest := isGreatest_foldl_max 3 (i.toList.map fun row => row.1.utf8ByteSize)
  simp only [List.mem_map] at greatest
  exact greatest

theorem isGreatest_fileSizes (root : Path) (i : DependencyIndex) :
    IsGreatest (fileSizes root i) (widths root i).file := by
  have greatest := isGreatest_foldl_max 4
    (i.toList.flatMap fun row => row.2.map fun e => (fileText root e).utf8ByteSize)
  simp only [List.mem_flatMap, List.mem_map] at greatest
  exact greatest

/-- Every character takes up a byte at least. -/
theorem length_le_utf8ByteSize (s : String) : s.length ≤ s.utf8ByteSize := by
  have bytes : s.utf8ByteSize = (s.toList.map fun c => (String.utf8EncodeChar c).length).sum := by
    rw [← Text.Utf8.length_encode, ← List.length_flatMap, ← Text.Utf8.encode_ofList,
      String.ofList_toList]
  rw [bytes, ← String.length_toList, ← List.length_map fun c => (String.utf8EncodeChar c).length]
  apply List.length_le_sum_of_one_le
  intro size member
  obtain ⟨c, -, rfl⟩ := List.mem_map.mp member
  rw [String.length_utf8EncodeChar]
  exact c.utf8Size_pos

/-! ## Cells -/

/-- The text is a cell of the row: it stands behind the first `start` characters, whole, and from
there to the character at `stop` only blanks follow, two or more. -/
def IsCell (row : String) (start stop : Nat) (text : String) : Prop :=
  ∃ before blanks behind,
    row.toList = before ++ text.toList ++ List.replicate blanks ' ' ++ behind ∧
      before.length = start ∧ start + text.length + blanks = stop ∧ 2 ≤ blanks

/-- What is put between two cells. -/
def gap : List Char := [' ', ' ']

/-- The row has these four cells, the first three at given characters, and nothing behind them. The
third is given ten characters, but may be longer. -/
structure IsRow (urlWidth fileWidth : Nat) (row url file position form : String) : Prop where
  first : IsCell row 0 (urlWidth + 2) url
  second : IsCell row (urlWidth + 2) (urlWidth + fileWidth + 4) file
  third : IsCell row (urlWidth + fileWidth + 4)
    (urlWidth + fileWidth + max 10 position.length + 6) position
  last : row.toList.drop (urlWidth + fileWidth + max 10 position.length + 6) = form.toList

theorem toList_pad (width : Nat) (s : String) :
    (pad width s).toList = s.toList ++ List.replicate (width - s.length) ' ' := by
  rw [pad, String.toList_append, String.toList_ofList]

theorem length_pad (width : Nat) (s : String) :
    (pad width s).toList.length = max width s.length := by
  rw [toList_pad, List.length_append, String.length_toList, List.length_replicate]
  omega

/-- A padded text and the two blanks behind it are a cell. -/
theorem isCell_pad {row text : String} {behind : List Char} {start stop : Nat}
    (before : List Char) (width : Nat)
    (split : row.toList = before ++ (pad width text).toList ++ gap ++ behind)
    (begins : before.length = start) (ends : start + max width text.length + 2 = stop) :
    IsCell row start stop text := by
  refine ⟨before, width - text.length + 2, behind, ?_, begins, ?_, Nat.le_add_left 2 _⟩
  · rw [split, toList_pad, ← List.replicate_append_replicate]
    simp [List.replicate, gap]
  · omega

/-- Texts that have room in their columns make a row. -/
theorem isRow_row {w : Widths} {url file : String} (urlFits : url.length ≤ w.url)
    (fileFits : file.length ≤ w.file) (position form : String) :
    IsRow w.url w.file (row w url file position form) url file position form := by
  have cells : (row w url file position form).toList =
      (pad w.url url).toList ++ gap ++ (pad w.file file).toList ++ gap ++
        (pad 10 position).toList ++ gap ++ form.toList := by
    simp only [row, String.toList_append]
    rfl
  have urlLength : (pad w.url url).toList.length = w.url := by
    rw [length_pad, Nat.max_eq_left urlFits]
  have fileLength : (pad w.file file).toList.length = w.file := by
    rw [length_pad, Nat.max_eq_left fileFits]
  have positionLength := length_pad 10 position
  have gapLength : gap.length = 2 := rfl
  refine ⟨?_, ?_, ?_, ?_⟩
  · apply isCell_pad [] w.url
    · simpa only [List.nil_append, List.append_assoc] using cells
    · rfl
    · omega
  · apply isCell_pad ((pad w.url url).toList ++ gap) w.file
    · simpa only [List.append_assoc] using cells
    · rw [List.length_append, urlLength, gapLength]
    · omega
  · apply isCell_pad ((pad w.url url).toList ++ gap ++ (pad w.file file).toList ++ gap) 10
    · exact cells
    · simp only [List.length_append]
      omega
    · omega
  · rw [cells]
    apply List.drop_left'
    simp only [List.length_append]
    omega

/-! ## Rows -/

theorem forall₂_map_right {α β : Type} {R : α → β → Prop} {f : α → β} {as : List α}
    (related : ∀ a ∈ as, R a (f a)) : List.Forall₂ R as (as.map f) := by
  rw [List.forall₂_map_right_iff, List.forall₂_same]
  exact related

/-- The references of an index, each with its module, in the order of the modules. -/
def references (i : DependencyIndex) : List (String × Edge) :=
  i.toList.flatMap fun row => row.2.map (row.1, ·)

theorem length_references (i : DependencyIndex) : (references i).length = i.edgeCount := by
  rw [DependencyIndex.edgeCount_eq, references, List.length_flatMap, List.length_flatMap]
  simp only [List.length_map]

/-- Below its head and the rule the table is the list of its references, row by row. -/
theorem tableLines_eq (root : Path) (i : DependencyIndex) :
    tableLines root i =
      row (widths root i) "URL" "FILE" "LINE:COL" "KIND" ::
        String.ofList (List.replicate ((widths root i).url + (widths root i).file + 25) '-') ::
          (references i).map fun reference =>
            edgeRow (widths root i) root reference.1 reference.2 := by
  rw [references, List.map_flatMap]
  simp only [List.map_map]
  rfl

/-- The table has a head, a rule and a row for every reference, by modules in the order of their
bytes and below a module as the index has them. The head and all rows have their files and their
positions at the same characters: with the greatest size of a module's text and the greatest size
of a file's text, each in bytes, at the first of them and two characters, and at both and four. The
rule is longer than both by 25. -/
theorem tableLines_aligned (root : Path) (i : DependencyIndex) :
    ∃ urlWidth fileWidth head rule rows,
      output .table root i = lines (head :: rule :: rows) ∧
      IsGreatest (urlSizes i) urlWidth ∧ IsGreatest (fileSizes root i) fileWidth ∧
      IsRow urlWidth fileWidth head "URL" "FILE" "LINE:COL" "KIND" ∧
      rule.toList = List.replicate (urlWidth + fileWidth + 25) '-' ∧
      rows.length = i.edgeCount ∧
      (i.toList.map fun row => Text.Utf8.encode row.1).Pairwise (· < ·) ∧
      List.Forall₂ (fun reference row => IsRow urlWidth fileWidth row reference.1
          (fileText root reference.2) reference.2.span.display reference.2.form.label)
        (references i) rows := by
  have urls := isGreatest_urlSizes root i
  have files := isGreatest_fileSizes root i
  refine ⟨(widths root i).url, (widths root i).file, _, _, _,
    congrArg lines (tableLines_eq root i), urls, files, ?_, ?_, ?_, ?_, ?_⟩
  · apply isRow_row
    · exact urls.2 (.inl rfl)
    · exact files.2 (.inl rfl)
  · exact String.toList_ofList
  · rw [List.length_map, length_references]
  · exact i.pairwise_encode_keys
  · apply forall₂_map_right
    rintro ⟨url, e⟩ member
    obtain ⟨row, among, below⟩ := List.mem_flatMap.mp member
    obtain ⟨e, edge, same⟩ := List.mem_map.mp below
    obtain ⟨rfl, rfl⟩ := Prod.mk.inj same
    apply isRow_row
    · exact Nat.le_trans (length_le_utf8ByteSize _) (urls.2 (.inr ⟨row, among, rfl⟩))
    · exact Nat.le_trans (length_le_utf8ByteSize _) (files.2 (.inr ⟨row, among, e, edge, rfl⟩))

/-- A text with an accent has more bytes than characters, and the column is wide enough for it. -/
example :
    tableLines (.ofString "/p")
        (.append (.append .empty "http://[::1]/é" ⟨.ofString "/p/ü.ts", default, .importFrom⟩)
          "http://[::1]/" ⟨.ofString "/p/a.ts", default, .dynamicImport⟩) =
      ["URL              FILE   LINE:COL    KIND",
        "---------------------------------------------",
        "http://[::1]/    a.ts   1:1         dynamic",
        "http://[::1]/é   ü.ts   1:1         import"] := by
  decide +kernel

end RemoteIndex.Report
