import RemoteIndex.Proofs.Records
import RemoteIndex.Proofs.RoundTrip
import RemoteIndex.Proofs.Tables
import RemoteIndex.Report

/-!
# What the document shows of an index

Of a reference the document shows the text of its file's path and its span. Nothing of that is lost
on the way: whoever reads the document finds the modules of the index in their order, and of each
what is shown of its references. So two indexes have the same document exactly when the same is
shown of them.
-/

namespace RemoteIndex

/-- A reference as the document shows it. -/
structure ShownEdge where
  file : String
  span : Span
deriving DecidableEq, Repr

/-- What is shown of a reference. -/
def Edge.shown (e : Edge) : ShownEdge := ⟨e.file.display, e.span⟩

/-- The numbers of a span. -/
def Span.numbers (s : Span) : List Nat :=
  [s.start.line, s.start.column, s.stop.line, s.stop.column]

/-! ## Reading a document as an index -/

namespace Json

/-- The natural number that a numeral of digits writes. -/
def nat? : Json → Option Nat
  | .number numeral =>
    if numeral.toList.all Char.isDigit then some (Nat.ofDigitChars 10 numeral.toList 0) else none
  | _ => none

/-- A position has a line and a character, and nothing else. -/
def position? : Json → Option Position
  | .object [("line", line), ("character", column)] => do
    some ⟨← line.nat?, ← column.nat?⟩
  | _ => none

/-- A span has a start and an end, and nothing else. -/
def span? : Json → Option Span
  | .object [("start", start), ("end", stop)] => do
    some ⟨← start.position?, ← stop.position?⟩
  | _ => none

/-- A reference has the path of a file and a location, and nothing else. -/
def edge? : Json → Option ShownEdge
  | .object [("filepath", file), ("location", span)] => do
    some ⟨← file.text?, ← span.span?⟩
  | _ => none

/-- The references of a module are a list. -/
def edges? : Json → Option (List ShownEdge)
  | .list items => items.mapM edge?
  | _ => none

/-- An index is an object that has for every module its references. -/
def index? : Json → Option (List (String × List ShownEdge))
  | .object members => members.mapM fun (url, edges) => do some (url, ← edges.edges?)
  | _ => none

theorem mapM_map_eq_some {α β γ : Type} {f : β → Option γ} {g : α → β} {h : α → γ}
    (each : ∀ a, f (g a) = some (h a)) (as : List α) : (as.map g).mapM f = some (as.map h) := by
  have pure : f ∘ g = fun a => Pure.pure (h a) := funext each
  rw [List.mapM_map, pure]
  exact List.mapM_pure

theorem nat?_ofNat (n : Nat) : (ofNat n).nat? = some n := by
  have digits : (Nat.toDigits 10 n).all Char.isDigit = true :=
    List.all_eq_true.mpr fun _ => Nat.isDigit_of_mem_toDigits (by decide) (by decide)
  rw [ofNat, nat?, Nat.toString_eq_ofList_toDigits, String.toList_ofList, if_pos digits,
    Nat.ofDigitChars_ten_toDigits]

open Report

theorem position?_positionJson (p : Position) : (positionJson p).position? = some p := by
  simp [positionJson, position?, nat?_ofNat]

theorem edge?_edgeJson (e : Edge) : (edgeJson e).edge? = some e.shown := by
  simp [edgeJson, edge?, span?, position?_positionJson, text?, Edge.shown]

theorem edges?_list_edgeJson (es : List Edge) :
    (Json.list (es.map edgeJson)).edges? = some (es.map Edge.shown) :=
  mapM_map_eq_some edge?_edgeJson es

theorem index?_indexJson (i : DependencyIndex) :
    (indexJson i).index? = some (i.toList.map fun row => (row.1, row.2.map Edge.shown)) := by
  refine mapM_map_eq_some ?_ i.toList
  rintro ⟨url, edges⟩
  simp only [edges?_list_edgeJson]
  rfl

/-! ## Printing an index -/

variable {mode : Mode}

theorem takes_positionJson {opened : Nat} {p : Position} (opens : mode.Opens opened)
    (line : TakesNumber mode p.line) (column : TakesNumber mode p.column) :
    Takes mode opened (positionJson p) := by
  refine .object opens ?_
  intro m member
  simp only [List.mem_cons, List.not_mem_nil, or_false] at member
  rcases member with rfl | rfl
  · exact .ofNat _ line
  · exact .ofNat _ column

/-- A reference has three objects inside of each other. -/
theorem takes_edgeJson {opened : Nat} {e : Edge} (opens : ∀ n ≤ opened + 2, mode.Opens n)
    (numbers : ∀ n ∈ e.span.numbers, TakesNumber mode n) : Takes mode opened (edgeJson e) := by
  simp only [Span.numbers, List.forall_mem_cons] at numbers
  obtain ⟨startLine, startColumn, stopLine, stopColumn, -⟩ := numbers
  have span : Takes mode (opened + 1)
      (.object [("start", positionJson e.span.start), ("end", positionJson e.span.stop)]) := by
    refine .object (opens _ (by omega)) ?_
    intro m member
    simp only [List.mem_cons, List.not_mem_nil, or_false] at member
    rcases member with rfl | rfl
    · exact takes_positionJson (opens _ (by omega)) startLine startColumn
    · exact takes_positionJson (opens _ (by omega)) stopLine stopColumn
  refine .object (opens _ (by omega)) ?_
  intro m member
  simp only [List.mem_cons, List.not_mem_nil, or_false] at member
  rcases member with rfl | rfl
  · exact .text _ _
  · exact span

/-- The document of an index has five values inside of each other. -/
theorem takes_indexJson {i : DependencyIndex} (opens : ∀ n ≤ 4, mode.Opens n)
    (numbers : ∀ row ∈ i.toList, ∀ e ∈ row.2, ∀ n ∈ e.span.numbers, TakesNumber mode n) :
    Takes mode 0 (indexJson i) := by
  refine .object (opens _ (by omega)) ?_
  intro m member
  obtain ⟨⟨url, edges⟩, row, rfl⟩ := List.mem_map.mp member
  refine .list (opens _ (by omega)) ?_
  intro v member
  obtain ⟨e, edge, rfl⟩ := List.mem_map.mp member
  exact takes_edgeJson opens (numbers _ row e edge)

theorem takes_skipping_indexJson (i : DependencyIndex) : Takes .skipping 0 (indexJson i) :=
  takes_indexJson (fun _ _ => trivial) fun _ _ _ _ _ _ => .inr rfl

/-- Numbers of 64 bits are no trouble to a strict reader. -/
theorem takes_strict_indexJson {i : DependencyIndex}
    (words : ∀ row ∈ i.toList, ∀ e ∈ row.2, ∀ n ∈ e.span.numbers, n ≤ Numeral.maxKept) :
    Takes (.strict maxDepth) 0 (indexJson i) := by
  refine takes_indexJson ?_ ?_
  · intro n shallow
    exact Nat.lt_of_le_of_lt shallow (by decide)
  · intro row member e edge n number
    exact .inl (isFinite_toString (words row member e edge n number))

end Json

/-! ## What is shown -/

namespace Table

variable {α β : Type}

/-- The table with every value changed by `f`. -/
def map (f : α → β) (t : Table α) : Table β where
  rows := t.rows.map fun row => (row.1, f row.2)
  ascending := by
    rw [Ascending, List.pairwise_map]
    exact t.ascending

theorem get?_map (f : α → β) (t : Table α) (key : String) :
    (t.map f).get? key = (t.get? key).map f := by
  change (t.rows.map fun row => (row.1, f row.2)).lookup key = (t.rows.lookup key).map f
  generalize t.rows = rows
  induction rows with
  | nil => rfl
  | cons row rows ih =>
    rw [List.map_cons, List.lookup_cons, List.lookup_cons, ih]
    split <;> rfl

end Table

namespace DependencyIndex

/-- What is shown of an index. -/
def shown (i : DependencyIndex) : Table (List ShownEdge) := i.table.map (List.map Edge.shown)

theorem get?_shown (i : DependencyIndex) (url : String) :
    i.shown.get? url = (i.get? url).map (List.map Edge.shown) := Table.get?_map _ _ _

/-- The references in the index are those of records. -/
theorem exists_record_of_get? {rs : List Record} {url : String} {edges : List Edge} {e : Edge}
    (found : (empty.recordAll rs).1.get? url = some edges) (edge : e ∈ edges) :
    ∃ r ∈ rs, r.edge = e := by
  rw [lists_recordAll rs url] at found
  split at found
  · cases found
  · obtain rfl := Option.some.inj found
    obtain ⟨r, kept, same⟩ := List.mem_map.mp edge
    exact ⟨r, (List.mem_filter.mp (List.mem_filter.mp kept).1).1, same⟩

end DependencyIndex

namespace Report

open DependencyIndex

/-- The document of a reference is that of what is shown of it. -/
def shownJson (e : ShownEdge) : Json :=
  .object [("filepath", .text e.file),
    ("location", .object [("start", positionJson e.span.start), ("end", positionJson e.span.stop)])]

theorem indexJson_eq (i : DependencyIndex) :
    indexJson i = .object (i.shown.rows.map fun (url, es) => (url, .list (es.map shownJson))) := by
  rw [indexJson, shown, Table.map, List.map_map]
  congr 2
  funext ⟨url, edges⟩
  change (url, Json.list (edges.map edgeJson)) =
    (url, Json.list ((edges.map Edge.shown).map shownJson))
  rw [List.map_map]
  rfl

theorem output_json (root : Path) (i : DependencyIndex) :
    output .json root i = (indexJson i).print ++ "\n" := by
  rw [output, lines, List.map_singleton, String.join_cons, String.join_nil, String.append_empty]

/-- Two indexes have the same document exactly when the same is shown of them. -/
theorem output_json_eq_iff (root root' : Path) (i i' : DependencyIndex) :
    output .json root i = output .json root' i' ↔ i.shown = i'.shown := by
  rw [output_json, output_json, String.append_left_inj,
    Json.print_inj (Json.takes_skipping_indexJson i) (Json.takes_skipping_indexJson i')]
  constructor
  · intro same
    have read := Json.index?_indexJson i
    rw [same, Json.index?_indexJson i'] at read
    exact Table.eq_of_rows_eq (Option.some.inj read).symm
  · intro same
    rw [indexJson_eq, same, ← indexJson_eq]

/-- An index in which references were recorded is printed as one document, and whoever reads it finds
the keys of the index, each once and by ascending bytes, and for every key what is shown of its
references, in their order. So another index is printed alike exactly when it has the same keys and
shows the same of their references. Lines and columns count within a text that is kept in memory,
so they are numbers of 64 bits. -/
theorem index?_output_json (rs : List Record)
    (words : ∀ r ∈ rs, ∀ n ∈ r.edge.span.numbers, n ≤ Json.Numeral.maxKept) (root : Path) :
    let index := (empty.recordAll rs).1
    (∃ document rows, Json.parse (output .json root index) = .ok document ∧
      document.index? = some rows ∧
      rows.map Prod.fst = index.toList.map Prod.fst ∧
      (rows.map fun row => Text.Utf8.encode row.1).Pairwise (· < ·) ∧
      ∀ url shown, (url, shown) ∈ rows ↔
        ∃ edges, index.get? url = some edges ∧ shown = edges.map Edge.shown) ∧
    ∀ (rs' : List Record) (root' : Path),
      let index' := (empty.recordAll rs').1
      output .json root index = output .json root' index' ↔
        ∀ url, (index.get? url).map (List.map Edge.shown) =
          (index'.get? url).map (List.map Edge.shown) := by
  intro index
  have inWords : ∀ row ∈ index.toList, ∀ e ∈ row.2, ∀ n ∈ e.span.numbers,
      n ≤ Json.Numeral.maxKept := by
    rintro ⟨url, edges⟩ row e edge
    obtain ⟨r, member, rfl⟩ := exists_record_of_get? (mem_toList.mp row) edge
    exact words r member
  refine ⟨⟨indexJson index, index.shown.rows, ?_, Json.index?_indexJson index, ?_, ?_, ?_⟩, ?_⟩
  · rw [output_json]
    exact Json.parse_print (Json.takes_strict_indexJson inWords)
  · exact List.map_map
  · exact List.pairwise_map.mpr (index.shown.ascending.imp Text.Utf8.encode_lt_encode_iff.mpr)
  · intro url shown
    rw [Table.mem_rows, get?_shown, Option.map_eq_some_iff]
    simp only [eq_comm]
  · intro rs' root' index'
    rw [output_json_eq_iff]
    constructor
    · intro same url
      rw [← get?_shown, ← get?_shown, same]
    · intro alike
      refine Table.eq_of_get?_eq fun url => ?_
      rw [get?_shown, get?_shown, alike]

/-- Two references below a key with a quote, a backslash and a control character, from a file whose
name is no text, and one below an earlier key. -/
def quotedRecords : List Record :=
  let file : Path := ⟨[0x2F, 0xFF, 0x22]⟩
  [⟨"https://[::1]/\"\\\x01", ⟨file, ⟨⟨0, 7⟩, ⟨0, 22⟩⟩, .importFrom⟩⟩,
    ⟨"./local.js", ⟨file, ⟨⟨1, 7⟩, ⟨1, 19⟩⟩, .importFrom⟩⟩,
    ⟨"http://[::1]/é", ⟨file, ⟨⟨2, 7⟩, ⟨2, 20⟩⟩, .dynamicImport⟩⟩,
    ⟨"https://[::1]/\"\\\x01", ⟨file, ⟨⟨3, 7⟩, ⟨3, 22⟩⟩, .exportFrom⟩⟩]

theorem index?_output_json_quoted :
    (∀ r ∈ quotedRecords, ∀ n ∈ r.edge.span.numbers, n ≤ Json.Numeral.maxKept) ∧
    ∃ document rows,
      Json.parse (output .json (.ofString "/") (empty.recordAll quotedRecords).1) = .ok document ∧
      document.index? = some rows ∧
      rows.map Prod.fst = ["http://[::1]/é", "https://[::1]/\"\\\x01"] ∧
      ("https://[::1]/\"\\\x01",
        [⟨"/\ufffd\"", ⟨⟨0, 7⟩, ⟨0, 22⟩⟩⟩, ⟨"/\ufffd\"", ⟨⟨3, 7⟩, ⟨3, 22⟩⟩⟩]) ∈ rows := by
  have words : ∀ r ∈ quotedRecords, ∀ n ∈ r.edge.span.numbers, n ≤ Json.Numeral.maxKept := by
    decide +kernel
  obtain ⟨⟨document, rows, parsed, read, keys, -, shown⟩, -⟩ :=
    index?_output_json quotedRecords words (.ofString "/")
  have row : ("https://[::1]/\"\\\x01",
      [⟨"/\ufffd\"", ⟨⟨0, 7⟩, ⟨0, 22⟩⟩⟩, ⟨"/\ufffd\"", ⟨⟨3, 7⟩, ⟨3, 22⟩⟩⟩]) ∈ rows := by
    refine (shown _ _).mpr
      ⟨[⟨⟨[0x2F, 0xFF, 0x22]⟩, ⟨⟨0, 7⟩, ⟨0, 22⟩⟩, .importFrom⟩,
        ⟨⟨[0x2F, 0xFF, 0x22]⟩, ⟨⟨3, 7⟩, ⟨3, 22⟩⟩, .exportFrom⟩], ?_, ?_⟩ <;>
    decide +kernel
  exact ⟨words, document, rows, parsed, read, keys.trans (by decide +kernel), row⟩

end Report

end RemoteIndex
