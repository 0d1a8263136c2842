import Mathlib.Data.List.Dedup
import RemoteIndex.Proofs.ByteOrder
import RemoteIndex.Proofs.References

/-!
# The index as a log of its records

Whatever is recorded, and in whatever order, the index tells what has been accepted and nothing
else: of each module the references that were accepted for it, in the order in which they came. So
its keys, its size and its count of references can be read off the log of the records.
-/

namespace RemoteIndex

/-- A reference to be recorded, and the specifier to record it under. -/
structure Record where
  specifier : String
  edge : Edge
deriving DecidableEq, Repr

namespace Record

/-- Will the index take the record? -/
def isAccepted (r : Record) : Bool := isRemote r.specifier

/-- The references that were accepted for a module, in the order of the records. -/
def log (rs : List Record) (url : String) : List Edge :=
  ((rs.filter isAccepted).filter (·.specifier = url)).map edge

/-- The specifiers that something was accepted for, as often as it was. -/
def acceptedSpecifiers (rs : List Record) : List String := (rs.filter isAccepted).map specifier

theorem log_cons (r : Record) (rs : List Record) (url : String) :
    log (r :: rs) url =
      (if r.specifier = url ∧ isRemote url then [r.edge] else []) ++ log rs url := by
  rw [log, List.filter_cons]
  by_cases same : r.specifier = url
  · subst same
    cases accepted : r.isAccepted with
    | true =>
      have remote : isRemote r.specifier = true := accepted
      simp [log, remote]
    | false =>
      have remote : isRemote r.specifier = false := accepted
      simp [log, remote]
  · cases r.isAccepted with
    | true => simp [log, same]
    | false => simp [log, same]

theorem log_ne_nil {rs : List Record} {url : String} :
    log rs url ≠ [] ↔ url ∈ acceptedSpecifiers rs := by
  rw [log, acceptedSpecifiers, ne_eq, List.map_eq_nil_iff, List.filter_eq_nil_iff, List.mem_map]
  simp [and_assoc]

end Record

namespace DependencyIndex

open Record

/-- Records one reference after the other; gives the index behind them, and the answer to each. -/
def recordAll (i : DependencyIndex) : List Record → DependencyIndex × List Bool
  | [] => (i, [])
  | r :: rs =>
    let (i, answer) := i.record r.specifier r.edge
    let (i, answers) := i.recordAll rs
    (i, answer :: answers)

variable {i : DependencyIndex} {rs : List Record}

theorem record_snd (i : DependencyIndex) (specifier : String) (edge : Edge) :
    (i.record specifier edge).2 = isRemote specifier := by
  cases remote : isRemote specifier with
  | true => rw [record_of_isRemote remote]
  | false => rw [record_of_not_isRemote remote]

theorem recordAll_snd (i : DependencyIndex) (rs : List Record) :
    (i.recordAll rs).2 = rs.map isAccepted := by
  induction rs generalizing i with
  | nil => rfl
  | cons r rs ih =>
    rw [recordAll, List.map_cons]
    simp only [ih, record_snd]
    rfl

theorem recordAll_concat (i : DependencyIndex) (rs : List Record) (r : Record) :
    (i.recordAll (rs ++ [r])).1 = ((i.recordAll rs).1.record r.specifier r.edge).1 := by
  induction rs generalizing i with
  | nil => rfl
  | cons first rs ih => exact ih _

theorem Lists.recordAll {known : String → List Edge} (h : i.Lists known) (rs : List Record) :
    (i.recordAll rs).1.Lists fun url => known url ++ log rs url := by
  induction rs generalizing i known with
  | nil => exact h.congr fun url => (List.append_nil _).symm
  | cons r rs ih =>
    refine (ih (h.record r.specifier r.edge)).congr ?_
    intro url
    rw [log_cons, List.append_assoc]

/-- The index behind all the records has of each module what the log has. -/
theorem lists_recordAll (rs : List Record) : (empty.recordAll rs).1.Lists (log rs) :=
  lists_empty.recordAll rs

/-! ## Counting -/

theorem edgeCount_eq (i : DependencyIndex) :
    i.edgeCount = (i.toList.flatMap Prod.snd).length := by
  rw [edgeCount, List.length_flatMap, List.sum_eq_foldl_nat]

theorem length_flatMap_alterRows (url : String) (edge : Edge) (rows : List (String × List Edge)) :
    ((Table.alterRows url (fun edges => edges.getD [] ++ [edge]) rows).flatMap Prod.snd).length =
      (rows.flatMap Prod.snd).length + 1 := by
  induction rows with
  | nil => rfl
  | cons first rows ih =>
    obtain ⟨key, edges⟩ := first
    rw [Table.alterRows]
    split
    · simp only [Option.getD_some, List.flatMap_cons, List.length_append, List.length_singleton]
      omega
    · split
      · simp only [Option.getD_none, List.flatMap_cons, List.nil_append, List.length_append,
          List.length_singleton]
        omega
      · simp only [List.flatMap_cons, List.length_append, ih]
        omega

theorem edgeCount_append (i : DependencyIndex) (url : String) (edge : Edge) :
    (i.append url edge).edgeCount = i.edgeCount + 1 := by
  rw [edgeCount_eq, edgeCount_eq]
  exact length_flatMap_alterRows url edge i.table.rows

theorem edgeCount_recordAll (i : DependencyIndex) (rs : List Record) :
    (i.recordAll rs).1.edgeCount = i.edgeCount + (rs.map isAccepted).count true := by
  induction rs generalizing i with
  | nil => rfl
  | cons r rs ih =>
    rw [recordAll, List.map_cons]
    simp only [ih]
    cases accepted : r.isAccepted with
    | true =>
      rw [record_of_isRemote accepted, edgeCount_append, List.count_cons_self]
      omega
    | false =>
      rw [record_of_not_isRemote accepted, List.count_cons_of_ne (by decide)]

/-! ## The rows of the index -/

theorem mem_toList {url : String} {edges : List Edge} :
    (url, edges) ∈ i.toList ↔ i.get? url = some edges := Table.mem_rows

theorem pairwise_keys (i : DependencyIndex) : (i.toList.map Prod.fst).Pairwise (· < ·) :=
  List.pairwise_map.mpr i.table.ascending

theorem mem_keys {url : String} : url ∈ i.toList.map Prod.fst ↔ (i.get? url).isSome := by
  rw [List.mem_map, Option.isSome_iff_exists]
  constructor
  · rintro ⟨⟨key, edges⟩, member, rfl⟩
    exact ⟨edges, mem_toList.mp member⟩
  · rintro ⟨edges, found⟩
    exact ⟨(url, edges), mem_toList.mpr found, rfl⟩

theorem nodup_keys (i : DependencyIndex) : (i.toList.map Prod.fst).Nodup :=
  i.pairwise_keys.imp String.ne_of_lt

theorem Lists.mem_keys {references : String → List Edge} (h : i.Lists references) {url : String} :
    url ∈ i.toList.map Prod.fst ↔ references url ≠ [] := by
  rw [DependencyIndex.mem_keys, h url]
  split
  · next none => simp [none]
  · next some => simp [some]

theorem size_recordAll (rs : List Record) :
    (empty.recordAll rs).1.size = (acceptedSpecifiers rs).dedup.length := by
  have same : ((empty.recordAll rs).1.toList.map Prod.fst).Perm (acceptedSpecifiers rs).dedup := by
    rw [List.perm_ext_iff_of_nodup (nodup_keys _) (List.nodup_dedup _)]
    intro url
    rw [(lists_recordAll rs).mem_keys, List.mem_dedup, log_ne_nil]
  rw [← same.length_eq, List.length_map]
  rfl

theorem isRemote_of_mem_acceptedSpecifiers {url : String} (h : url ∈ acceptedSpecifiers rs) :
    isRemote url = true := by
  obtain ⟨r, member, rfl⟩ := List.mem_map.mp h
  exact (List.mem_filter.mp member).2

/-- The bytes of the keys ascend, so no key comes twice. -/
theorem pairwise_encode_keys (i : DependencyIndex) :
    (i.toList.map fun row => Text.Utf8.encode row.1).Pairwise (· < ·) :=
  List.pairwise_map.mpr (i.table.ascending.imp Text.Utf8.encode_lt_encode_iff.mpr)

/-- An index in which references were recorded tells what was accepted: an answer says whether the
specifier is remote, and where it is not nothing changes; a module has the references that were
accepted for it, as they came; the rows are what can be looked up, by ascending bytes of their keys;
and the counts are those of the accepted specifiers and of the answers. -/
theorem recordAll_refines_log (rs : List Record) :
    let (index, answers) := empty.recordAll rs
    answers = rs.map (fun r => isRemote r.specifier) ∧
    (∀ before r, before ++ [r] <+: rs → isRemote r.specifier = false →
      (empty.recordAll (before ++ [r])).1 = (empty.recordAll before).1) ∧
    (∀ url, index.get? url = if log rs url = [] then none else some (log rs url)) ∧
    (index.toList.map fun row => Text.Utf8.encode row.1).Pairwise (· < ·) ∧
    (∀ url edges, (url, edges) ∈ index.toList ↔ index.get? url = some edges) ∧
    (∀ row ∈ index.toList, isRemote row.1 = true ∧ row.2 ≠ []) ∧
    index.size = (acceptedSpecifiers rs).dedup.length ∧
    index.edgeCount = answers.count true := by
  have lists := lists_recordAll rs
  refine ⟨recordAll_snd empty rs, ?_, lists, pairwise_encode_keys _, fun url edges => mem_toList,
    ?_, size_recordAll rs, ?_⟩
  · intro before r _ refused
    rw [recordAll_concat, record_of_not_isRemote refused]
  · rintro ⟨url, edges⟩ member
    have found := mem_toList.mp member
    have key := lists.mem_keys.mp (mem_keys.mpr (Option.isSome_of_eq_some found))
    refine ⟨isRemote_of_mem_acceptedSpecifiers (log_ne_nil.mp key), ?_⟩
    rw [lists url, if_neg key] at found
    rw [← Option.some.inj found]
    exact key
  · rw [edgeCount_recordAll, ← recordAll_snd empty rs]
    exact Nat.zero_add _

end DependencyIndex

end RemoteIndex
