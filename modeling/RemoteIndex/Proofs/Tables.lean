import Mathlib.Data.List.Sort
import RemoteIndex.Table

/-!
# What tables are known by

A table is known by what is found in it. In the table of a list of entries that is the last value of
each key, so other entries and the order of the keys do not matter.
-/

namespace RemoteIndex

variable {α : Type} {entries others : List (String × α)} {key : String} {v : α}

/-- The last entry of the key has this value. -/
def IsLast (entries : List (String × α)) (key : String) (v : α) : Prop :=
  ∃ before after, entries = before ++ (key, v) :: after ∧ key ∉ after.map Prod.fst

theorem lookup_reverse_eq_some : entries.reverse.lookup key = some v ↔ IsLast entries key v := by
  have other {rows : List (String × α)} :
      (∀ row ∈ rows, (key != row.1) = true) ↔ key ∉ rows.map Prod.fst := by
    simp only [bne_iff_ne, List.mem_map, not_exists, not_and]
    exact forall_congr' fun row => forall_congr' fun _ => ne_comm
  rw [List.lookup_eq_some_iff]
  constructor
  · rintro ⟨after, before, split, absent⟩
    refine ⟨before.reverse, after.reverse, ?_, ?_⟩
    · rw [← List.reverse_reverse entries, split]
      simp
    · rw [List.map_reverse, List.mem_reverse]
      exact other.mp absent
  · rintro ⟨before, after, rfl, absent⟩
    refine ⟨after.reverse, before.reverse, by simp, other.mpr ?_⟩
    rwa [List.map_reverse, List.mem_reverse]

/-- Where no key comes twice, every entry is the last one of its key. -/
theorem isLast_iff_mem (distinct : (entries.map Prod.fst).Nodup) :
    IsLast entries key v ↔ (key, v) ∈ entries := by
  constructor
  · rintro ⟨before, after, rfl, -⟩
    exact List.mem_append_right before List.mem_cons_self
  · intro member
    obtain ⟨before, after, rfl⟩ := List.append_of_mem member
    rw [List.map_append, List.map_cons] at distinct
    exact ⟨before, after, rfl, (List.nodup_cons.mp (List.nodup_append.mp distinct).2.1).1⟩

/-- An entry before a later one of its key does not count. -/
theorem isLast_insert {before after : List (String × α)} {k : String} {w : α}
    (later : k ∈ after.map Prod.fst) :
    IsLast (before ++ (k, w) :: after) key v ↔ IsLast (before ++ after) key v := by
  simp only [← lookup_reverse_eq_some, List.reverse_append, List.reverse_cons, List.append_assoc,
    List.lookup_append]
  by_cases same : key = k
  · have given : (after.reverse.lookup key).isSome := by
      rw [List.lookup_isSome_iff]
      obtain ⟨row, member, named⟩ := List.mem_map.mp later
      exact ⟨row, List.mem_reverse.mpr member, by simp [same, named]⟩
    obtain ⟨w', found⟩ := Option.isSome_iff_exists.mp given
    simp [found]
  · simp [List.lookup_cons, beq_false_of_ne same]

namespace Table

theorem eq_of_rows_eq {s t : Table α} (same : s.rows = t.rows) : s = t := by
  cases s
  cases t
  cases same
  rfl

/-- A table is known by what is found in it. -/
theorem eq_of_get?_eq {s t : Table α} (h : ∀ key, s.get? key = t.get? key) : s = t := by
  have irreflexive : Std.Irrefl fun a b : String × α => a.1 < b.1 := ⟨fun a => String.lt_irrefl a.1⟩
  have antisymmetric : Std.Antisymm fun a b : String × α => a.1 < b.1 :=
    ⟨fun a b less greater => absurd greater (String.lt_asymm less)⟩
  refine eq_of_rows_eq (s.ascending.eq_of_mem_iff t.ascending ?_)
  rintro ⟨key, value⟩
  rw [mem_rows, mem_rows, h]

theorem get?_ofEntries (entries : List (String × α)) (key : String) :
    (ofEntries entries).get? key = entries.reverse.lookup key := by
  have collected (t : Table α) : (entries.foldl (fun t e => t.insert e.1 e.2) t).get? key =
      (entries.reverse.lookup key).or (t.get? key) := by
    induction entries generalizing t with
    | nil => rfl
    | cons row rows ih =>
      obtain ⟨k, w⟩ := row
      rw [List.foldl_cons, ih, List.reverse_cons, List.lookup_append, Option.or_assoc]
      by_cases same : key = k
      · subst same
        rw [get?_insert_self]
        simp
      · have apart : (t.insert k w).get? key = t.get? key := get?_alter_ne same _ t
        rw [apart]
        simp [List.lookup_cons, beq_false_of_ne same]
  exact (collected empty).trans (by rw [get?_empty, Option.or_none])

theorem mem_rows_ofEntries : (key, v) ∈ (ofEntries entries).rows ↔ IsLast entries key v := by
  rw [mem_rows, get?_ofEntries, lookup_reverse_eq_some]

/-- Lists in which the keys have the same last values are of one table. -/
theorem ofEntries_congr (same : ∀ key v, IsLast entries key v ↔ IsLast others key v) :
    ofEntries entries = ofEntries others := by
  refine eq_of_get?_eq fun key => Option.ext fun v => ?_
  rw [get?_ofEntries, get?_ofEntries]
  exact lookup_reverse_eq_some.trans ((same key v).trans lookup_reverse_eq_some.symm)

end Table

end RemoteIndex
