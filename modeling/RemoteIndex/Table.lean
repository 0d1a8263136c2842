/-!
# Tables

A table maps texts to values and lists them in the order of the texts. `alter` changes one entry
and leaves the others alone.
-/

namespace RemoteIndex

/-- Is every key of the rows before the keys of the rows behind it? -/
def Ascending {α : Type} (rows : List (String × α)) : Prop :=
  rows.Pairwise fun a b => a.1 < b.1

/-- A map from texts, kept as rows in ascending order. -/
structure Table (α : Type) where
  rows : List (String × α)
  ascending : Ascending rows
deriving DecidableEq, Repr

namespace Table

variable {α : Type}

/-- The table without entries. -/
def empty : Table α := ⟨[], .nil⟩

instance : Inhabited (Table α) := ⟨empty⟩

/-- The value at a key. -/
def get? (t : Table α) (key : String) : Option α := t.rows.lookup key

/-- The rows with the value at `key` changed by `f`. -/
def alterRows (key : String) (f : Option α → α) : List (String × α) → List (String × α)
  | [] => [(key, f none)]
  | (k, v) :: rows =>
    if key = k then (k, f (some v)) :: rows
    else if key < k then (key, f none) :: (k, v) :: rows
    else (k, v) :: alterRows key f rows

theorem mem_alterRows {key : String} {f : Option α → α} {row : String × α}
    {rows : List (String × α)} (h : row ∈ alterRows key f rows) : row.1 = key ∨ row ∈ rows := by
  induction rows with
  | nil =>
    rw [alterRows, List.mem_singleton] at h
    exact .inl (congrArg Prod.fst h)
  | cons first rows ih =>
    obtain ⟨k, v⟩ := first
    rw [alterRows] at h
    split at h
    · next same =>
      rcases List.mem_cons.mp h with equal | member
      · exact .inl (by rw [equal, same])
      · exact .inr (List.mem_cons_of_mem _ member)
    · split at h
      · rcases List.mem_cons.mp h with equal | member
        · exact .inl (congrArg Prod.fst equal)
        · exact .inr member
      · rcases List.mem_cons.mp h with equal | member
        · exact .inr (equal ▸ List.mem_cons_self)
        · rcases ih member with equal | member
          · exact .inl equal
          · exact .inr (List.mem_cons_of_mem _ member)

theorem ascending_alterRows (key : String) (f : Option α → α) {rows : List (String × α)}
    (h : Ascending rows) : Ascending (alterRows key f rows) := by
  induction rows with
  | nil => exact List.pairwise_singleton _ _
  | cons first rows ih =>
    obtain ⟨k, v⟩ := first
    obtain ⟨above, rest⟩ := List.pairwise_cons.mp h
    rw [alterRows]
    split
    · exact List.pairwise_cons.mpr ⟨above, rest⟩
    · next other =>
      split
      · next before =>
        refine List.pairwise_cons.mpr ⟨?_, h⟩
        intro row member
        rcases List.mem_cons.mp member with equal | member
        · rw [equal]
          exact before
        · exact String.lt_trans before (above row member)
      · next behind =>
        refine List.pairwise_cons.mpr ⟨?_, ih rest⟩
        intro row member
        rcases mem_alterRows member with equal | member
        · rcases Std.lt_trichotomy key k with less | equal' | less
          · exact absurd less behind
          · exact absurd equal' other
          · rw [equal]
            exact less
        · exact above row member

/-- The table with the value at `key` changed by `f`. -/
def alter (t : Table α) (key : String) (f : Option α → α) : Table α :=
  ⟨alterRows key f t.rows, ascending_alterRows key f t.ascending⟩

/-- The table with `value` at `key`. -/
def insert (t : Table α) (key : String) (value : α) : Table α := t.alter key fun _ => value

/-- The table of a list of entries; the last one of a key counts. -/
def ofEntries (entries : List (String × α)) : Table α :=
  entries.foldl (fun t (key, value) => t.insert key value) empty

/-- The number of keys. -/
def size (t : Table α) : Nat := t.rows.length

@[simp]
theorem get?_empty (key : String) : (empty : Table α).get? key = none := rfl

/-- A key below all keys of the rows is not among them. -/
theorem lookup_eq_none_of_below {key : String} {rows : List (String × α)}
    (h : ∀ row ∈ rows, key < row.1) : rows.lookup key = none := by
  rw [List.lookup_eq_none_iff]
  intro row member
  exact bne_iff_ne.mpr (String.ne_of_lt (h row member))

/-- The rows of a table are what is found in it. -/
theorem mem_rows {t : Table α} {key : String} {value : α} :
    (key, value) ∈ t.rows ↔ t.get? key = some value := by
  rw [get?, List.lookup_eq_some_iff]
  constructor
  · intro member
    obtain ⟨before, behind, split⟩ := List.append_of_mem member
    have ascending := t.ascending
    rw [split, Ascending, List.pairwise_append] at ascending
    refine ⟨before, behind, split, ?_⟩
    intro row first
    have less := ascending.2.2 row first (key, value) List.mem_cons_self
    exact bne_iff_ne.mpr (String.ne_of_lt less).symm
  · rintro ⟨before, behind, split, -⟩
    rw [split]
    exact List.mem_append_right before List.mem_cons_self

theorem lookup_alterRows_self (key : String) (f : Option α → α) {rows : List (String × α)}
    (h : Ascending rows) : (alterRows key f rows).lookup key = some (f (rows.lookup key)) := by
  induction rows with
  | nil => simp [alterRows]
  | cons first rows ih =>
    obtain ⟨k, v⟩ := first
    obtain ⟨above, rest⟩ := List.pairwise_cons.mp h
    rw [alterRows]
    split
    · next same => simp [same]
    · next other =>
      split
      · next before =>
        have absent : rows.lookup key = none :=
          lookup_eq_none_of_below fun row member => String.lt_trans before (above row member)
        simp [List.lookup_cons, beq_false_of_ne other, absent]
      · simp [List.lookup_cons, beq_false_of_ne other, ih rest]

theorem get?_alter_self (key : String) (f : Option α → α) (t : Table α) :
    (t.alter key f).get? key = some (f (t.get? key)) := lookup_alterRows_self key f t.ascending

theorem lookup_alterRows_ne {key k : String} (h : k ≠ key) (f : Option α → α)
    (rows : List (String × α)) : (alterRows key f rows).lookup k = rows.lookup k := by
  induction rows with
  | nil => simp [alterRows, List.lookup_cons, beq_false_of_ne h]
  | cons row rows ih =>
    obtain ⟨a, v⟩ := row
    simp only [alterRows]
    split
    · next same => subst same; simp [List.lookup_cons, beq_false_of_ne h]
    · split <;> simp [List.lookup_cons, beq_false_of_ne h, ih]

theorem get?_alter_ne {key k : String} (h : k ≠ key) (f : Option α → α) (t : Table α) :
    (t.alter key f).get? k = t.get? k := lookup_alterRows_ne h f t.rows

theorem get?_insert_self (key : String) (value : α) (t : Table α) :
    (t.insert key value).get? key = some value := get?_alter_self key (fun _ => value) t

end Table

end RemoteIndex
