import RemoteIndex.Path
import RemoteIndex.Specifier
import RemoteIndex.Table

/-!
# The reverse index

The index says for every remote module where it is referenced. References of a module are kept in
the order in which they were recorded, each as often as it was.
-/

namespace RemoteIndex

/-- One reference to a module: the file it is in, the span of the literal, and its form. -/
structure Edge where
  file : Path
  span : Span
  form : Form
deriving DecidableEq, Repr, Inhabited

/-- The references of each remote module. -/
structure DependencyIndex where
  table : Table (List Edge)
deriving DecidableEq, Repr, Inhabited

namespace DependencyIndex

/-- The index without references. -/
def empty : DependencyIndex := ⟨.empty⟩

/-- The index with one more reference at the end of those of `url`. -/
def append (i : DependencyIndex) (url : String) (edge : Edge) : DependencyIndex :=
  ⟨i.table.alter url fun edges => edges.getD [] ++ [edge]⟩

/-- The index with one more reference, if what it refers to is remote; and whether it is. -/
def record (i : DependencyIndex) (specifier : String) (edge : Edge) : DependencyIndex × Bool :=
  if isRemote specifier then (i.append specifier edge, true) else (i, false)

/-- The references of a module, if it has any. -/
def get? (i : DependencyIndex) (url : String) : Option (List Edge) := i.table.get? url

/-- The modules in order, each with its references. -/
def toList (i : DependencyIndex) : List (String × List Edge) := i.table.rows

/-- The number of modules. -/
def size (i : DependencyIndex) : Nat := i.table.size

/-- The number of references. -/
def edgeCount (i : DependencyIndex) : Nat :=
  (i.toList.map fun row => row.2.length).foldl (· + ·) 0

/-- Is there no reference? -/
def isEmpty (i : DependencyIndex) : Bool := i.toList.isEmpty

theorem record_of_not_isRemote {specifier : String} (h : isRemote specifier = false)
    (i : DependencyIndex) (edge : Edge) : i.record specifier edge = (i, false) := by
  simp [record, h]

theorem record_of_isRemote {specifier : String} (h : isRemote specifier = true)
    (i : DependencyIndex) (edge : Edge) :
    i.record specifier edge = (i.append specifier edge, true) := by
  simp [record, h]

@[simp]
theorem get?_empty (url : String) : empty.get? url = none := rfl

theorem get?_append_self (i : DependencyIndex) (url : String) (edge : Edge) :
    (i.append url edge).get? url = some ((i.get? url).getD [] ++ [edge]) :=
  Table.get?_alter_self url _ i.table

theorem get?_append_ne {url other : String} (h : other ≠ url) (i : DependencyIndex) (edge : Edge) :
    (i.append url edge).get? other = i.get? other :=
  Table.get?_alter_ne h _ i.table

end DependencyIndex

end RemoteIndex
