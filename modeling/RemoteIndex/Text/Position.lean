import RemoteIndex.Text.Utf8

/-!
# Positions in a text

A position is a line and a column, both counted from zero. Lines are separated by line feeds
only; a column counts the UTF-8 bytes since the last line feed.
-/

namespace RemoteIndex

/-- A place between two characters of a text. -/
structure Position where
  line : Nat
  column : Nat
deriving DecidableEq, Repr, Inhabited, BEq

namespace Position

/-- The beginning of a text. -/
def origin : Position := ⟨0, 0⟩

/-- The position behind `c`, where `c` begins at `p`. -/
def advance (p : Position) (c : Char) : Position :=
  if c = '\n' then ⟨p.line + 1, 0⟩ else ⟨p.line, p.column + c.utf8Size⟩

/-- The position behind the text `cs`, where `cs` begins at `p`. -/
def advanceBy (p : Position) (cs : List Char) : Position := cs.foldl advance p

/-- The position behind `cs`, counted in the line of `p` alone. -/
def along (p : Position) (cs : List Char) : Position :=
  ⟨p.line, p.column + Text.Utf8.width cs⟩

/-- Lines come first, then columns. -/
def compare (p q : Position) : Ordering :=
  (Ord.compare p.line q.line).then (Ord.compare p.column q.column)

/-- `p` is strictly before `q`. -/
def before (p q : Position) : Bool := p.compare q == .lt

/-- `p` is not behind `q`. -/
def atMost (p q : Position) : Bool := p.compare q != .gt

instance : LT Position := ⟨fun p q => p.line < q.line ∨ p.line = q.line ∧ p.column < q.column⟩

instance : LE Position := ⟨fun p q => p.line < q.line ∨ p.line = q.line ∧ p.column ≤ q.column⟩

instance (p q : Position) : Decidable (p < q) :=
  inferInstanceAs (Decidable (p.line < q.line ∨ p.line = q.line ∧ p.column < q.column))

instance (p q : Position) : Decidable (p ≤ q) :=
  inferInstanceAs (Decidable (p.line < q.line ∨ p.line = q.line ∧ p.column ≤ q.column))

@[simp]
theorem advanceBy_nil (p : Position) : p.advanceBy [] = p := rfl

@[simp]
theorem advanceBy_cons (p : Position) (c : Char) (cs : List Char) :
    p.advanceBy (c :: cs) = (p.advance c).advanceBy cs := rfl

theorem advanceBy_append (p : Position) (cs ds : List Char) :
    p.advanceBy (cs ++ ds) = (p.advanceBy cs).advanceBy ds := by
  simp [advanceBy]

/-- The positions in ascending order; equal ones keep their order. -/
def sort (ps : List Position) : List Position := ps.mergeSort atMost

end Position

/-- A stretch of text, from `start` up to and without `stop`. -/
structure Span where
  start : Position
  stop : Position
deriving DecidableEq, Repr, Inhabited, BEq

namespace Span

/-- `line:column` of the start, counted from one as editors do. -/
def display (s : Span) : String :=
  toString (s.start.line + 1) ++ ":" ++ toString (s.start.column + 1)

end Span

end RemoteIndex
