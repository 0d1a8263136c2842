/-!
# Patterns

A pattern describes texts by single characters, sequences, choices and repetitions, and may ask to
stand at the beginning or the end of the text.

Matching goes by rows. A row has one mark for every suffix of the text, the whole text first and
the empty suffix last. `rows` turns the row of the suffixes that may be left over into the row of
the suffixes that the pattern can begin; its cost is bounded by the sizes of pattern and text.
-/

namespace RemoteIndex.Pattern

/-- A set of characters: those in one of the ranges, or those in none of them. -/
structure CharSet where
  negated : Bool
  ranges : List (Char × Char)
deriving DecidableEq, Repr, Inhabited

namespace CharSet

/-- The set of all characters. -/
def all : CharSet := ⟨true, []⟩

/-- The set with one member. -/
def single (c : Char) : CharSet := ⟨false, [(c, c)]⟩

/-- Membership. -/
def has (s : CharSet) (c : Char) : Bool :=
  s.ranges.any (fun (first, last) => first ≤ c && c ≤ last) != s.negated

theorem has_single {c d : Char} : (single c).has d = true ↔ d = c := by
  have : (single c).has d = (decide (c ≤ d) && decide (d ≤ c)) := by simp [has, single]
  rw [this, Bool.and_eq_true, decide_eq_true_eq, decide_eq_true_eq]
  exact ⟨fun h => Char.le_antisymm h.2 h.1, fun h => h ▸ ⟨Char.le_refl _, Char.le_refl _⟩⟩

end CharSet

/-- A pattern. -/
inductive Expression where
  /-- The empty text. -/
  | nothing
  /-- One character of a set. -/
  | oneOf (s : CharSet)
  /-- The empty text at the beginning. -/
  | start
  /-- The empty text at the end. -/
  | stop
  /-- One pattern behind the other. -/
  | seq (a b : Expression)
  /-- Either pattern. -/
  | alt (a b : Expression)
  /-- The pattern any number of times, also none. -/
  | many (a : Expression)
deriving DecidableEq, Repr, Inhabited

namespace Expression

/-- A single given character. -/
def char (c : Char) : Expression := .oneOf (.single c)

/-- Patterns one behind the other. -/
def sequence (es : List Expression) : Expression := es.foldr .seq .nothing

/-- A given text. -/
def literal (s : String) : Expression := sequence (s.toList.map char)

/-- One mark per suffix. -/
abbrev Row := List Bool

/-- The marks of either row. -/
def Row.union (r s : Row) : Row := List.zipWith (· || ·) r s

/-- The suffixes that begin with a character of `s` before a marked one. -/
def Row.step (s : CharSet) : List Char → Row → Row
  | c :: cs, _ :: mark :: row => (s.has c && mark) :: Row.step s cs (mark :: row)
  | _, _ => [false]

/-- The suffixes that begin with any number of characters of `s` before a marked one. -/
def Row.onward (s : CharSet) : List Char → Row → Row
  | c :: cs, mark :: row =>
    let rest := Row.onward s cs row
    (mark || (s.has c && rest.headD false)) :: rest
  | _, row => row

/-- Only the mark of the whole text. -/
def Row.atStart : Row → Row
  | [] => []
  | mark :: row => mark :: row.map fun _ => false

/-- Only the mark of the empty suffix. -/
def Row.atStop : Row → Row
  | [] => []
  | [mark] => [mark]
  | _ :: row => false :: Row.atStop row

/-- `f` applied `n` times or until it changes nothing. -/
def saturate (f : Row → Row) : Nat → Row → Row
  | 0, row => row
  | n + 1, row => let next := f row; if next = row then row else saturate f n next

/-- The suffixes of `cs` that can be taken apart into a match and a suffix marked in `row`. -/
def rows (cs : List Char) : Expression → Row → Row
  | .nothing, row => row
  | .oneOf s, row => Row.step s cs row
  | .start, row => Row.atStart row
  | .stop, row => Row.atStop row
  | .seq a b, row => rows cs a (rows cs b row)
  | .alt a b, row => (rows cs a row).union (rows cs b row)
  | .many (.oneOf s), row => Row.onward s cs row
  | .many a, row => saturate (fun r => row.union (rows cs a r)) (cs.length + 1) row

/-- Is there a match anywhere in the text? -/
def occursIn (e : Expression) (cs : List Char) : Bool :=
  (rows cs e (List.replicate (cs.length + 1) true)).any id

end Expression

end RemoteIndex.Pattern
