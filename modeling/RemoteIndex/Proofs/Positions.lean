import Mathlib.Data.List.Nodup
import RemoteIndex.Script.Site

/-!
# The order of positions

Positions are in one line, and reading a text leads from each to a later one. Spans that mark
stretches of a text lie in it as these do. Sites that begin at different positions can be put into
the order of their beginnings in one way only.
-/

namespace RemoteIndex

namespace Position

variable {p q r : Position}

theorem atMost_iff :
    p.atMost q = true ↔ p.line < q.line ∨ p.line = q.line ∧ p.column ≤ q.column := by
  simp only [atMost, compare, bne_iff_ne, ne_eq, Ordering.then_eq_gt, Nat.compare_eq_gt,
    Nat.compare_eq_eq]
  omega

theorem le_iff : p ≤ q ↔ p.line < q.line ∨ p.line = q.line ∧ p.column ≤ q.column := Iff.rfl

theorem lt_iff : p < q ↔ p.line < q.line ∨ p.line = q.line ∧ p.column < q.column := Iff.rfl

theorem le_refl (p : Position) : p ≤ p := .inr ⟨rfl, Nat.le_refl _⟩

theorem le_trans (before : p ≤ q) (behind : q ≤ r) : p ≤ r := by
  rw [le_iff] at *
  omega

theorem le_of_lt (h : p < q) : p ≤ q := by
  rw [lt_iff] at h
  rw [le_iff]
  omega

theorem lt_of_lt_of_le (before : p < q) (behind : q ≤ r) : p < r := by
  rw [lt_iff] at *
  rw [le_iff] at behind
  omega

theorem lt_of_le_of_lt (before : p ≤ q) (behind : q < r) : p < r := by
  rw [le_iff] at before
  rw [lt_iff] at *
  omega

theorem not_lt_of_le (h : p ≤ q) : ¬ q < p := by
  rw [le_iff] at h
  rw [lt_iff]
  omega

theorem ne_of_lt (h : p < q) : p ≠ q := by
  rintro rfl
  exact not_lt_of_le (le_refl p) h

theorem le_antisymm (h : p ≤ q) (h' : q ≤ p) : p = q := by
  obtain ⟨line, column⟩ := p
  obtain ⟨line', column'⟩ := q
  rw [le_iff] at h h'
  dsimp only at h h'
  obtain rfl : line = line' := by omega
  obtain rfl : column = column' := by omega
  rfl

/-- Behind a character is behind its beginning. -/
theorem lt_advance (p : Position) (c : Char) : p < p.advance c := by
  rw [advance, lt_iff]
  split
  · exact .inl (Nat.lt_succ_self _)
  · exact .inr ⟨rfl, Nat.lt_add_of_pos_right c.utf8Size_pos⟩

theorem le_advanceBy (p : Position) (cs : List Char) : p ≤ p.advanceBy cs := by
  induction cs generalizing p with
  | nil => exact le_refl p
  | cons c cs ih => exact le_trans (le_of_lt (p.lt_advance c)) (ih _)

theorem lt_advanceBy {cs : List Char} (nonempty : cs ≠ []) (p : Position) :
    p < p.advanceBy cs := by
  cases cs with
  | nil => exact absurd rfl nonempty
  | cons c cs => exact lt_of_lt_of_le (p.lt_advance c) (le_advanceBy _ cs)

/-- Of two beginnings of a text, the one that leads no further is a beginning of the other. -/
theorem isPrefix_of_le {text cs ds : List Char} (first : cs <+: text) (second : ds <+: text)
    (h : origin.advanceBy cs ≤ origin.advanceBy ds) : cs <+: ds := by
  rcases List.prefix_or_prefix_of_prefix first second with short | ⟨more, rfl⟩
  · exact short
  · rw [advanceBy_append] at h
    by_cases nothing : more = []
    · simp [nothing]
    · exact absurd (lt_advanceBy nothing _) (not_lt_of_le h)

theorem le_of_isPrefix {cs ds : List Char} (h : cs <+: ds) (p : Position) :
    p.advanceBy cs ≤ p.advanceBy ds := by
  obtain ⟨more, rfl⟩ := h
  rw [advanceBy_append]
  exact le_advanceBy _ more

end Position

namespace Span

variable {a b c : Span} {text part : List Char}

/-- The span marks something. -/
def Proper (span : Span) : Prop := span.start < span.stop

/-- The span has ended where the other one begins. -/
def Precedes (a b : Span) : Prop := a.stop ≤ b.start

/-- The spans share nothing. -/
def Apart (a b : Span) : Prop := a.Precedes b ∨ b.Precedes a

/-- The span does not leave the other one. -/
def Within (inner outer : Span) : Prop := outer.start ≤ inner.start ∧ inner.stop ≤ outer.stop

theorem Apart.symm (h : a.Apart b) : b.Apart a := Or.symm h

theorem within_refl (a : Span) : a.Within a := ⟨Position.le_refl _, Position.le_refl _⟩

theorem Within.trans (h : a.Within b) (h' : b.Within c) : a.Within c :=
  ⟨Position.le_trans h'.1 h.1, Position.le_trans h.2 h'.2⟩

theorem Precedes.within {a' b' : Span} (h : a.Precedes b) (first : a'.Within a)
    (second : b'.Within b) : a'.Precedes b' :=
  Position.le_trans first.2 (Position.le_trans h second.1)

theorem Apart.within {a' b' : Span} (h : a.Apart b) (first : a'.Within a) (second : b'.Within b) :
    a'.Apart b' := by
  rcases h with before | behind
  · exact .inl (before.within first second)
  · exact .inr (behind.within second first)

/-- Of two spans that share nothing, the one that begins first precedes the other. -/
theorem Apart.precedes (h : a.Apart b) (proper : b.Proper) (order : a.start ≤ b.start) :
    a.Precedes b := by
  rcases h with before | behind
  · exact before
  · have back : b.start < b.start :=
      Position.lt_of_lt_of_le proper (Position.le_trans behind order)
    exact absurd back (Position.not_lt_of_le (Position.le_refl _))

/-- A proper span begins before one that it precedes. -/
theorem Precedes.start_lt (h : a.Precedes b) (proper : a.Proper) : a.start < b.start :=
  Position.lt_of_lt_of_le proper h

/-- The span marks `part`, a stretch of the text. -/
def Marks (span : Span) (text part : List Char) : Prop :=
  ∃ before after, text = before ++ part ++ after ∧ span.start = .advanceBy .origin before ∧
    span.stop = .advanceBy .origin (before ++ part)

theorem Marks.append (h : a.Marks text part) (more : List Char) : a.Marks (text ++ more) part := by
  obtain ⟨before, after, rfl, start, stop⟩ := h
  exact ⟨before, after ++ more, by simp, start, stop⟩

/-- A stretch of what a span marks is marked by a span in it. -/
theorem Marks.middle {before after : List Char} (h : a.Marks text (before ++ part ++ after)) :
    Marks ⟨a.start.advanceBy before, a.start.advanceBy (before ++ part)⟩ text part ∧
      Within ⟨a.start.advanceBy before, a.start.advanceBy (before ++ part)⟩ a := by
  obtain ⟨first, last, whole, start, stop⟩ := h
  simp only [start, ← Position.advanceBy_append]
  constructor
  · refine ⟨first ++ before, after ++ last, by simp [whole], rfl, ?_⟩
    rw [List.append_assoc]
  · constructor
    · rw [start]
      exact Position.le_of_isPrefix (List.prefix_append first before) _
    · rw [stop]
      exact Position.le_of_isPrefix ⟨after, by simp⟩ _

theorem Marks.stop_eq (h : a.Marks text part) : a.stop = a.start.advanceBy part := by
  obtain ⟨before, after, -, start, stop⟩ := h
  rw [start, stop, Position.advanceBy_append]

theorem Marks.proper (h : a.Marks text part) (nonempty : part ≠ []) : a.Proper := by
  rw [Proper, h.stop_eq]
  exact Position.lt_advanceBy nonempty _

end Span

namespace Site

/-- The site begins no later than the other one. -/
def startsBy (a b : Site) : Bool := a.span.start.atMost b.span.start

theorem startsBy_iff {a b : Site} : a.startsBy b = true ↔ a.span.start ≤ b.span.start :=
  Position.atMost_iff

/-- The sites begin one behind the other. -/
def Ascending (sites : List Site) : Prop :=
  sites.Pairwise fun a b => a.span.start < b.span.start

/-- Sites that begin one behind the other have no other order of their beginnings. -/
theorem Ascending.eq_of_perm {order sites : List Site} (h : Ascending sites)
    (all : order.Perm sites)
    (sorted : order.Pairwise fun a b => a.span.start ≤ b.span.start) : order = sites := by
  have starts : (sites.map fun s => s.span.start).Nodup :=
    List.pairwise_map.mpr (h.imp Position.ne_of_lt)
  refine all.eq_of_pairwise ?_ sorted (h.imp Position.le_of_lt)
  intro a b member member' ab ba
  exact List.inj_on_of_nodup_map starts (all.mem_iff.mp member) member'
    (Position.le_antisymm ab ba)

theorem pairwise_mergeSort_startsBy (sites : List Site) :
    (sites.mergeSort startsBy).Pairwise fun a b => a.span.start ≤ b.span.start := by
  have transitive (a b c : Site) (ab : a.startsBy b = true) (bc : b.startsBy c = true) :
      a.startsBy c = true := by
    rw [startsBy_iff] at *
    exact Position.le_trans ab bc
  have total (a b : Site) : (a.startsBy b || b.startsBy a) = true := by
    rw [Bool.or_eq_true, startsBy_iff, startsBy_iff, Position.le_iff, Position.le_iff]
    omega
  exact (List.pairwise_mergeSort transitive total sites).imp startsBy_iff.mp

/-- Sorting puts sites into the one order that their beginnings have. -/
theorem Ascending.mergeSort_eq {found sites : List Site} (h : Ascending sites)
    (all : found.Perm sites) : found.mergeSort startsBy = sites :=
  h.eq_of_perm ((List.mergeSort_perm found startsBy).trans all)
    (pairwise_mergeSort_startsBy found)

end Site

end RemoteIndex
