import RemoteIndex.Script.Literal

/-!
# Comments in string literals

The line comments that stand in the inside of a literal stand there one behind the other. The
invariant that carries this along the inside tells which slash a comment may begin with: the one
that has just been read, or one that is still to come.
-/

namespace RemoteIndex.Script

namespace Passage

variable {p q : Passage} {c : Char} {before cs : List Char} {found : List Char × List Char}

/-! ## Slashes -/

/-- What has led to the middle of white space and a slash is a slash. -/
theorem eq_of_next_slash (h : p.next c = some .slash) : c = '/' := by
  rw [next] at h
  split at h
  · split at h <;> grind
  · split at h <;> grind
  · by_cases slash : c = '/'
    · exact slash
    · grind
  · grind
  · grind
  · split at h <;> grind

/-- Behind a slash it is another one that begins a line comment. -/
theorem eq_of_next_lineComment (h : slash.next c = some .lineComment) : c = '/' := by
  by_cases slash : c = '/'
  · exact slash
  · simp [next, settle, slash] at h

/-- A line comment goes on up to the end of its line. -/
theorem next_lineComment (inLine : endsLine c = false) : lineComment.next c = some .lineComment := by
  simp [next, settle, inLine]

/-- The passage is one behind a slash only if a slash has just been read. -/
def Follows (p : Passage) (before : List Char) : Prop := p = .slash → before.head? = some '/'

theorem follows_of_ne (h : p ≠ .slash) : p.Follows before := fun slash => absurd slash h

theorem follows_next (h : p.next c = some q) : q.Follows (c :: before) := by
  rintro rfl
  rw [eq_of_next_slash h, List.head?_cons]

/-! ## Where comments stand -/

/-- What stands before the next comment at the least: in a passage behind a slash, the comment may
begin with that slash. -/
def passed (p : Passage) (before : List Char) : List Char :=
  if p = .slash then before.tail.reverse else before.reverse

theorem passed_isPrefix (p : Passage) (before : List Char) :
    p.passed before <+: before.reverse := by
  rw [passed]
  split
  · cases before with
    | nil => exact List.prefix_refl _
    | cons c before =>
      rw [List.tail_cons, List.reverse_cons]
      exact List.prefix_append _ _
  · exact List.prefix_refl _

theorem passed_next (p q : Passage) (c : Char) (before : List Char) :
    p.passed before <+: q.passed (c :: before) := by
  refine (p.passed_isPrefix before).trans ?_
  rw [passed]
  split
  · exact List.prefix_refl _
  · rw [List.reverse_cons]
    exact List.prefix_append _ _

/-- A comment that is found stands in the rest of the inside, begins with two slashes and does not
leave its line. -/
structure Stands (p : Passage) (before cs : List Char) (found : List Char × List Char) : Prop where
  passed : p.passed before <+: found.1
  inside : found.1 ++ found.2 <+: before.reverse ++ cs
  comment : ∃ rest, found.2 = '/' :: '/' :: rest ∧ ∀ c ∈ rest, endsLine c = false

theorem stands_of_mem_commentsFrom (follows : p.Follows before)
    (h : found ∈ p.commentsFrom before cs) : p.Stands before cs found := by
  induction cs generalizing p before with
  | nil => exact absurd h List.not_mem_nil
  | cons c cs ih =>
    rw [commentsFrom] at h
    cases goesOn : p.next c with
    | none => exact absurd (goesOn ▸ h) List.not_mem_nil
    | some q =>
      have later (h : found ∈ q.commentsFrom (c :: before) cs) : p.Stands before (c :: cs) found := by
        obtain ⟨passed, inside, comment⟩ := ih (follows_next goesOn) h
        refine ⟨(passed_next p q c before).trans passed, ?_, comment⟩
        simpa using inside
      simp only [goesOn] at h
      split at h
      · next begins =>
        rcases List.mem_cons.mp h with rfl | h
        · obtain ⟨rfl, rfl⟩ := begins
          obtain rfl := eq_of_next_lineComment goesOn
          obtain ⟨rest, rfl⟩ := List.head?_eq_some_iff.mp (follows rfl)
          refine ⟨List.prefix_refl _, ⟨cs.dropWhile (!endsLine ·), ?_⟩, _, rfl, ?_⟩
          · simp [List.append_assoc]
          · intro c member
            simpa using List.all_eq_true.mp List.all_takeWhile c member
        · exact later h
      · exact later h

/-- Behind a line comment the next one begins behind its end. -/
theorem isPrefix_of_mem_commentsFrom_lineComment
    (h : found ∈ lineComment.commentsFrom before cs) :
    before.reverse ++ cs.takeWhile (!endsLine ·) <+: found.1 := by
  induction cs generalizing before with
  | nil => exact absurd h List.not_mem_nil
  | cons c cs ih =>
    cases ends : endsLine c with
    | true =>
      have passed := (stands_of_mem_commentsFrom (follows_of_ne (by decide)) h).passed
      simpa [ends, Passage.passed] using passed
    | false =>
      rw [commentsFrom, next_lineComment ends] at h
      have behind := ih (by simpa using h)
      simpa [ends] using behind

/-- Each comment has ended where the next one begins. -/
theorem pairwise_commentsFrom (follows : p.Follows before) :
    (p.commentsFrom before cs).Pairwise fun a b => a.1 ++ a.2 <+: b.1 := by
  induction cs generalizing p before with
  | nil => exact .nil
  | cons c cs ih =>
    rw [commentsFrom]
    cases goesOn : p.next c with
    | none => exact .nil
    | some q =>
      have follows' : q.Follows (c :: before) := follows_next goesOn
      have later := ih follows'
      dsimp only
      split
      · next begins =>
        obtain ⟨rfl, rfl⟩ := begins
        obtain rfl := eq_of_next_lineComment goesOn
        obtain ⟨rest, rfl⟩ := List.head?_eq_some_iff.mp (follows rfl)
        refine .cons (fun found member => ?_) later
        have behind := isPrefix_of_mem_commentsFrom_lineComment member
        simpa using behind
      · exact later

end Passage

/-- The comments of a literal stand in its inside, one behind the other. -/
theorem of_mem_commentsIn {inside : List Char} {found : List Char × List Char}
    (h : found ∈ commentsIn inside) : found.1 ++ found.2 <+: inside ∧
      ∃ rest, found.2 = '/' :: '/' :: rest ∧ ∀ c ∈ rest, endsLine c = false := by
  obtain ⟨-, stands, comment⟩ :=
    Passage.stands_of_mem_commentsFrom (Passage.follows_of_ne (by decide)) h
  exact ⟨stands, comment⟩

theorem pairwise_commentsIn (inside : List Char) :
    (commentsIn inside).Pairwise fun a b => a.1 ++ a.2 <+: b.1 :=
  Passage.pairwise_commentsFrom (Passage.follows_of_ne (by decide))

end RemoteIndex.Script
