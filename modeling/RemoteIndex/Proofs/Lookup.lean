import RemoteIndex.FileTree

/-!
# Looking up paths

`FileTree.locate` counts the links on the way of a path and gives up at too many of them. Where it
does not give up, the place it finds is the one that the path leads to (`FileTree.Leads`), of which
there is at most one. A name at the end of a path is looked up where the path before it leads.
-/

namespace RemoteIndex

namespace Path

theorem split_ne_nil (bs : List UInt8) : split bs ≠ [] := by
  cases bs with
  | nil => simp [split]
  | cons b bs =>
    rw [split]
    split
    · simp
    · split <;> simp

theorem split_append_slash (bs cs : List UInt8) :
    split (bs ++ slash :: cs) = split bs ++ split cs := by
  induction bs with
  | nil => simp [split]
  | cons b bs ih =>
    rw [List.cons_append, split, split, ih]
    split
    · rfl
    · cases pieces : split bs with
      | nil => exact absurd pieces (split_ne_nil bs)
      | cons n ns => rfl

theorem split_of_not_mem {n : Name} (h : slash ∉ n) : split n = [n] := by
  induction n with
  | nil => rfl
  | cons b bs ih =>
    rw [List.mem_cons, not_or] at h
    rw [split, if_neg (Ne.symm h.1), ih h.2]

theorem not_isAbsolute_of_notMem {n : Name} (h : slash ∉ n) : (⟨n⟩ : Path).isAbsolute = false := by
  cases n with
  | nil => rfl
  | cons b bs =>
    have other : b ≠ slash := fun same => h (same ▸ List.mem_cons_self)
    simp [isAbsolute, other]

theorem not_isAbsolute_of_proper {n : Name} (h : n.Proper) :
    (⟨n⟩ : Path).isAbsolute = false := not_isAbsolute_of_notMem h.undivided

theorem endsInSlash_eq_true {p : Path} :
    p.endsInSlash = true ↔ ∃ bs, p.bytes = bs ++ [slash] := by
  rw [endsInSlash, beq_iff_eq, List.getLast?_eq_some_iff]

theorem endsInSlash_append (bs : List UInt8) {n : Name} (nonempty : n ≠ [])
    (undivided : slash ∉ n) : (⟨bs ++ n⟩ : Path).endsInSlash = false := by
  rw [Bool.eq_false_iff]
  intro ends
  obtain ⟨cs, bytes⟩ := endsInSlash_eq_true.mp ends
  rcases List.eq_nil_or_concat n with rfl | ⟨init, last, rfl⟩
  · exact nonempty rfl
  · rw [List.concat_eq_append, ← List.append_assoc] at bytes
    obtain rfl : last = slash := by simpa using (List.append_inj' bytes rfl).2
    exact undivided (by simp)

/-- A relative path behind a path, with just one slash between them. -/
theorem bytes_join_of_relative {p q : Path} (given : p.bytes ≠ []) (relative : q.isAbsolute = false) :
    ∃ bs, (p.join q).bytes = bs ++ slash :: q.bytes ∧
      (p.bytes = bs ++ [slash] ∧ p.endsInSlash = true ∨ p.bytes = bs ∧ p.endsInSlash = false) := by
  rw [join, relative, if_neg (by simp)]
  cases ends : p.endsInSlash with
  | true =>
    obtain ⟨bs, bytes⟩ := endsInSlash_eq_true.mp ends
    exact ⟨bs, by simp [bytes], .inl ⟨bytes, rfl⟩⟩
  | false => exact ⟨p.bytes, by simp [given], .inr ⟨rfl, rfl⟩⟩

/-- A proper name behind a path, with just one slash between them. -/
theorem bytes_join {p : Path} {n : Name} (given : p.bytes ≠ []) (h : n.Proper) :
    ∃ bs, (p.join ⟨n⟩).bytes = bs ++ slash :: n ∧
      (p.bytes = bs ++ [slash] ∧ p.endsInSlash = true ∨ p.bytes = bs ∧ p.endsInSlash = false) :=
  bytes_join_of_relative given (not_isAbsolute_of_proper h)

theorem endsInSlash_join {p : Path} {n : Name} (given : p.bytes ≠ []) (h : n.Proper) :
    (p.join ⟨n⟩).endsInSlash = false := by
  obtain ⟨bs, joined, -⟩ := bytes_join given h
  have whole : p.join ⟨n⟩ = ⟨bs ++ [slash] ++ n⟩ := by
    rw [List.append_assoc]
    exact congrArg Path.mk joined
  rw [whole]
  exact endsInSlash_append _ h.nonempty h.undivided

theorem isAbsolute_join {p : Path} {n : Name} (given : p.bytes ≠ []) (h : n.Proper) :
    (p.join ⟨n⟩).isAbsolute = p.isAbsolute := by
  obtain ⟨bs, joined, ⟨bytes, -⟩ | ⟨bytes, -⟩⟩ := bytes_join given h
  · rw [isAbsolute, isAbsolute, joined, bytes]
    cases bs <;> rfl
  · rw [isAbsolute, isAbsolute, joined, bytes]
    cases bs with
    | nil => exact absurd bytes given
    | cons b bs => rfl

theorem bytes_join_ne_nil {p : Path} {n : Name} (given : p.bytes ≠ []) (h : n.Proper) :
    (p.join ⟨n⟩).bytes ≠ [] := by
  obtain ⟨bs, joined, -⟩ := bytes_join given h
  simp [joined]

theorem zero_notMem_join {p : Path} {n : Name} (given : p.bytes ≠ []) (h : n.Proper)
    (clean : 0 ∉ p.bytes) : 0 ∉ (p.join ⟨n⟩).bytes := by
  obtain ⟨bs, joined, ⟨bytes, -⟩ | ⟨bytes, -⟩⟩ := bytes_join given h
  · rw [bytes, List.mem_append, not_or] at clean
    have slash : (0 : UInt8) ≠ Path.slash := by decide
    simp [joined, clean.1, slash, h.unbroken]
  · rw [bytes] at clean
    have slash : (0 : UInt8) ≠ Path.slash := by decide
    simp [joined, clean, slash, h.unbroken]

end Path

namespace FileTree

open RemoteIndex.Path

theorem ofName_proper {n : Name} (h : n.Proper) : Step.ofName n = .down n := by
  rw [Step.ofName, if_neg h.not_here, if_neg h.not_up]

/-- A proper name at the end of a path is one more step. -/
theorem nameSteps_join {p : Path} {n : Name} (given : p.bytes ≠ []) (h : n.Proper) :
    nameSteps (p.join ⟨n⟩) = nameSteps p ++ [.down n] := by
  obtain ⟨bs, joined, ⟨bytes, -⟩ | ⟨bytes, -⟩⟩ := bytes_join given h
  · simp [nameSteps, joined, bytes, split_append_slash, split_of_not_mem h.undivided, h.nonempty,
      ofName_proper h, split]
  · simp [nameSteps, joined, bytes, split_append_slash, split_of_not_mem h.undivided, h.nonempty,
      ofName_proper h]

theorem steps_join {p : Path} {n : Name} (given : p.bytes ≠ []) (h : n.Proper) :
    steps (p.join ⟨n⟩) = nameSteps p ++ [.down n] := by
  rw [steps, endsInSlash_join given h, nameSteps_join given h]
  simp

/-! ## Where steps lead -/

/-- The steps lead from `here` to `there`, with at most so many links on the way. -/
inductive Leads (t : FileTree) : Nat → Place → List Step → Place → Prop
  | done (links : Nat) (here : Place) : Leads t links here [] here
  | step {links : Nat} {here next there : Place} {s : Step} {rest : List Step} :
      t.land here s = .ok (.place next) → Leads t links next rest there →
      Leads t links here (s :: rest) there
  | link {links : Nat} {here there : Place} {s : Step} {rest : List Step} {target : Path} :
      t.land here s = .ok (.link target) → target.bytes ≠ [] →
      Leads t links (if target.isAbsolute then [] else here) (steps target ++ rest) there →
      Leads t (links + 1) here (s :: rest) there

variable {t : FileTree} {links : Nat} {here there : Place}

/-- However many links may be followed, there is one place that the steps lead to. -/
theorem Leads.unique {ss : List Step} {other : Place} {others : Nat}
    (h : t.Leads links here ss there) (h' : t.Leads others here ss other) : there = other := by
  induction h generalizing others with
  | done =>
    cases h'
    rfl
  | step lands _ ih =>
    cases h' with
    | step lands' rest =>
      obtain rfl : _ = _ := by simpa [lands] using lands'
      exact ih rest
    | link lands' _ _ => exact absurd (lands.symm.trans lands') (by simp)
  | link lands _ _ ih =>
    cases h' with
    | step lands' _ => exact absurd (lands.symm.trans lands') (by simp)
    | link lands' _ rest =>
      obtain rfl : _ = _ := by simpa [lands] using lands'
      exact ih rest

theorem Leads.succ {ss : List Step} (h : t.Leads links here ss there) :
    t.Leads (links + 1) here ss there := by
  induction h with
  | done links here => exact .done (links + 1) here
  | step lands _ ih => exact .step lands ih
  | link lands nonempty _ ih => exact .link lands nonempty ih

/-- A step behind the others, to something that is no link, needs no further link. -/
theorem Leads.concat {ss : List Step} {s : Step} {next : Place}
    (h : t.Leads links here ss there) (lands : t.land there s = .ok (.place next)) :
    t.Leads links here (ss ++ [s]) next := by
  induction h with
  | done links here => exact .step lands (.done links next)
  | step first _ ih => exact .step first (ih lands)
  | link first nonempty _ ih => exact .link first nonempty (by simpa using ih lands)

theorem Leads.split {ss rest : List Step} (h : t.Leads links here (ss ++ rest) there) :
    ∃ middle, t.Leads links here ss middle ∧ t.Leads links middle rest there := by
  generalize whole : ss ++ rest = all at h
  induction h generalizing ss with
  | done links here =>
    obtain ⟨rfl, rfl⟩ := List.append_eq_nil_iff.mp whole
    exact ⟨here, .done links here, .done links here⟩
  | @step links here next there s all lands leads ih =>
    cases ss with
    | nil =>
      rw [List.nil_append] at whole
      exact ⟨here, .done links here, whole ▸ .step lands leads⟩
    | cons first ss =>
      obtain ⟨rfl, behind⟩ := List.cons.inj whole
      obtain ⟨middle, front, back⟩ := ih behind
      exact ⟨middle, .step lands front, back⟩
  | @link links here there s all target lands nonempty leads ih =>
    cases ss with
    | nil =>
      rw [List.nil_append] at whole
      exact ⟨here, .done (links + 1) here, whole ▸ .link lands nonempty leads⟩
    | cons first ss =>
      obtain ⟨rfl, behind⟩ := List.cons.inj whole
      have along : steps target ++ ss ++ rest = steps target ++ all := by simp [← behind]
      obtain ⟨middle, front, back⟩ := ih along
      exact ⟨middle, .link lands nonempty front, back.succ⟩

/-- What a step down comes to, by what the directory has under the name. -/
def Landing.ofNode (p : Place) : Node → Landing
  | .link target => .link target
  | _ => .place p

/-- A step down succeeds in a directory that may be passed and that has the name. -/
theorem land_down {n : Name} {landing : Landing} :
    t.land here (.down n) = .ok landing ↔
      t.node? here = some (.directory true) ∧ n.length ≤ Name.maxLength ∧
        ∃ node, t.node? (here ++ [n]) = some node ∧ landing = .ofNode (here ++ [n]) node := by
  rw [land]
  cases at_here : t.node? here with
  | none => simp
  | some node =>
    cases node with
    | file bytes accessible => simp
    | link target => simp
    | directory accessible =>
      cases accessible with
      | false => simp
      | true =>
        by_cases long : Name.maxLength < n.length
        · simp [long, Nat.not_le_of_lt long]
        · cases below : t.node? (here ++ [n]) with
          | none => simp [long]
          | some node =>
            have short := Nat.le_of_not_lt long
            cases node <;> simp [long, short, Landing.ofNode, eq_comm]

theorem land_arrive {landing : Landing} (h : t.land here .arrive = .ok landing) :
    landing = .place here := by
  rw [land] at h
  split at h
  · simpa using h.symm
  · exact absurd h (by simp)

/-! ## Looking up with a limit on links -/

/-- Where a lookup goes on behind a link, with so many links left. -/
def jump (t : FileTree) : Nat → Place → Path → List Step → Except FileError Place
  | 0, _, _, _ => .error .tooManyLinks
  | links + 1, here, target, rest =>
    if target.bytes.isEmpty then .error .missing
    else t.resolve links (if target.isAbsolute then [] else here) (steps target ++ rest)

theorem resolve_eq_follow (t : FileTree) (links : Nat) :
    t.resolve links = t.follow (t.jump links) := by
  cases links with
  | zero => rfl
  | succ links => rfl

theorem resolve_nil (t : FileTree) (links : Nat) (here : Place) :
    t.resolve links here [] = .ok here := by
  rw [resolve_eq_follow, follow]

theorem resolve_cons_place {s : Step} {rest : List Step} {next : Place}
    (h : t.land here s = .ok (.place next)) :
    t.resolve links here (s :: rest) = t.resolve links next rest := by
  rw [resolve_eq_follow, follow, h]

theorem resolve_cons_link {s : Step} {rest : List Step} {target : Path}
    (h : t.land here s = .ok (.link target)) :
    t.resolve links here (s :: rest) = t.jump links here target rest := by
  rw [resolve_eq_follow, follow, h]

theorem resolve_cons_error {s : Step} {rest : List Step} {cause : FileError}
    (h : t.land here s = .error cause) : t.resolve links here (s :: rest) = .error cause := by
  rw [resolve_eq_follow, follow, h]

/-- Induction on the links that are left and, for each number of them, on the steps. -/
theorem leads_of_resolve {ss : List Step} (h : t.resolve links here ss = .ok there) :
    t.Leads links here ss there := by
  induction links generalizing here ss with
  | zero =>
    induction ss generalizing here with
    | nil =>
      obtain rfl : here = there := by simpa [resolve_nil] using h
      exact .done 0 here
    | cons s rest ih =>
      cases lands : t.land here s with
      | error cause => exact absurd (resolve_cons_error lands ▸ h) (by simp)
      | ok landing =>
        cases landing with
        | place next => exact .step lands (ih (resolve_cons_place lands ▸ h))
        | link target => exact absurd (resolve_cons_link lands ▸ h) (by simp [jump])
  | succ links outer =>
    induction ss generalizing here with
    | nil =>
      obtain rfl : here = there := by simpa [resolve_nil] using h
      exact .done (links + 1) here
    | cons s rest ih =>
      cases lands : t.land here s with
      | error cause => exact absurd (resolve_cons_error lands ▸ h) (by simp)
      | ok landing =>
        cases landing with
        | place next => exact .step lands (ih (resolve_cons_place lands ▸ h))
        | link target =>
          rw [resolve_cons_link lands, jump] at h
          split at h
          · exact absurd h (by simp)
          · next full => exact .link lands (by simpa using full) (outer h)

theorem resolve_of_leads {ss : List Step} (h : t.Leads links here ss there) :
    t.resolve links here ss = .ok there := by
  induction h with
  | done links here => exact resolve_nil t links here
  | step lands _ ih => rw [resolve_cons_place lands, ih]
  | link lands nonempty _ ih =>
    rw [resolve_cons_link lands, jump, if_neg (by simpa using nonempty), ih]

/-! ## Looking up paths -/

/-- Where the way of a path begins. -/
def origin (cwd : Place) (p : Path) : Place := if p.isAbsolute then [] else cwd

/-- The path leads to a place from the working directory `cwd`. -/
def LeadsTo (t : FileTree) (cwd : Place) (p : Path) (there : Place) : Prop :=
  t.Leads maxLinks (origin cwd p) (steps p) there

/-- A path is looked up where it leads, if it is written as a path can be. -/
theorem locate_eq_ok {cwd : Place} {p : Path} :
    t.locate cwd p = .ok there ↔
      0 ∉ p.bytes ∧ p.bytes ≠ [] ∧ p.bytes.length ≤ maxPath ∧ t.LeadsTo cwd p there := by
  rw [locate]
  by_cases zero : 0 ∈ p.bytes
  · simp [zero]
  · by_cases empty : p.bytes = []
    · simp [empty]
    · by_cases long : maxPath < p.bytes.length
      · simp [zero, empty, long, Nat.not_le_of_lt long]
      · simp only [zero, empty, long, List.contains_iff_mem, List.isEmpty_iff, if_false]
        simp only [not_false_eq_true, true_and, ne_eq, Nat.le_of_not_lt long]
        exact ⟨fun found => ⟨empty, leads_of_resolve found⟩, fun h => resolve_of_leads h.2⟩

variable {cwd : Place} {p : Path} {n : Name}

/-- The names of a path alone lead to where it leads. -/
theorem LeadsTo.names (h : t.LeadsTo cwd p there) :
    t.Leads maxLinks (origin cwd p) (nameSteps p) there := by
  rw [LeadsTo, steps] at h
  split at h
  · obtain ⟨middle, front, back⟩ := h.split
    cases back with
    | step lands rest =>
      cases rest
      obtain rfl : there = middle := by simpa using land_arrive lands
      exact front
    | link lands _ _ => exact absurd (land_arrive lands) (by simp)
  · simpa using h

theorem origin_join (given : p.bytes ≠ []) (proper : n.Proper) :
    origin cwd (p.join ⟨n⟩) = origin cwd p := by
  rw [origin, origin, isAbsolute_join given proper]

theorem LeadsTo.join (given : p.bytes ≠ []) (proper : n.Proper) (before : t.LeadsTo cwd p here)
    (lands : t.land here (.down n) = .ok (.place there)) : t.LeadsTo cwd (p.join ⟨n⟩) there := by
  rw [LeadsTo, origin_join given proper, steps_join given proper]
  exact before.names.concat lands

/-- A name at the end of a path is looked up where the path before it leads. -/
theorem LeadsTo.of_join (given : p.bytes ≠ []) (proper : n.Proper)
    (before : t.LeadsTo cwd p here) (h : t.LeadsTo cwd (p.join ⟨n⟩) there) :
    t.Leads maxLinks here [.down n] there := by
  rw [LeadsTo, origin_join given proper, steps_join given proper] at h
  obtain ⟨middle, front, back⟩ := h.split
  obtain rfl := front.unique before.names
  exact back

theorem leadsTo_of_locate (h : t.locate cwd p = .ok there) : t.LeadsTo cwd p there :=
  (locate_eq_ok.mp h).2.2.2

theorem LeadsTo.eq_of_locate {other : Place} (h : t.LeadsTo cwd p there)
    (found : t.locate cwd p = .ok other) : there = other :=
  h.unique (leadsTo_of_locate found)

/-- Behind a directory on the way of a path is what the directory has under the next name: the
entry itself, unless it is a link. -/
theorem entry_of_leadsTo_join (proper : n.Proper) (before : t.locate cwd p = .ok here)
    (h : t.LeadsTo cwd (p.join ⟨n⟩) there) :
    ∃ node, t.node? (here ++ [n]) = some node ∧
      ((∃ target, node = .link target) ∨ there = here ++ [n]) := by
  obtain ⟨-, given, -, front⟩ := locate_eq_ok.mp before
  cases front.of_join given proper h with
  | step lands rest =>
    cases rest
    obtain ⟨-, -, node, found, landing⟩ := land_down.mp lands
    refine ⟨node, found, .inr ?_⟩
    cases node with
    | link target => exact absurd landing (by simp [Landing.ofNode])
    | file bytes accessible => simpa [Landing.ofNode] using landing
    | directory accessible => simpa [Landing.ofNode] using landing
  | link lands _ _ =>
    obtain ⟨-, -, node, found, landing⟩ := land_down.mp lands
    refine ⟨node, found, .inl ?_⟩
    cases node with
    | link target => exact ⟨target, rfl⟩
    | file bytes accessible => exact absurd landing (by simp [Landing.ofNode])
    | directory accessible => exact absurd landing (by simp [Landing.ofNode])

/-- An entry of a directory that may be passed, if it is no link, is where its path leads. -/
theorem leadsTo_join_entry {node : Node} (proper : n.Proper) (before : t.locate cwd p = .ok here)
    (passable : t.node? here = some (.directory true)) (found : t.node? (here ++ [n]) = some node)
    (plain : ∀ target, node ≠ .link target) : t.LeadsTo cwd (p.join ⟨n⟩) (here ++ [n]) := by
  obtain ⟨-, given, -, front⟩ := locate_eq_ok.mp before
  refine front.join given proper (land_down.mpr ⟨passable, proper.short, node, found, ?_⟩)
  cases node with
  | link target => exact absurd rfl (plain target)
  | file bytes accessible => rfl
  | directory accessible => rfl

/-- A name behind a path that can be looked up is found where it leads, unless the path has become
too long. -/
theorem LeadsTo.locate_join (h : t.LeadsTo cwd (p.join ⟨n⟩) there) (proper : n.Proper)
    (before : t.locate cwd p = .ok here) (short : (p.join ⟨n⟩).bytes.length ≤ maxPath) :
    t.locate cwd (p.join ⟨n⟩) = .ok there := by
  obtain ⟨clean, given, -, -⟩ := locate_eq_ok.mp before
  exact locate_eq_ok.mpr
    ⟨zero_notMem_join given proper clean, bytes_join_ne_nil given proper, short, h⟩

theorem locate_of_read {bytes : List UInt8}
    (h : t.read cwd p = .ok bytes) : ∃ place, t.locate cwd p = .ok place := by
  cases located : t.locate cwd p with
  | ok place => exact ⟨place, rfl⟩
  | error cause =>
    rw [read, stat, located] at h
    exact absurd h (by simp [bind, Except.bind])

theorem list_eq_ok {children : List Name} :
    t.list cwd p = .ok children ↔
      ∃ here, t.locate cwd p = .ok here ∧ t.node? here = some (.directory true) ∧
        children = t.names here := by
  rw [list]
  cases found : t.locate cwd p with
  | error cause => simp [bind, Except.bind]
  | ok here =>
    simp only [bind, Except.bind]
    split
    · next listable => simp [listable, eq_comm]
    · next closed => simp [closed]
    · next other _ =>
      constructor
      · intro impossible
        exact absurd impossible (by simp)
      · rintro ⟨there, same, listable, -⟩
        obtain rfl : here = there := by simpa using same
        exact absurd listable other

end FileTree

end RemoteIndex
