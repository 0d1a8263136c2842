import Mathlib.Data.List.Perm.Subperm
import RemoteIndex.Proofs.Lookup
import RemoteIndex.Walk

/-!
# Trails

A trail is what a walk has come by: the directories it is inside of, the innermost first. Every
item of a walk is met in the innermost directory of a trail, and whatever is met there is an item,
because no trail is longer than the levels that a walk has at its disposal.
-/

namespace RemoteIndex.Walk

variable {w : Walk} {here station : Station} {trail : List Station} {n : Name} {item : Item}

theorem pathOf_concat (w : Walk) (names : List Name) (n : Name) :
    w.pathOf (names ++ [n]) = (w.pathOf names).join ⟨n⟩ := by
  rw [pathOf, Path.extend, List.foldl_concat]
  rfl

/-! ## Moves -/

/-- The entry `n` of a directory, links followed, is at the place, and no link to it leaves the
root. -/
inductive Admits (w : Walk) (here : Station) (n : Name) : Place → Prop
  | entry {node : Node} : w.tree.node? (here.place ++ [n]) = some node →
      (∀ target, node ≠ .link target) → w.Admits here n (here.place ++ [n])
  | link {target : Path} {place : Place} :
      w.tree.node? (here.place ++ [n]) = some (.link target) →
      w.tree.locate w.cwd (w.pathOf (here.names ++ [n])) = .ok place →
      w.boundary <+: place → w.Admits here n place

/-- A link to a directory is followed only if that can be listed and the walk is not inside of
it. -/
def Fresh (w : Walk) (here : Station) (trail : List Station) (n : Name) (place : Place) : Prop :=
  ∀ target, w.tree.node? (here.place ++ [n]) = some (.link target) →
    w.tree.node? place = some (.directory true) ∧ ∀ s ∈ here :: trail, s.place ≠ place

theorem not_admits_of_none {place : Place} (h : w.tree.node? (here.place ++ [n]) = none) :
    ¬w.Admits here n place := by
  intro admits
  cases admits with
  | entry found _ => exact absurd (h.symm.trans found) (by simp)
  | link found _ _ => exact absurd (h.symm.trans found) (by simp)

theorem admits_of_entry {node : Node} {place : Place}
    (h : w.tree.node? (here.place ++ [n]) = some node) (plain : ∀ target, node ≠ .link target) :
    w.Admits here n place ↔ place = here.place ++ [n] := by
  constructor
  · intro admits
    cases admits with
    | entry _ _ => rfl
    | link found _ _ => exact absurd (Option.some.inj (h.symm.trans found)) (plain _)
  · rintro rfl
    exact .entry h plain

theorem admits_of_link {target : Path} {place : Place}
    (h : w.tree.node? (here.place ++ [n]) = some (.link target)) :
    w.Admits here n place ↔
      w.tree.locate w.cwd (w.pathOf (here.names ++ [n])) = .ok place ∧ w.boundary <+: place := by
  constructor
  · intro admits
    cases admits with
    | entry found plain => exact absurd (Option.some.inj (found.symm.trans h)) (plain _)
    | link _ located inside => exact ⟨located, inside⟩
  · rintro ⟨located, inside⟩
    exact .link h located inside

theorem Admits.isSome {place : Place} (h : w.Admits here n place) :
    (w.tree.node? (here.place ++ [n])).isSome := by
  cases h with
  | entry found _ => simp [found]
  | link found _ _ => simp [found]

/-- What is admitted inside the root does not lead out of it. -/
theorem Admits.inside {place : Place} (h : w.Admits here n place)
    (before : w.boundary <+: here.place) : w.boundary <+: place := by
  cases h with
  | entry _ _ => exact before.trans (List.prefix_append _ _)
  | link _ _ inside => exact inside

theorem fresh_of_entry {node : Node} (h : w.tree.node? (here.place ++ [n]) = some node)
    (plain : ∀ target, node ≠ .link target) (trail : List Station) (place : Place) :
    w.Fresh here trail n place := by
  intro target found
  exact absurd (Option.some.inj (h.symm.trans found)) (plain target)

theorem fresh_of_link {target : Path} {place : Place}
    (h : w.tree.node? (here.place ++ [n]) = some (.link target)) :
    w.Fresh here trail n place ↔
      w.tree.node? place = some (.directory true) ∧ ∀ s ∈ here :: trail, s.place ≠ place :=
  ⟨fun fresh => fresh target h, fun fresh _ _ => fresh⟩

theorem not_prunes_of_shows {f : WalkFilter} (h : f.shows n = true) : f.prunes n = false := by
  rw [WalkFilter.shows, Option.any_eq_true] at h
  obtain ⟨text, read, included⟩ := h
  rw [WalkFilter.isIncludedFile, Bool.and_eq_true, Bool.not_eq_true'] at included
  rw [WalkFilter.prunes, read]
  exact included.1

theorem moveAtFile_eq_give {names : List Name} :
    w.moveAtFile names n = .give item ↔ w.filter.shows n = true ∧ item = .file names := by
  rw [moveAtFile]
  cases shows : w.filter.shows n with
  | false => simp
  | true => simp [not_prunes_of_shows shows, eq_comm]

theorem moveAtFile_ne_descend (w : Walk) (names : List Name) (n : Name) (station : Station) :
    w.moveAtFile names n ≠ .descend station := by
  rw [moveAtFile]
  split
  · simp
  · split <;> simp

theorem moveAtLink_eq_descend {names : List Name} {target : Place} :
    w.moveAtLink trail names n target = .descend station ↔
      w.filter.prunes n = false ∧ station = ⟨target, names⟩ ∧ w.boundary <+: target ∧
        w.tree.node? target = some (.directory true) ∧ ∀ s ∈ trail, s.place ≠ target := by
  rw [moveAtLink]
  split
  · next closed => simp [closed]
  · next directory =>
    simp only [directory, true_and]
    split
    · next ancestor found =>
      have around := List.mem_of_find?_eq_some found
      have same : ancestor.place = target := by simpa using List.find?_some found
      constructor
      · intro h
        exact absurd h (by simp)
      · rintro ⟨-, -, -, fresh⟩
        exact absurd same (fresh ancestor around)
    · next fresh =>
      rw [List.find?_eq_none] at fresh
      simp only [decide_eq_true_eq] at fresh
      split
      · next open_ =>
        rw [Bool.and_eq_true, List.isPrefixOf_iff_prefix, Bool.not_eq_true'] at open_
        simp only [open_, true_and, Move.descend.injEq, eq_comm (a := station)]
        exact ⟨fun same => ⟨same, fresh⟩, And.left⟩
      · next blocked =>
        rw [Bool.and_eq_true, List.isPrefixOf_iff_prefix, Bool.not_eq_true'] at blocked
        constructor
        · intro h
          exact absurd h (by simp)
        · rintro ⟨kept, -, inside, -⟩
          exact absurd ⟨inside, kept⟩ blocked
  · next file =>
    have other := w.moveAtFile_ne_descend names n station
    split <;> simp [file, other]
  · next notOpen _ =>
    constructor
    · intro h
      exact absurd h (by simp)
    · rintro ⟨-, -, -, directory, -⟩
      exact (notOpen directory).elim

theorem moveAtLink_eq_file {names reached : List Name} {target : Place} :
    w.moveAtLink trail names n target = .give (.file reached) ↔
      w.filter.shows n = true ∧ reached = names ∧ w.boundary <+: target ∧
        ∃ bytes accessible, w.tree.node? target = some (.file bytes accessible) := by
  rw [moveAtLink]
  split
  · next closed => simp [closed]
  · next directory =>
    simp only [directory]
    split
    · simp
    · split <;> simp
  · next bytes accessible file =>
    split
    · next inside =>
      rw [List.isPrefixOf_iff_prefix] at inside
      simp [moveAtFile_eq_give, file, inside]
    · next outside =>
      rw [List.isPrefixOf_iff_prefix] at outside
      simp [outside]
  · next notFile =>
    constructor
    · intro h
      exact absurd h (by simp)
    · rintro ⟨-, -, -, bytes, accessible, file⟩
      exact absurd file (notFile bytes accessible)

/-- A walk goes into the directories it admits, save for links into what it is inside of. -/
theorem move_eq_descend :
    w.move here trail n = .descend station ↔
      w.filter.prunes n = false ∧ station.names = here.names ++ [n] ∧
        w.Admits here n station.place ∧
        (∃ accessible, w.tree.node? station.place = some (.directory accessible)) ∧
        w.Fresh here trail n station.place := by
  obtain ⟨place, names⟩ := station
  rw [move]
  cases found : w.tree.node? (here.place ++ [n]) with
  | none => simp [not_admits_of_none found]
  | some node =>
    cases node with
    | file bytes accessible =>
      simp only [moveAtFile_ne_descend, admits_of_entry found (by simp), false_iff]
      rintro ⟨-, -, rfl, ⟨_, directory⟩, -⟩
      exact absurd (found.symm.trans directory) (by simp)
    | directory accessible =>
      have fresh := fresh_of_entry found (by simp) trail place
      rw [admits_of_entry found (by simp)]
      cases w.filter.prunes n with
      | true => simp
      | false =>
        simp only [Bool.false_eq_true, if_false, Move.descend.injEq, Station.mk.injEq, true_and]
        constructor
        · rintro ⟨rfl, rfl⟩
          exact ⟨rfl, rfl, ⟨accessible, found⟩, fresh⟩
        · rintro ⟨rfl, rfl, -, -⟩
          exact ⟨rfl, rfl⟩
    | link target =>
      rw [admits_of_link found, fresh_of_link found]
      cases located : w.tree.locate w.cwd (w.pathOf (here.names ++ [n])) with
      | error cause => simp
      | ok other =>
        simp only [moveAtLink_eq_descend, Station.mk.injEq, Except.ok.injEq]
        constructor
        · rintro ⟨kept, ⟨rfl, rfl⟩, inside, directory, apart⟩
          exact ⟨kept, rfl, ⟨rfl, inside⟩, ⟨true, directory⟩, directory, apart⟩
        · rintro ⟨kept, rfl, ⟨rfl, inside⟩, -, directory, apart⟩
          exact ⟨kept, ⟨rfl, rfl⟩, inside, directory, apart⟩

/-- A walk gives the files that it admits and shows. -/
theorem move_eq_file {names : List Name} :
    w.move here trail n = .give (.file names) ↔
      w.filter.shows n = true ∧ names = here.names ++ [n] ∧
        ∃ place bytes accessible,
          w.Admits here n place ∧ w.tree.node? place = some (.file bytes accessible) := by
  rw [move]
  cases found : w.tree.node? (here.place ++ [n]) with
  | none => simp [not_admits_of_none found]
  | some node =>
    cases node with
    | file bytes accessible =>
      simp only [moveAtFile_eq_give, Item.file.injEq, admits_of_entry found (by simp)]
      constructor
      · rintro ⟨shows, rfl⟩
        exact ⟨shows, rfl, _, bytes, accessible, rfl, found⟩
      · rintro ⟨shows, rfl, -⟩
        exact ⟨shows, rfl⟩
    | directory accessible =>
      simp only [admits_of_entry found (by simp)]
      constructor
      · intro h
        split at h <;> exact absurd h (by simp)
      · rintro ⟨-, -, _, _, _, rfl, file⟩
        exact absurd (found.symm.trans file) (by simp)
    | link target =>
      simp only [admits_of_link found]
      cases located : w.tree.locate w.cwd (w.pathOf (here.names ++ [n])) with
      | error cause => simp
      | ok place => simp [moveAtLink_eq_file]

/-! ## Trails -/

/-- The directories that a walk may be inside of, the innermost first. -/
inductive Trail (w : Walk) : List Station → Prop
  | start : w.Trail [⟨w.boundary, []⟩]
  | descend {here station : Station} {trail : List Station} {children : List Name} {n : Name} :
      w.Trail (here :: trail) → w.tree.list w.cwd (w.pathOf here.names) = .ok children →
      n ∈ children → w.move here trail n = .descend station → w.Trail (station :: here :: trail)

/-- The innermost directory of a trail is one. -/
theorem Trail.directory (h : w.Trail (here :: trail)) :
    ∃ accessible, w.tree.node? here.place = some (.directory accessible) := by
  cases h with
  | start => exact ⟨true, w.listable⟩
  | descend _ _ _ moved => exact (move_eq_descend.mp moved).2.2.2.1

/-- The innermost directory of a trail lies inside the root. -/
theorem Trail.inside (h : w.Trail (here :: trail)) : w.boundary <+: here.place := by
  generalize whole : here :: trail = stations at h
  induction h generalizing here trail with
  | start =>
    obtain ⟨rfl, rfl⟩ := List.cons.inj whole
    exact List.prefix_refl _
  | descend _ _ _ moved ih =>
    obtain ⟨rfl, rfl⟩ := List.cons.inj whole
    exact (move_eq_descend.mp moved).2.2.1.inside (ih rfl)

/-! ## The levels of a walk -/

/-- The root, and the places that a trail has come to over links since. They are different
directories. -/
structure Landmarks (w : Walk) (here : Station) (trail : List Station) (marks : List Place) :
    Prop where
  distinct : marks.Nodup
  directories : marks ⊆ [] :: w.tree.directories
  passed : ∀ mark ∈ marks, ∃ s ∈ here :: trail, s.place = mark
  -- Behind the last landmark, every station is one level deeper than the one before.
  level : (here :: trail).length + w.tree.height ≤
    marks.length * (w.tree.height + 1) + here.place.length

theorem Landmarks.length_le {marks : List Place} (h : w.Landmarks here trail marks)
    (deep : here.place.length ≤ w.tree.height) :
    (here :: trail).length ≤ (w.tree.directories.length + 1) * (w.tree.height + 1) := by
  have few : marks.length ≤ w.tree.directories.length + 1 :=
    (h.distinct.subperm h.directories).length_le
  calc (here :: trail).length
      ≤ marks.length * (w.tree.height + 1) := by have := h.level; omega
    _ ≤ (w.tree.directories.length + 1) * (w.tree.height + 1) := Nat.mul_le_mul_right _ few

theorem mem_root_directories {t : FileTree} {place : Place} {accessible : Bool}
    (h : t.node? place = some (.directory accessible)) : place ∈ [] :: t.directories := by
  rcases eq_or_ne place [] with rfl | inner
  · exact List.mem_cons_self
  · exact List.mem_cons_of_mem _ (FileTree.mem_directories inner h)

theorem Landmarks.start : w.Landmarks ⟨w.boundary, []⟩ [] [w.boundary] where
  distinct := List.pairwise_singleton _ _
  directories := by
    intro mark member
    rw [List.mem_singleton.mp member]
    exact mem_root_directories w.listable
  passed := by
    intro mark member
    exact ⟨_, List.mem_cons_self, (List.mem_singleton.mp member).symm⟩
  level := by
    simp only [List.length_cons, List.length_nil]
    omega

/-- A directory that is an entry of the one before needs no landmark of its own. -/
theorem Landmarks.entry {marks : List Place} {names : List Name}
    (h : w.Landmarks here trail marks) :
    w.Landmarks ⟨here.place ++ [n], names⟩ (here :: trail) marks where
  distinct := h.distinct
  directories := h.directories
  passed := by
    intro mark member
    obtain ⟨s, passed, same⟩ := h.passed mark member
    exact ⟨s, List.mem_cons_of_mem _ passed, same⟩
  level := by
    have := h.level
    simp only [List.length_cons, List.length_append, List.length_nil] at this ⊢
    omega

/-- A link leads to a landmark that has not been passed before. -/
theorem Landmarks.link {marks : List Place} (h : w.Landmarks here trail marks)
    (deep : here.place.length ≤ w.tree.height)
    (directory : w.tree.node? station.place = some (.directory true))
    (apart : ∀ s ∈ here :: trail, s.place ≠ station.place) :
    w.Landmarks station (here :: trail) (station.place :: marks) where
  distinct := by
    refine List.nodup_cons.mpr ⟨fun member => ?_, h.distinct⟩
    obtain ⟨s, passed, same⟩ := h.passed _ member
    exact apart s passed same
  directories := List.cons_subset.mpr ⟨mem_root_directories directory, h.directories⟩
  passed := by
    intro mark member
    rcases List.mem_cons.mp member with rfl | member
    · exact ⟨station, List.mem_cons_self, rfl⟩
    · obtain ⟨s, passed, same⟩ := h.passed mark member
      exact ⟨s, List.mem_cons_of_mem _ passed, same⟩
  level := by
    have := h.level
    simp only [List.length_cons, Nat.succ_mul] at this ⊢
    omega

theorem Trail.landmarks (h : w.Trail (here :: trail)) : ∃ marks, w.Landmarks here trail marks := by
  generalize whole : here :: trail = stations at h
  induction h generalizing here trail with
  | start =>
    obtain ⟨rfl, rfl⟩ := List.cons.inj whole
    exact ⟨[w.boundary], .start⟩
  | descend before _ _ moved ih =>
    obtain ⟨rfl, rfl⟩ := List.cons.inj whole
    obtain ⟨marks, landmarks⟩ := ih rfl
    obtain ⟨-, -, admitted, -, fresh⟩ := move_eq_descend.mp moved
    obtain ⟨place, names⟩ := here
    cases admitted with
    | entry _ _ => exact ⟨marks, landmarks.entry⟩
    | link found _ _ =>
      obtain ⟨_, around⟩ := before.directory
      obtain ⟨directory, apart⟩ := (fresh_of_link found).mp fresh
      exact ⟨_, landmarks.link (FileTree.length_le_height around) directory apart⟩

theorem Trail.length_le (h : w.Trail (here :: trail)) :
    (here :: trail).length ≤ maxDepth w.tree := by
  obtain ⟨marks, landmarks⟩ := h.landmarks
  obtain ⟨accessible, directory⟩ := h.directory
  calc (here :: trail).length
      ≤ (w.tree.directories.length + 1) * (w.tree.height + 1) :=
        landmarks.length_le (FileTree.length_le_height directory)
    _ ≤ maxDepth w.tree := Nat.mul_le_mul (Nat.le_succ _) (Nat.le_succ _)

/-! ## The items of a walk -/

/-- The walk meets an item in the innermost directory of a trail. -/
inductive Meets (w : Walk) (here : Station) (trail : List Station) : Item → Prop
  | closed {cause : FileError} :
      w.tree.list w.cwd (w.pathOf here.names) = .error cause →
      w.Meets here trail (.trouble (.unusable (w.pathOf here.names) cause))
  | entry {children : List Name} {n : Name} {item : Item} :
      w.tree.list w.cwd (w.pathOf here.names) = .ok children → n ∈ children →
      w.move here trail n = .give item → w.Meets here trail item

theorem meets_iff_of_list_ok {children : List Name}
    (listed : w.tree.list w.cwd (w.pathOf here.names) = .ok children) :
    w.Meets here trail item ↔ ∃ n ∈ children, w.move here trail n = .give item := by
  constructor
  · intro meets
    cases meets with
    | closed closed => exact absurd (listed.symm.trans closed) (by simp)
    | entry listed' member moved =>
      obtain rfl := Except.ok.inj (listed.symm.trans listed')
      exact ⟨_, member, moved⟩
  · rintro ⟨n, member, moved⟩
    exact .entry listed member moved

/-- On one level of a walk there is what it meets here and what there is in the directories it goes
into. -/
theorem mem_visit_succ {depth : Nat} :
    item ∈ w.visit (depth + 1) here trail ↔
      w.Meets here trail item ∨
        ∃ children n station, w.tree.list w.cwd (w.pathOf here.names) = .ok children ∧
          n ∈ children ∧ w.move here trail n = .descend station ∧
          item ∈ w.visit depth station (here :: trail) := by
  rw [visit]
  cases listed : w.tree.list w.cwd (w.pathOf here.names) with
  | error cause =>
    simp only [List.mem_singleton, reduceCtorEq, false_and, exists_false, or_false]
    constructor
    · rintro rfl
      exact .closed listed
    · intro meets
      cases meets with
      | closed closed =>
        obtain rfl := Except.error.inj (listed.symm.trans closed)
        rfl
      | entry listed' _ _ => exact absurd (listed.symm.trans listed') (by simp)
  | ok children =>
    rw [meets_iff_of_list_ok listed, List.mem_flatMap]
    constructor
    · rintro ⟨n, member, given⟩
      split at given
      · next station moved => exact .inr ⟨children, n, station, rfl, member, moved, given⟩
      · next item' moved =>
        obtain rfl := List.mem_singleton.mp given
        exact .inl ⟨n, member, moved⟩
      · exact absurd given List.not_mem_nil
    · rintro (⟨n, member, moved⟩ | ⟨_, n, station, ⟨⟩, member, moved, below⟩)
      · exact ⟨n, member, by simp [moved]⟩
      · exact ⟨n, member, by simpa [moved] using below⟩

theorem Trail.of_mem_visit {depth : Nat} (h : w.Trail (here :: trail))
    (member : item ∈ w.visit depth here trail) :
    ∃ there behind, w.Trail (there :: behind) ∧ w.Meets there behind item := by
  induction depth generalizing here trail with
  | zero => exact absurd member List.not_mem_nil
  | succ depth ih =>
    rcases mem_visit_succ.mp member with meets | ⟨children, n, station, listed, name, moved, below⟩
    · exact ⟨here, trail, h, meets⟩
    · exact ih (h.descend listed name moved) below

theorem Trail.level (h : w.Trail (here :: trail)) :
    maxDepth w.tree - trail.length = maxDepth w.tree - (here :: trail).length + 1 := by
  have := h.length_le
  rw [List.length_cons] at this ⊢
  omega

/-- What the levels that are left hold below a trail is in the walk. -/
theorem Trail.mem_items_of_mem_visit (h : w.Trail (here :: trail))
    (member : item ∈ w.visit (maxDepth w.tree - trail.length) here trail) : item ∈ w.items := by
  -- Outwards along the trail: one station less is one level more.
  generalize whole : here :: trail = stations at h
  induction h generalizing here trail with
  | start =>
    obtain ⟨rfl, rfl⟩ := List.cons.inj whole
    exact member
  | descend before listed name moved ih =>
    obtain ⟨rfl, rfl⟩ := List.cons.inj whole
    refine ih ?_ rfl
    rw [before.level, mem_visit_succ]
    exact .inr ⟨_, _, _, listed, name, moved, member⟩

/-- Every item of a walk is met at the end of a trail, and all that is met there is an item. -/
theorem mem_items :
    item ∈ w.items ↔ ∃ here trail, w.Trail (here :: trail) ∧ w.Meets here trail item := by
  constructor
  · exact Trail.of_mem_visit .start
  · rintro ⟨here, trail, h, meets⟩
    apply h.mem_items_of_mem_visit
    rw [h.level, mem_visit_succ]
    exact .inl meets

/-- A file of a walk is an entry, behind a trail, that the walk admits and shows. -/
theorem file_mem_items_iff {names : List Name} :
    .file names ∈ w.items ↔
      ∃ here trail children n place bytes accessible, w.Trail (here :: trail) ∧
        w.tree.list w.cwd (w.pathOf here.names) = .ok children ∧ n ∈ children ∧
        w.filter.shows n = true ∧ names = here.names ++ [n] ∧
        w.Admits here n place ∧ w.tree.node? place = some (.file bytes accessible) := by
  rw [mem_items]
  constructor
  · rintro ⟨here, trail, h, meets⟩
    cases meets with
    | @entry children n _ listed name moved =>
      obtain ⟨shows, path, place, bytes, accessible, admitted, file⟩ := move_eq_file.mp moved
      exact ⟨here, trail, children, n, place, bytes, accessible, h, listed, name, shows, path,
        admitted, file⟩
  · rintro ⟨here, trail, children, n, place, bytes, accessible, h, listed, name, shows, path,
      admitted, file⟩
    exact ⟨here, trail, h, .entry listed name
      (move_eq_file.mpr ⟨shows, path, place, bytes, accessible, admitted, file⟩)⟩

/-- The files of a walk are those among its items. -/
theorem mem_files_iff {p : Path} :
    p ∈ w.files.1 ↔ ∃ names, .file names ∈ w.items ∧ p = w.pathOf names := by
  rw [files, List.mem_filterMap]
  constructor
  · rintro ⟨item, member, given⟩
    cases item with
    | trouble error => exact absurd given (by simp)
    | file names => exact ⟨names, member, (Option.some.inj given).symm⟩
  · rintro ⟨names, member, rfl⟩
    exact ⟨.file names, member, rfl⟩

end RemoteIndex.Walk
