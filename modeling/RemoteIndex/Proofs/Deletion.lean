import RemoteIndex.Proofs.Bypass
import RemoteIndex.Proofs.Pruning

/-!
# Deleting what is left out

A walk does not go through an entry that its filter leaves out, but it may have asked for it all the
same: the way of the root or of another link may go through it, and so may that of an import map.
Where none does (`Walk.Inert`), the entry can be deleted with all that is below it, and the walk
meets what it met before elsewhere. At the entry itself it can only have met an error, and only if
that is a link: links are looked up before the filter is asked.
-/

namespace RemoteIndex

namespace Walk

variable {w : Walk} {e : Place} {here station : Station} {trail : List Station} {n : Name}
  {names : List Name} {depth : Nat} {item : Item} {children : List Name}

/-! ## Where items are met -/

/-- An item, and the entry of a directory that a walk meets it at. -/
structure Sighting where
  entry : Place
  item : Item

/-- What is met from a directory on downwards, no more than `depth` levels. A directory that cannot
be listed is met itself. -/
def sight (w : Walk) : Nat → Station → List Station → List Sighting
  | 0, _, _ => []
  | depth + 1, here, trail =>
    match w.tree.list w.cwd (w.pathOf here.names) with
    | .error cause => [⟨here.place, .trouble (.unusable (w.pathOf here.names) cause)⟩]
    | .ok children =>
      children.flatMap fun n =>
        match w.move here trail n with
        | .descend station => w.sight depth station (here :: trail)
        | .give item => [⟨here.place ++ [n], item⟩]
        | .skip => []

/-- What a walk meets, in order. -/
def sightings (w : Walk) : List Sighting := w.sight (maxDepth w.tree) ⟨w.boundary, []⟩ []

/-- What is met at and below the entry `n` of a directory. -/
def sightAt (w : Walk) (depth : Nat) (here : Station) (trail : List Station) (n : Name) :
    List Sighting :=
  match w.move here trail n with
  | .descend station => w.sight depth station (here :: trail)
  | .give item => [⟨here.place ++ [n], item⟩]
  | .skip => []

theorem sight_succ (w : Walk) (depth : Nat) (here : Station) (trail : List Station) :
    w.sight (depth + 1) here trail =
      match w.tree.list w.cwd (w.pathOf here.names) with
      | .error cause => [⟨here.place, .trouble (.unusable (w.pathOf here.names) cause)⟩]
      | .ok children => children.flatMap (w.sightAt depth here trail) := rfl

theorem map_item_sight : (w.sight depth here trail).map (·.item) = w.visit depth here trail := by
  induction depth generalizing here trail with
  | zero => rfl
  | succ depth ih =>
    rw [sight, visit]
    cases w.tree.list w.cwd (w.pathOf here.names) with
    | error cause => rfl
    | ok children =>
      simp only [List.map_flatMap]
      congr 1
      funext n
      cases w.move here trail n with
      | descend station => exact ih
      | give item => rfl
      | skip => rfl

theorem map_item_sightings (w : Walk) : w.sightings.map (·.item) = w.items := map_item_sight

/-- The walk meets an item at an entry, in the innermost directory of a trail or at that itself. -/
inductive Sights (w : Walk) (here : Station) (trail : List Station) : Sighting → Prop
  | closed {cause : FileError} :
      w.tree.list w.cwd (w.pathOf here.names) = .error cause →
      w.Sights here trail ⟨here.place, .trouble (.unusable (w.pathOf here.names) cause)⟩
  | entry {children : List Name} {n : Name} {item : Item} :
      w.tree.list w.cwd (w.pathOf here.names) = .ok children → n ∈ children →
      w.move here trail n = .give item → w.Sights here trail ⟨here.place ++ [n], item⟩

theorem Trail.of_mem_sight {s : Sighting} (h : w.Trail (here :: trail))
    (member : s ∈ w.sight depth here trail) :
    ∃ there behind, w.Trail (there :: behind) ∧ w.Sights there behind s := by
  induction depth generalizing here trail with
  | zero => exact absurd member List.not_mem_nil
  | succ depth ih =>
    rw [sight] at member
    cases listed : w.tree.list w.cwd (w.pathOf here.names) with
    | error cause =>
      simp only [listed, List.mem_singleton] at member
      exact ⟨here, trail, h, member ▸ .closed listed⟩
    | ok children =>
      simp only [listed, List.mem_flatMap] at member
      obtain ⟨n, name, given⟩ := member
      split at given
      · next station moved => exact ih (h.descend listed name moved) given
      · next item moved =>
        obtain rfl := List.mem_singleton.mp given
        exact ⟨here, trail, h, .entry listed name moved⟩
      · exact absurd given List.not_mem_nil

/-- More levels than a trail can have make no difference. -/
theorem Trail.sight_eq {other : Nat} (h : w.Trail (here :: trail))
    (enough : maxDepth w.tree ≤ depth + trail.length)
    (enough' : maxDepth w.tree ≤ other + trail.length) :
    w.sight depth here trail = w.sight other here trail := by
  induction depth generalizing other here trail with
  | zero =>
    have short := h.length_le
    rw [List.length_cons] at short
    omega
  | succ depth ih =>
    cases other with
    | zero =>
      have short := h.length_le
      rw [List.length_cons] at short
      omega
    | succ other =>
      rw [sight_succ, sight_succ]
      cases listed : w.tree.list w.cwd (w.pathOf here.names) with
      | error cause => rfl
      | ok children =>
        apply List.flatMap_congr
        intro n name
        rw [sightAt, sightAt]
        cases moved : w.move here trail n with
        | descend station =>
          apply ih (h.descend listed name moved)
          · rw [List.length_cons]
            omega
          · rw [List.length_cons]
            omega
        | give item => rfl
        | skip => rfl

/-! ## Entries that are left out -/

/-- The filter leaves the entry out, and neither the way of the root nor that of a link elsewhere
asks for it. -/
structure Inert (w : Walk) (e : Place) : Prop where
  root : w.tree.PathAvoids w.cwd w.root e
  alone : w.tree.Detached e
  excluded : ∀ dir n, e = dir ++ [n] → w.filter.prunes n = true

/-- A trail does not go through an entry that is left out, and neither do the lookups on it. -/
theorem Trail.avoids (h : w.Trail (here :: trail)) (inert : w.Inert e) :
    w.tree.PathAvoids w.cwd (w.pathOf here.names) e ∧ ¬e <+: here.place := by
  generalize whole : here :: trail = stations at h
  induction h generalizing here trail with
  | start =>
    obtain ⟨rfl, rfl⟩ := List.cons.inj whole
    exact ⟨inert.root, inert.root.apart w.located⟩
  | @descend there station behind children n before listed name moved ih =>
    obtain ⟨rfl, rfl⟩ := List.cons.inj whole
    obtain ⟨avoids, apart⟩ := ih rfl
    obtain ⟨kept, path, admitted, -, -⟩ := move_eq_descend.mp moved
    obtain ⟨located, -, -⟩ := before.list_eq_ok listed
    have other : there.place ++ [n] ≠ e := by
      rintro rfl
      exact absurd ((inert.excluded _ _ rfl).symm.trans kept) (by simp)
    have proper := FileTree.proper_of_node? admitted.isSome
    have beyond := avoids.join inert.alone proper located other
    rw [path, pathOf_concat]
    refine ⟨beyond, ?_⟩
    obtain ⟨place, names⟩ := here
    cases admitted with
    | entry found plain =>
      change ¬e <+: there.place ++ [n]
      rw [List.prefix_concat_iff, not_or]
      exact ⟨Ne.symm other, apart⟩
    | link found located' inside =>
      rw [pathOf_concat] at located'
      exact beyond.apart located'

/-- What stands in a directory of a trail beside the entry is looked up without asking for it. -/
theorem Trail.avoids_concat (h : w.Trail (here :: trail)) (inert : w.Inert e)
    (listed : w.tree.list w.cwd (w.pathOf here.names) = .ok children) (name : n ∈ children)
    (other : here.place ++ [n] ≠ e) :
    w.tree.PathAvoids w.cwd (w.pathOf (here.names ++ [n])) e := by
  obtain ⟨located, -, rfl⟩ := h.list_eq_ok listed
  have proper := FileTree.proper_of_node? (FileTree.mem_names.mp name)
  rw [pathOf_concat]
  exact (h.avoids inert).1.join inert.alone proper located other

/-- The same walk where the entry is not there. -/
def without (w : Walk) (e : Place) (root : w.tree.PathAvoids w.cwd w.root e) : Walk :=
  { w with
    tree := w.tree.prune e
    located := root.locate.trans w.located
    listable := (FileTree.node?_prune_of_apart (root.apart w.located)).trans w.listable }

/-- A move to a path that avoids the entry does not depend on it. -/
theorem move_without_of_avoids (root : w.tree.PathAvoids w.cwd w.root e) (apart : ¬e <+: here.place)
    (other : here.place ++ [n] ≠ e)
    (avoids : w.tree.PathAvoids w.cwd (w.pathOf (here.names ++ [n])) e) :
    (w.without e root).move here trail n = w.move here trail n := by
  have entry : (w.tree.prune e).node? (here.place ++ [n]) = w.tree.node? (here.place ++ [n]) := by
    apply FileTree.node?_prune_of_apart
    rw [List.prefix_concat_iff, not_or]
    exact ⟨Ne.symm other, apart⟩
  have found : (w.tree.prune e).locate w.cwd (w.pathOf (here.names ++ [n])) =
      w.tree.locate w.cwd (w.pathOf (here.names ++ [n])) := avoids.locate
  rw [move, move]
  simp only [without, pathOf] at entry found ⊢
  rw [entry, found]
  split
  · rfl
  · rfl
  · rfl
  · split
    · rfl
    · next place located =>
      simp only [moveAtLink, FileTree.node?_prune_of_apart (avoids.apart located)]
      rfl

/-- A move depends on nothing that the walk has not looked up. -/
theorem Trail.move_without (h : w.Trail (here :: trail)) (inert : w.Inert e)
    (listed : w.tree.list w.cwd (w.pathOf here.names) = .ok children) (name : n ∈ children)
    (other : here.place ++ [n] ≠ e) :
    (w.without e inert.root).move here trail n = w.move here trail n :=
  move_without_of_avoids inert.root (h.avoids inert).2 other
    (h.avoids_concat inert listed name other)

/-- At an entry that is left out, nothing but the entry itself can be met. -/
theorem filter_sightAt_of_prunes (pruned : w.filter.prunes n = true)
    (same : here.place ++ [n] = e) :
    (w.sightAt depth here trail n).filter (·.entry ≠ e) = [] := by
  rw [sightAt]
  cases moved : w.move here trail n with
  | descend station => exact absurd (pruned.symm.trans (move_eq_descend.mp moved).1) (by simp)
  | give item => simp [same]
  | skip => rfl

theorem flatMap_filter_eq {α β : Type} {as : List α} {kept : α → Bool} {f g : α → List β}
    {shown : β → Bool} (on : ∀ a ∈ as, kept a = true → f a = (g a).filter shown)
    (off : ∀ a ∈ as, kept a = false → (g a).filter shown = []) :
    (as.filter kept).flatMap f = (as.flatMap g).filter shown := by
  induction as with
  | nil => rfl
  | cons a as ih =>
    have behind := ih (fun b member => on b (List.mem_cons_of_mem a member))
      fun b member => off b (List.mem_cons_of_mem a member)
    rw [List.flatMap_cons, List.filter_append, ← behind]
    cases keeps : kept a with
    | true => rw [List.filter_cons_of_pos keeps, List.flatMap_cons, on a List.mem_cons_self keeps]
    | false =>
      rw [List.filter_cons_of_neg (by simp [keeps]), off a List.mem_cons_self keeps,
        List.nil_append]

/-- Beside the entry is met what was met before, if that holds one level deeper. -/
theorem Trail.sightAt_without (h : w.Trail (here :: trail)) (inert : w.Inert e)
    (listed : w.tree.list w.cwd (w.pathOf here.names) = .ok children) (name : n ∈ children)
    (other : here.place ++ [n] ≠ e)
    (deeper : ∀ {station : Station}, w.Trail (station :: here :: trail) →
      (w.without e inert.root).sight depth station (here :: trail) =
        (w.sight depth station (here :: trail)).filter (·.entry ≠ e)) :
    (w.without e inert.root).sightAt depth here trail n =
      (w.sightAt depth here trail n).filter (·.entry ≠ e) := by
  rw [sightAt, sightAt, h.move_without inert listed name other]
  cases moved : w.move here trail n with
  | descend station => exact deeper (h.descend listed name moved)
  | give item => simp [other]
  | skip => rfl

/-- Below a trail is met, in the same order, what was met before elsewhere than at the entry. -/
theorem Trail.sight_without (h : w.Trail (here :: trail)) (inert : w.Inert e) :
    (w.without e inert.root).sight depth here trail =
      (w.sight depth here trail).filter (·.entry ≠ e) := by
  induction depth generalizing here trail with
  | zero => rfl
  | succ depth ih =>
    obtain ⟨avoids, apart⟩ := h.avoids inert
    rw [sight_succ, sight_succ]
    change (match (w.tree.prune e).list w.cwd (w.pathOf here.names) with
      | .error cause => _
      | .ok children => _) = _
    cases listed : w.tree.list w.cwd (w.pathOf here.names) with
    | error cause =>
      have elsewhere : here.place ≠ e := fun same => apart (same ▸ List.prefix_refl _)
      simp only [avoids.list_eq_error listed]
      simp [elsewhere, without, pathOf]
    | ok children =>
      simp only [avoids.list_eq_ok (h.list_eq_ok listed).1 listed]
      apply flatMap_filter_eq
      · intro n name other
        rw [decide_eq_true_eq] at other
        exact h.sightAt_without inert listed name other fun below => ih below
      · intro n name same
        simp only [ne_eq, decide_not, Bool.not_eq_eq_eq_not, Bool.not_false, decide_eq_true_eq]
          at same
        exact filter_sightAt_of_prunes (inert.excluded _ _ same.symm) same

/-- With enough levels for both trees, the walks of both compare level by level. -/
theorem sightings_without (inert : w.Inert e) :
    (w.without e inert.root).sightings = w.sightings.filter (·.entry ≠ e) := by
  have begun : w.Trail [⟨w.boundary, []⟩] := .start
  have begun' : (w.without e inert.root).Trail [⟨w.boundary, []⟩] := .start
  have levels : w.sightings = w.sight (maxDepth w.tree + maxDepth (w.tree.prune e)) _ _ :=
    begun.sight_eq (Nat.le_add_right _ _) (Nat.le_add_right _ _)
  have levels' : (w.without e inert.root).sightings =
      (w.without e inert.root).sight (maxDepth w.tree + maxDepth (w.tree.prune e)) _ _ :=
    begun'.sight_eq (Nat.le_add_right _ _) (Nat.le_add_left _ _)
  rw [levels, levels']
  exact begun.sight_without inert

/-- Somewhere the walk comes to a link at the entry and cannot tell where it leads, or finds that it
leads to a closed directory or to one that the walk is inside of. -/
inductive MeetsUnfollowable (w : Walk) (e : Place) : Prop
  | intro {here : Station} {trail : List Station} {n : Name} {target : Path} :
      w.Trail (here :: trail) → here.place ++ [n] = e → w.tree.node? e = some (.link target) →
      (∀ place, w.tree.locate w.cwd (w.pathOf (here.names ++ [n])) = .ok place →
        w.tree.node? place = some (.directory false) ∨ ∃ s ∈ here :: trail, s.place = place) →
      w.MeetsUnfollowable e

theorem moveAtFile_of_prunes (pruned : w.filter.prunes n = true) (names : List Name) :
    w.moveAtFile names n = .skip := by
  rw [moveAtFile, if_pos pruned]

/-- A link that is left out gives nothing but the error that it cannot be followed. -/
theorem moveAtLink_of_prunes {target : Place} (pruned : w.filter.prunes n = true)
    (given : w.moveAtLink trail names n target = .give item) :
    (∃ error, item = .trouble error) ∧
      (w.tree.node? target = some (.directory false) ∨ ∃ s ∈ trail, s.place = target) := by
  rw [moveAtLink] at given
  split at given
  · next closed => exact ⟨⟨_, (Move.give.inj given).symm⟩, .inl closed⟩
  · split at given
    · next ancestor found =>
      have around := List.mem_of_find?_eq_some found
      have same : ancestor.place = target := by simpa using List.find?_some found
      exact ⟨⟨_, (Move.give.inj given).symm⟩, .inr ⟨ancestor, around, same⟩⟩
    · simp [pruned] at given
  · simp [moveAtFile_of_prunes pruned] at given
  · exact absurd given (by simp)

theorem Trail.meetsUnfollowable_of_move (h : w.Trail (here :: trail))
    (pruned : w.filter.prunes n = true) (given : w.move here trail n = .give item) :
    w.MeetsUnfollowable (here.place ++ [n]) ∧ ∃ error, item = .trouble error := by
  rw [move] at given
  split at given
  · exact absurd given (by simp)
  · simp [moveAtFile_of_prunes pruned] at given
  · simp [pruned] at given
  · next target link =>
    split at given
    · next cause unlocated =>
      refine ⟨.intro h rfl link fun place located => ?_, _, (Move.give.inj given).symm⟩
      exact absurd (unlocated.symm.trans located) (by simp)
    · next place located =>
      obtain ⟨error, barred⟩ := moveAtLink_of_prunes pruned given
      refine ⟨.intro h rfl link fun other located' => ?_, error⟩
      obtain rfl := Except.ok.inj (located.symm.trans located')
      exact barred

/-- What is met at an entry that is left out is an error, and the entry a link. -/
theorem meetsUnfollowable_of_mem_sightings {s : Sighting} (inert : w.Inert e)
    (member : s ∈ w.sightings) (same : s.entry = e) :
    w.MeetsUnfollowable e ∧ ∃ error, s.item = .trouble error := by
  obtain ⟨here, trail, h, sights⟩ := Trail.of_mem_sight .start member
  cases sights with
  | closed _ => exact absurd (same ▸ List.prefix_refl _) (h.avoids inert).2
  | @entry children n item listed name moved =>
    subst same
    exact h.meetsUnfollowable_of_move (inert.excluded _ _ rfl) moved

theorem items_without (inert : w.Inert e) :
    (w.without e inert.root).items = (w.sightings.filter (·.entry ≠ e)).map (·.item) := by
  rw [← map_item_sightings, sightings_without inert]

/-- Where the walk meets no such link at the entry, it meets nothing there. -/
theorem filter_sightings_of_not_meetsUnfollowable (inert : w.Inert e)
    (calm : ¬w.MeetsUnfollowable e) :
    w.sightings.filter (·.entry ≠ e) = w.sightings := by
  rw [List.filter_eq_self]
  intro s member
  rw [decide_eq_true_eq]
  exact fun same => calm (meetsUnfollowable_of_mem_sightings inert member same).1

/-- Errors aside, a walk gives the same files without the entry. -/
theorem files_without (inert : w.Inert e) : (w.without e inert.root).files.1 = w.files.1 := by
  rw [files_eq, files_eq, items_without inert, ← map_item_sightings w, List.filterMap_map,
    List.filterMap_map, List.filterMap_filter]
  change List.map w.pathOf _ = _
  congr 1
  apply List.filterMap_congr
  intro s member
  by_cases same : s.entry = e
  · obtain ⟨-, error, trouble⟩ := meetsUnfollowable_of_mem_sightings inert member same
    simp [same, trouble, Item.names?]
  · simp [same]

/-- The walk `rest` gives what `w` meets elsewhere than at the entry, which are all of its files. -/
structure SameElsewhere (rest w : Walk) (e : Place) : Prop where
  items : rest.items = (w.sightings.filter (·.entry ≠ e)).map (·.item)
  files : rest.files.1 = w.files.1
  calm : ¬w.MeetsUnfollowable e → rest.items = w.items

theorem sameElsewhere_without (inert : w.Inert e) : (w.without e inert.root).SameElsewhere w e where
  items := items_without inert
  files := files_without inert
  calm := by
    intro calm
    rw [items_without inert, filter_sightings_of_not_meetsUnfollowable inert calm,
      map_item_sightings]

/-- What a walk meets elsewhere becomes the same without the entry. -/
theorem ofItem_without {s : Sighting} (inert : w.Inert e) (member : s ∈ w.sightings)
    (other : s.entry ≠ e) :
    FileOutcome.ofItem (w.without e inert.root) s.item = .ofItem w s.item := by
  obtain ⟨here, trail, h, sights⟩ := Trail.of_mem_sight .start member
  cases sights with
  | closed _ => rfl
  | @entry children n item listed name moved =>
    cases item with
    | trouble error => rfl
    | file names =>
      obtain ⟨-, rfl, -⟩ := move_eq_file.mp moved
      have read := (h.avoids_concat inert listed name other).read
      rw [FileOutcome.ofItem, FileOutcome.ofItem]
      simp only [without, pathOf] at read ⊢
      rw [read]

/-! ## Walks that begin -/

theorem start?_eq_ok_of_root (w : Walk) {path : Path}
    (absolute : Path.absolute? w.cwd.path path = some w.root) :
    start? w.tree w.cwd w.filter path = .ok w := by
  have directory : w.tree.isDirectory w.cwd w.root = true := by
    rw [FileTree.isDirectory, FileTree.stat, w.located]
    simp only [bind, Except.bind, w.listable]
  rw [start?]
  simp only [absolute, directory]
  split
  · next closed => simp at closed
  · split
    · next cause unlocated => exact absurd (w.located.symm.trans unlocated) (by simp)
    · next boundary located =>
      obtain rfl := Except.ok.inj (w.located.symm.trans located)
      rw [dif_pos w.listable]

variable {tree : FileTree} {cwd : Place} {f : WalkFilter} {path : Path}

/-- Of a root that cannot be walked, it only counts where it leads and whether it is a directory
there, and one that can be listed. -/
theorem start?_eq_error_of_sameUpToReason {tree' : FileTree} {error : RootError}
    (alike : ∀ r, Path.absolute? cwd.path path = some r →
      tree'.isDirectory cwd r = tree.isDirectory cwd r ∧ tree'.locate cwd r = tree.locate cwd r ∧
        ∀ place, tree.locate cwd r = .ok place →
          (tree'.node? place = some (.directory true) ↔ tree.node? place = some (.directory true)))
    (failed : start? tree cwd f path = .error error) : start? tree' cwd f path = .error error := by
  rw [start?] at failed ⊢
  split at failed
  · exact failed
  · next r absolute =>
    obtain ⟨directory, locate, listable⟩ := alike r absolute
    rw [directory]
    split at failed
    · next closed => rw [if_pos closed]; exact failed
    · next opened =>
      rw [if_neg opened]
      split at failed
      · next cause unlocated =>
        split
        · next other unlocated' =>
          rw [locate, unlocated] at unlocated'
          obtain rfl := Except.error.inj unlocated'
          exact failed
        · next there located =>
          rw [locate, unlocated] at located
          exact absurd located (by simp)
      · next boundary located =>
        split
        · next other unlocated =>
          rw [locate, located] at unlocated
          exact absurd unlocated (by simp)
        · next there located' =>
          rw [locate, located] at located'
          obtain rfl := Except.ok.inj located'
          split at failed
          · exact absurd failed (by simp)
          · next shut =>
            rw [dif_neg (shut ∘ (listable boundary located).mp)]
            exact failed

theorem start?_prune_of_error {error : RootError}
    (root : ∀ r, Path.absolute? cwd.path path = some r → tree.PathAvoids cwd r e)
    (failed : start? tree cwd f path = .error error) :
    start? (tree.prune e) cwd f path = .error error := by
  refine start?_eq_error_of_sameUpToReason (fun r absolute => ?_) failed
  have avoids := root r absolute
  refine ⟨avoids.isDirectory, avoids.locate, fun place located => ?_⟩
  rw [FileTree.node?_prune_of_apart (avoids.apart located)]

theorem start?_prune_of_ok
    (root : ∀ r, Path.absolute? cwd.path path = some r → tree.PathAvoids cwd r e)
    (started : start? tree cwd f path = .ok w) :
    ∃ avoids, start? (tree.prune e) cwd f path = .ok (w.without e avoids) := by
  obtain ⟨rfl, rfl, rfl, absolute⟩ := start?_eq_ok started
  exact ⟨root _ absolute, (w.without e (root _ absolute)).start?_eq_ok_of_root absolute⟩

end Walk

end RemoteIndex
