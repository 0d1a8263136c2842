import RemoteIndex.Proofs.Pruning

/-!
# The end of a walk

Links may lead back and forth in a tree as they like; a walk of it ends all the same. A link is not
followed into a directory that the walk is inside of, so along a trail the directories that links
lead to are different ones, and between two links every step is one name deeper. This bounds the
trails. It is not the directories on a trail that are different: one that a link has led to may
come again as an entry of a directory further down.

`Walk.items` goes down to a depth given beforehand. `Walk.advance` does not: it is the walk one
entry at a time, with the directories that are still open on a stack, and it comes to its end with
the same items.
-/

namespace RemoteIndex.Walk

variable {w : Walk} {here station : Station} {trail stations : List Station} {n : Name}
  {children names : List Name}

/-! ## Links on a trail -/

/-- The places of the directories below the root of the walk. -/
def directories (w : Walk) : List Place :=
  w.tree.directories.filter fun p => w.boundary.isPrefixOf p && p ≠ w.boundary

/-- The last name of the station is that of a link in the directory `here`. -/
def isOverLink (w : Walk) (here station : Station) : Bool :=
  match station.names.getLast?.bind fun n => w.tree.node? (here.place ++ [n]) with
  | some (.link _) => true
  | _ => false

/-- The places that a trail has come to over links, the latest first. -/
def linkTargets (w : Walk) : List Station → List Place
  | station :: here :: trail =>
    if w.isOverLink here station then station.place :: w.linkTargets (here :: trail)
    else w.linkTargets (here :: trail)
  | _ => []

theorem mem_directories {place : Place} {accessible : Bool}
    (directory : w.tree.node? place = some (.directory accessible)) (inside : w.boundary <+: place)
    (other : place ≠ w.boundary) : place ∈ w.directories := by
  have inner : place ≠ [] := by
    rintro rfl
    exact other (List.prefix_nil.mp inside).symm
  refine List.mem_filter.mpr ⟨FileTree.mem_directories inner directory, ?_⟩
  simpa [other] using inside

/-- A step into a directory goes to an entry, one name deeper, or over a link to a directory that
the walk is not inside of. -/
theorem linkTargets_of_descend (moved : w.move here trail n = .descend station) :
    station.place = here.place ++ [n] ∧
        w.linkTargets (station :: here :: trail) = w.linkTargets (here :: trail) ∨
      w.linkTargets (station :: here :: trail) =
          station.place :: w.linkTargets (here :: trail) ∧
        ∀ s ∈ here :: trail, s.place ≠ station.place := by
  obtain ⟨-, path, admitted, -, fresh⟩ := move_eq_descend.mp moved
  have last : station.names.getLast? = some n := by rw [path, List.getLast?_concat]
  have link : w.isOverLink here station =
      match w.tree.node? (here.place ++ [n]) with
      | some (.link _) => true
      | _ => false := by
    rw [isOverLink, last]
    rfl
  obtain ⟨place, names⟩ := station
  cases admitted with
  | entry found plain =>
    refine .inl ⟨rfl, if_neg ?_⟩
    rw [link, found]
    split
    · next target same => exact absurd (Option.some.inj same) (plain target)
    · exact Bool.false_ne_true
  | link found _ _ =>
    refine .inr ⟨if_pos ?_, ((fresh_of_link found).mp fresh).2⟩
    rw [link, found]

/-- Every station is at a directory, the root or one below it. -/
theorem Trail.place_mem (h : w.Trail (here :: trail)) :
    here.place = w.boundary ∨ here.place ∈ w.directories := by
  obtain ⟨accessible, directory⟩ := h.directory
  rcases eq_or_ne here.place w.boundary with same | other
  · exact .inl same
  · exact .inr (mem_directories directory h.inside other)

/-- A trail begins at the root of the walk. -/
theorem Trail.passes_boundary (h : w.Trail stations) : ∃ s ∈ stations, s.place = w.boundary := by
  induction h with
  | start => exact ⟨_, List.mem_cons_self, rfl⟩
  | descend _ _ _ _ ih =>
    obtain ⟨s, passed, root⟩ := ih
    exact ⟨s, List.mem_cons_of_mem _ passed, root⟩

theorem linkTargets_subset_places (w : Walk) (stations : List Station) :
    w.linkTargets stations ⊆ stations.map Station.place := by
  fun_induction linkTargets w stations with
  | case1 station here trail _ ih => exact List.cons_subset_cons _ ih
  | case2 station here trail _ ih => exact List.subset_cons_of_subset _ ih
  | case3 => exact List.nil_subset _

/-- Along a trail, no two links lead to the same directory. -/
theorem Trail.nodup_linkTargets (h : w.Trail stations) : (w.linkTargets stations).Nodup := by
  induction h with
  | start => exact List.nodup_nil
  | @descend here station trail _ _ before _ _ moved ih =>
    rcases linkTargets_of_descend moved with ⟨-, same⟩ | ⟨further, fresh⟩
    · rwa [same]
    · rw [further]
      refine List.nodup_cons.mpr ⟨fun member => ?_, ih⟩
      obtain ⟨s, passed, place⟩ := List.mem_map.mp (w.linkTargets_subset_places _ member)
      exact fresh s passed place

/-- No link leads back to the root of the walk. -/
theorem Trail.linkTargets_subset (h : w.Trail stations) :
    w.linkTargets stations ⊆ w.directories := by
  induction h with
  | start => exact List.nil_subset _
  | @descend here station trail _ _ before listed name moved ih =>
    rcases linkTargets_of_descend moved with ⟨-, same⟩ | ⟨further, fresh⟩
    · rwa [same]
    · rw [further]
      refine List.cons_subset.mpr ⟨?_, ih⟩
      obtain ⟨s, passed, root⟩ := before.passes_boundary
      exact ((before.descend listed name moved).place_mem).resolve_left fun same =>
        fresh s passed (root.trans same.symm)

/-- No station is deeper than the deepest directory. -/
theorem Trail.length_place_le {height : Nat} (h : w.Trail (here :: trail))
    (deep : ∀ p ∈ w.directories, p.length ≤ w.boundary.length + height) :
    here.place.length ≤ w.boundary.length + height := by
  rcases h.place_mem with same | below
  · rw [same]
    exact Nat.le_add_right _ _
  · exact deep _ below

/-- The names that a trail came by are no more than the links on it and the levels between them
make. -/
theorem Trail.length_names_le {height : Nat} (h : w.Trail (here :: trail))
    (deep : ∀ p ∈ w.directories, p.length ≤ w.boundary.length + height) :
    here.names.length + w.boundary.length ≤
      (w.linkTargets (here :: trail)).length * (height + 1) + here.place.length := by
  generalize whole : here :: trail = stations at h
  induction h generalizing here trail with
  | start =>
    obtain ⟨rfl, rfl⟩ := List.cons.inj whole
    simp [linkTargets]
  | descend before listed name moved ih =>
    obtain ⟨rfl, rfl⟩ := List.cons.inj whole
    have around := ih rfl
    have path := (move_eq_descend.mp moved).2.1
    rw [path, List.length_append, List.length_singleton]
    rcases linkTargets_of_descend moved with ⟨entry, same⟩ | ⟨further, -⟩
    · rw [same, entry, List.length_append, List.length_singleton]
      omega
    · have bound := before.length_place_le deep
      have inside := (before.descend listed name moved).inside.length_le
      rw [further, List.length_cons, Nat.succ_mul]
      omega

/-- A path that a walk comes to is no longer than its directories allow, however the links lead. -/
theorem Trail.length_entry_le {height : Nat} (h : w.Trail (here :: trail))
    (deep : ∀ p ∈ w.directories, p.length ≤ w.boundary.length + height) (n : Name) :
    (here.names ++ [n]).length ≤ (w.directories.length + 1) * (height + 1) := by
  have names := h.length_names_le deep
  have place := h.length_place_le deep
  have few : (w.linkTargets (here :: trail)).length ≤ w.directories.length :=
    (h.nodup_linkTargets.subperm h.linkTargets_subset).length_le
  have product := Nat.mul_le_mul_right (height + 1) few
  rw [List.length_append, List.length_singleton, Nat.succ_mul]
  omega

/-! ## One entry at a time -/

/-- A directory that is still open: its station, and the names that are still to be looked at. -/
structure Frame where
  station : Station
  names : List Name

/-- The stations of the open directories. -/
def stationsOf (frames : List Frame) : List Station := frames.map Frame.station

/-- Opens the directory at the end of a path, on top of the open ones, or meets the reason why it
cannot be listed. -/
def enter (w : Walk) (station : Station) (frames : List Frame) : List Item × List Frame :=
  match w.tree.list w.cwd (w.pathOf station.names) with
  | .error cause => ([.trouble (.unusable (w.pathOf station.names) cause)], frames)
  | .ok children => ([], ⟨station, children⟩ :: frames)

/-- Looks at the next entry of the innermost open directory, or closes it: what this gives, and the
directories that are open then. Without any that are open, the walk has come to its end. -/
def advance (w : Walk) : List Frame → Option (List Item × List Frame)
  | [] => none
  | ⟨_, []⟩ :: frames => some ([], frames)
  | ⟨here, n :: rest⟩ :: frames =>
    match w.move here (stationsOf frames) n with
    | .descend station => some (w.enter station (⟨here, rest⟩ :: frames))
    | .give item => some ([item], ⟨here, rest⟩ :: frames)
    | .skip => some ([], ⟨here, rest⟩ :: frames)

/-- The walk comes from open directories to others and gives the items on its way. -/
inductive Runs (w : Walk) : List Frame → List Item → List Frame → Prop
  | here {frames : List Frame} : w.Runs frames [] frames
  | step {frames next last : List Frame} {given items : List Item} :
      w.advance frames = some (given, next) → w.Runs next items last →
      w.Runs frames (given ++ items) last

theorem Runs.trans {frames next last : List Frame} {given items : List Item}
    (h : w.Runs frames given next) (further : w.Runs next items last) :
    w.Runs frames (given ++ items) last := by
  induction h with
  | here => exact further
  | step advanced _ ih =>
    rw [List.append_assoc]
    exact .step advanced (ih further)

/-- Once the directory is opened, the walk comes back to the other open ones and has given the
items. -/
def Explores (w : Walk) (station : Station) (frames : List Frame) (items : List Item) : Prop :=
  ∃ more, w.Runs (w.enter station frames).2 more frames ∧
    (w.enter station frames).1 ++ more = items

/-- The entries that are left of the innermost open directory give the items that are at and below
them, if the directories among them do. -/
theorem Trail.runs {depth : Nat} {frames : List Frame}
    (h : w.Trail (here :: stationsOf frames))
    (listed : w.tree.list w.cwd (w.pathOf here.names) = .ok children) (within : names ⊆ children)
    (further : ∀ (station : Station) (rest : List Name),
      w.Trail (station :: here :: stationsOf frames) →
      w.Explores station (⟨here, rest⟩ :: frames)
        (w.visit depth station (here :: stationsOf frames))) :
    w.Runs (⟨here, names⟩ :: frames)
      (names.flatMap (Walk.below w depth here (stationsOf frames))) frames := by
  induction names with
  | nil =>
    have closed : w.advance (⟨here, []⟩ :: frames) = some ([], frames) := rfl
    exact Runs.step closed .here
  | cons n rest ih =>
    obtain ⟨name, within⟩ := List.cons_subset.mp within
    have after := ih within
    rw [List.flatMap_cons, Walk.below]
    cases moved : w.move here (stationsOf frames) n with
    | skip =>
      have advanced : w.advance (⟨here, n :: rest⟩ :: frames) =
          some ([], ⟨here, rest⟩ :: frames) := by
        rw [advance, moved]
      exact .step advanced after
    | give item =>
      have advanced : w.advance (⟨here, n :: rest⟩ :: frames) =
          some ([item], ⟨here, rest⟩ :: frames) := by
        rw [advance, moved]
      exact .step advanced after
    | descend station =>
      have advanced : w.advance (⟨here, n :: rest⟩ :: frames) =
          some (w.enter station (⟨here, rest⟩ :: frames)) := by
        rw [advance, moved]
      obtain ⟨more, runs, given⟩ := further station rest (h.descend listed name moved)
      change w.Runs _ (w.visit depth station (here :: stationsOf frames) ++ _) _
      rw [← given, List.append_assoc]
      exact .step advanced (runs.trans after)

/-- Below a trail, the walk gives the items that the depth still allowed holds: it never goes
deeper. -/
theorem Trail.explores {depth : Nat} {frames : List Frame}
    (h : w.Trail (station :: stationsOf frames))
    (levels : depth + (stationsOf frames).length = maxDepth w.tree) :
    w.Explores station frames (w.visit depth station (stationsOf frames)) := by
  induction depth generalizing station frames with
  | zero =>
    have bound := h.length_le
    rw [List.length_cons] at bound
    omega
  | succ depth ih =>
    rw [visit_succ, Explores, enter]
    cases listed : w.tree.list w.cwd (w.pathOf station.names) with
    | error cause => exact ⟨[], .here, List.append_nil _⟩
    | ok children =>
      refine ⟨_, h.runs listed (List.Subset.refl _) fun _ _ trail => ?_, rfl⟩
      refine ih trail ?_
      rw [← levels, stationsOf, List.map_cons, List.length_cons, stationsOf]
      omega

/-- The walk in its beginning, with no directory open but the root. -/
def opened (w : Walk) : List Frame := [⟨⟨w.boundary, []⟩, w.tree.names w.boundary⟩]

theorem enter_boundary (w : Walk) : w.enter ⟨w.boundary, []⟩ [] = ([], w.opened) := by
  have listed : w.tree.list w.cwd (w.pathOf []) = .ok (w.tree.names w.boundary) :=
    FileTree.list_eq_ok.mpr ⟨w.boundary, w.located, w.listable, rfl⟩
  rw [enter, listed]
  rfl

/-- The walk from its beginning to its end, without a depth given beforehand. -/
theorem runs_opened (w : Walk) : w.Runs w.opened w.items [] := by
  have root : w.Trail (⟨w.boundary, []⟩ :: stationsOf []) := .start
  obtain ⟨items, runs, given⟩ := root.explores (Nat.add_zero (maxDepth w.tree))
  rw [enter_boundary] at runs given
  obtain rfl : items = w.items := given
  exact runs

/-- What so many steps of the walk give, and the directories that are open after them. A walk that
has come to its end stays there. -/
def advanceBy (w : Walk) : Nat → List Frame → List Item × List Frame
  | 0, frames => ([], frames)
  | steps + 1, frames =>
    match w.advance frames with
    | none => ([], frames)
    | some (given, next) =>
      let (items, last) := w.advanceBy steps next
      (given ++ items, last)

theorem Runs.exists_advanceBy {frames last : List Frame} {items : List Item}
    (h : w.Runs frames items last) : ∃ steps, w.advanceBy steps frames = (items, last) := by
  induction h with
  | here => exact ⟨0, rfl⟩
  | step advanced _ ih =>
    obtain ⟨steps, rest⟩ := ih
    refine ⟨steps + 1, ?_⟩
    rw [advanceBy, advanced]
    simp only [rest]

/-- A walk of any tree ends. No two links that it follows on its way down lead to the same
directory, so no path that it comes to has more names behind the root than the number of directories
and their depth allow; and looked at one after the other, the entries come to an end, with the items
of the walk. -/
theorem comes_to_an_end (w : Walk) (height : Nat)
    (deep : ∀ p ∈ w.directories, p.length ≤ w.boundary.length + height) :
    (∀ stations, w.Trail stations → (w.linkTargets stations).Nodup) ∧
    (∀ here trail children n, w.Trail (here :: trail) →
      w.tree.list w.cwd (w.pathOf here.names) = .ok children → n ∈ children →
      (here.names ++ [n]).length ≤ (w.directories.length + 1) * (height + 1)) ∧
    ∃ steps, w.advanceBy steps w.opened = (w.items, []) := by
  refine ⟨fun _ trail => trail.nodup_linkTargets, ?_, w.runs_opened.exists_advanceBy⟩
  intro here trail children n h _ _
  exact h.length_entry_le deep n

/-- A link to a directory further down, in which another one leads to the directory around it. -/
def coiledTree : FileTree :=
  ((FileTree.empty.place [.ofString "p", .ofString "a", .ofString "c"] (.directory true)).place
      [.ofString "p", .ofString "l"] (.link (.ofString "a/c"))).place
    [.ofString "p", .ofString "a", .ofString "c", .ofString "up"] (.link (.ofString ".."))

/-- The walk of that tree. -/
def coiledWalk : Walk where
  tree := coiledTree
  cwd := []
  filter := .projectDefault
  root := .ofString "/p"
  boundary := [.ofString "p"]
  located := by decide +kernel
  listable := by decide +kernel

/-- The way over both links and down again, into the directory that the first link has led to. -/
def coiledTrail : List Station :=
  [⟨[.ofString "p", .ofString "a", .ofString "c"], [.ofString "l", .ofString "up", .ofString "c"]⟩,
    ⟨[.ofString "p", .ofString "a"], [.ofString "l", .ofString "up"]⟩,
    ⟨[.ofString "p", .ofString "a", .ofString "c"], [.ofString "l"]⟩,
    ⟨[.ofString "p"], []⟩]

/-- A trail goes on with every directory that the walk goes into. -/
theorem Trail.into (h : w.Trail (here :: trail))
    (located : w.tree.locate w.cwd (w.pathOf here.names) = .ok here.place)
    (listable : w.tree.node? here.place = some (.directory true))
    (moved : w.move here trail n = .descend station) : w.Trail (station :: here :: trail) := by
  have admitted := (move_eq_descend.mp moved).2.2.1
  exact h.descend (FileTree.list_eq_ok.mpr ⟨_, located, listable, rfl⟩)
    (FileTree.mem_names.mpr admitted.isSome) moved

theorem trail_coiledTrail : coiledWalk.Trail coiledTrail := by
  have across : coiledWalk.Trail (coiledTrail.drop 2) :=
    Trail.into .start (by decide +kernel) (by decide +kernel)
      (n := .ofString "l") (by decide +kernel)
  have back : coiledWalk.Trail (coiledTrail.drop 1) :=
    across.into (by decide +kernel) (by decide +kernel) (n := .ofString "up") (by decide +kernel)
  exact back.into (by decide +kernel) (by decide +kernel) (n := .ofString "c") (by decide +kernel)

/-- The links lead to different directories, and yet one directory is on the trail twice. -/
theorem comes_to_an_end_coiled :
    coiledWalk.linkTargets coiledTrail =
        [[.ofString "p", .ofString "a"], [.ofString "p", .ofString "a", .ofString "c"]] ∧
      ¬(coiledTrail.map Station.place).Nodup ∧
      (coiledWalk.linkTargets coiledTrail).Nodup ∧
      [Name.ofString "l", .ofString "up", .ofString "c", .ofString "up"].length ≤ (2 + 1) * (2 + 1) ∧
      ∃ steps, coiledWalk.advanceBy steps coiledWalk.opened = (coiledWalk.items, []) := by
  have deep : ∀ p ∈ coiledWalk.directories, p.length ≤ coiledWalk.boundary.length + 2 := by
    decide +kernel
  have listed : coiledWalk.tree.list coiledWalk.cwd
      (coiledWalk.pathOf [.ofString "l", .ofString "up", .ofString "c"]) =
        .ok [.ofString "up"] := by
    decide +kernel
  obtain ⟨distinct, short, ends⟩ := comes_to_an_end coiledWalk 2 deep
  have directories : coiledWalk.directories.length = 2 := by decide +kernel
  have bound := short _ _ _ _ trail_coiledTrail listed List.mem_cons_self
  rw [directories] at bound
  exact ⟨by decide +kernel, by decide +kernel, distinct _ trail_coiledTrail, bound, ends⟩

end RemoteIndex.Walk
