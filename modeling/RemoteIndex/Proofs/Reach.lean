import Mathlib.Data.List.Induction
import RemoteIndex.Proofs.Trail

/-!
# What a walk reaches

The files of a walk are given here without the walk: as the names that lead from the root to a
file, with a condition on every step of the way. A walk gives no other file, and it gives each of
them, whatever links the tree has.
-/

namespace RemoteIndex.Walk

variable {w : Walk} {here : Station} {trail : List Station} {n : Name} {names : List Name}
  {children : List Name} {place : Place}

/-! ## The conditions -/

/-- The name `n` behind the others is a link, in the directory that the others lead to. -/
def IsLink (w : Walk) (before : List Name) (n : Name) : Prop :=
  ∃ place target, w.tree.locate w.cwd (w.pathOf before) = .ok place ∧
    w.tree.node? (place ++ [n]) = some (.link target)

/-- A step that may be taken: by the name `n` behind the names before it. -/
structure Allows (w : Walk) (before : List Name) (n : Name) : Prop where
  proper : n.Proper
  /-- The filter does not leave the name out. -/
  kept : w.filter.prunes n = false
  /-- The names before lead to a directory that can be listed. -/
  listed : ∃ children, w.tree.list w.cwd (w.pathOf before) = .ok children
  /-- A link does not lead out of the root. -/
  confined : w.IsLink before n →
    ∃ target, w.tree.locate w.cwd (w.pathOf (before ++ [n])) = .ok target ∧ w.boundary <+: target
  /-- A link to a directory does not lead back to one on the way. -/
  apart : w.IsLink before n → ∀ target accessible,
    w.tree.locate w.cwd (w.pathOf (before ++ [n])) = .ok target →
    w.tree.node? target = some (.directory accessible) →
    ∀ shorter, shorter <+: before → w.tree.locate w.cwd (w.pathOf shorter) ≠ .ok target

/-- The names that lead from the root to a file that the walk shows. -/
structure Reaches (w : Walk) (names : List Name) : Prop where
  way : ∀ before n, before ++ [n] <+: names → w.Allows before n
  /-- Links followed, there is a file, however long its path is. -/
  file : ∃ place bytes accessible, w.tree.LeadsTo w.cwd (w.pathOf names) place ∧
    w.tree.node? place = some (.file bytes accessible)
  /-- Its name is a text that fits one of the filter's inclusion patterns. -/
  shown : ∃ n text, names.getLast? = some n ∧ n.text? = some text ∧
    w.filter.included.any (·.occursIn text.toList) = true

/-! ## The stations of a trail -/

/-- The names of a station lead to its place, if they can be looked up. -/
theorem Trail.place_eq (h : w.Trail (here :: trail))
    (located : w.tree.locate w.cwd (w.pathOf here.names) = .ok place) : place = here.place := by
  generalize whole : here :: trail = stations at h
  induction h generalizing here trail place with
  | start =>
    obtain ⟨rfl, rfl⟩ := List.cons.inj whole
    exact Except.ok.inj (located.symm.trans w.located)
  | descend before listed name moved ih =>
    obtain ⟨rfl, rfl⟩ := List.cons.inj whole
    obtain ⟨-, path, admitted, -, -⟩ := move_eq_descend.mp moved
    obtain ⟨around, located', -, rfl⟩ := FileTree.list_eq_ok.mp listed
    obtain rfl := ih located' rfl
    obtain ⟨there, names⟩ := here
    obtain rfl : names = _ := path
    -- A link was looked up when it was followed; any other entry is where the directory is.
    cases admitted with
    | entry found plain =>
      rw [pathOf_concat] at located
      have proper := FileTree.proper_of_node? (FileTree.mem_names.mp name)
      obtain ⟨node, found', ⟨target, rfl⟩ | same⟩ :=
        FileTree.entry_of_leadsTo_join proper located' (FileTree.leadsTo_of_locate located)
      · exact absurd (Option.some.inj (found.symm.trans found')) (plain target)
      · exact same
    | link _ located'' _ => exact Except.ok.inj (located.symm.trans located'')

/-- What is listed in the innermost directory of a trail are the names in its place. -/
theorem Trail.list_eq_ok (h : w.Trail (here :: trail))
    (listed : w.tree.list w.cwd (w.pathOf here.names) = .ok children) :
    w.tree.locate w.cwd (w.pathOf here.names) = .ok here.place ∧
      w.tree.node? here.place = some (.directory true) ∧ children = w.tree.names here.place := by
  obtain ⟨place, located, listable, same⟩ := FileTree.list_eq_ok.mp listed
  obtain rfl := h.place_eq located
  exact ⟨located, listable, same⟩

/-- What the walk admits is listed. -/
theorem Trail.mem_of_admits (h : w.Trail (here :: trail))
    (listed : w.tree.list w.cwd (w.pathOf here.names) = .ok children)
    (admitted : w.Admits here n place) : n ∈ children := by
  rw [(h.list_eq_ok listed).2.2]
  exact FileTree.mem_names.mpr admitted.isSome

/-- The stations of a trail are at the places that the beginnings of its names lead to. -/
theorem Trail.exists_station_iff (h : w.Trail (here :: trail))
    (listed : w.tree.list w.cwd (w.pathOf here.names) = .ok children) :
    (∃ s ∈ here :: trail, s.place = place) ↔
      ∃ shorter, shorter <+: here.names ∧ w.tree.locate w.cwd (w.pathOf shorter) = .ok place := by
  have located := (h.list_eq_ok listed).1
  generalize whole : here :: trail = stations at h
  induction h generalizing here trail children with
  | start =>
    obtain ⟨rfl, rfl⟩ := List.cons.inj whole
    simp [List.prefix_nil, located]
  | descend before listed' name moved ih =>
    obtain ⟨rfl, rfl⟩ := List.cons.inj whole
    have path := (move_eq_descend.mp moved).2.1
    rw [path] at located
    have around := ih listed' (before.list_eq_ok listed').1 rfl
    rw [List.exists_mem_cons_iff]
    refine (or_congr_right around).trans ?_
    simp only [path, List.prefix_concat_iff, or_and_right, exists_or, exists_eq_left, located,
      Except.ok.injEq]

/-! ## Trails and steps that may be taken -/

/-- In the directory that a trail leads to, a link is one there. -/
theorem Trail.isLink_iff (h : w.Trail (here :: trail))
    (listed : w.tree.list w.cwd (w.pathOf here.names) = .ok children) :
    w.IsLink here.names n ↔ ∃ target, w.tree.node? (here.place ++ [n]) = some (.link target) := by
  have located := (h.list_eq_ok listed).1
  constructor
  · rintro ⟨place, target, found, link⟩
    obtain rfl := Except.ok.inj (located.symm.trans found)
    exact ⟨target, link⟩
  · rintro ⟨target, link⟩
    exact ⟨here.place, target, located, link⟩

/-- What a walk admits behind a trail, without a way back, is a step that may be taken. -/
theorem Trail.allows (h : w.Trail (here :: trail))
    (listed : w.tree.list w.cwd (w.pathOf here.names) = .ok children) (name : n ∈ children)
    (kept : w.filter.prunes n = false) (admitted : w.Admits here n place)
    (fresh : (∃ accessible, w.tree.node? place = some (.directory accessible)) →
      w.Fresh here trail n place) : w.Allows here.names n where
  proper := by
    rw [(h.list_eq_ok listed).2.2] at name
    exact FileTree.proper_of_node? (FileTree.mem_names.mp name)
  kept := kept
  listed := ⟨children, listed⟩
  confined := by
    intro link
    obtain ⟨target, found⟩ := (h.isLink_iff listed).mp link
    obtain ⟨located, inside⟩ := (admits_of_link found).mp admitted
    exact ⟨place, located, inside⟩
  apart := by
    intro link other accessible located directory shorter beginning back
    obtain ⟨target, found⟩ := (h.isLink_iff listed).mp link
    obtain rfl := Except.ok.inj (((admits_of_link found).mp admitted).1.symm.trans located)
    obtain ⟨s, around, same⟩ := (h.exists_station_iff listed).mpr ⟨shorter, beginning, back⟩
    exact ((fresh_of_link found).mp (fresh ⟨accessible, directory⟩)).2 s around same

/-- The steps to a name are the last one and those to the names before it. -/
theorem forall_steps_concat {allowed : List Name → Name → Prop} :
    (∀ before m, before ++ [m] <+: names ++ [n] → allowed before m) ↔
      allowed names n ∧ ∀ before m, before ++ [m] <+: names → allowed before m := by
  constructor
  · intro way
    exact ⟨way names n (List.prefix_refl _),
      fun before m beginning => way before m (beginning.trans (List.prefix_append _ _))⟩
  · rintro ⟨last, way⟩ before m beginning
    rcases List.prefix_concat_iff.mp beginning with whole | beginning
    · obtain ⟨rfl, same⟩ := List.append_inj' whole rfl
      obtain rfl := List.singleton_inj.mp same
      exact last
    · exact way before m beginning

/-- A trail has come by steps that may be taken. -/
theorem Trail.way (h : w.Trail (here :: trail)) :
    ∀ before n, before ++ [n] <+: here.names → w.Allows before n := by
  generalize whole : here :: trail = stations at h
  induction h generalizing here trail with
  | start =>
    obtain ⟨rfl, rfl⟩ := List.cons.inj whole
    intro before n beginning
    exact absurd (List.prefix_nil.mp beginning) (by simp)
  | descend inner listed name moved ih =>
    obtain ⟨rfl, rfl⟩ := List.cons.inj whole
    obtain ⟨kept, path, admitted, -, fresh⟩ := move_eq_descend.mp moved
    rw [path]
    exact forall_steps_concat.mpr ⟨inner.allows listed name kept admitted fun _ => fresh, ih rfl⟩

/-- Behind a trail, a step that may be taken leads to where the walk admits it. -/
theorem Trail.admits (h : w.Trail (here :: trail)) (allowed : w.Allows here.names n)
    (leads : w.tree.LeadsTo w.cwd (w.pathOf (here.names ++ [n])) place) :
    w.Admits here n place := by
  obtain ⟨children, listed⟩ := allowed.listed
  obtain ⟨located, -, -⟩ := h.list_eq_ok listed
  rw [pathOf_concat] at leads
  obtain ⟨node, found, beyond⟩ := FileTree.entry_of_leadsTo_join allowed.proper located leads
  cases node with
  | link target =>
    obtain ⟨other, located', inside⟩ := allowed.confined ((h.isLink_iff listed).mpr ⟨target, found⟩)
    rw [pathOf_concat] at located'
    obtain rfl := leads.eq_of_locate located'
    exact .link found (by rwa [pathOf_concat]) inside
  | file bytes accessible =>
    rcases beyond with ⟨target, link⟩ | rfl
    · exact absurd link (by simp)
    · exact .entry found (by simp)
  | directory accessible =>
    rcases beyond with ⟨target, link⟩ | rfl
    · exact absurd link (by simp)
    · exact .entry found (by simp)

/-- Where every step may be taken and the last directory can be listed, the walk has a trail. -/
theorem exists_trail (way : ∀ before n, before ++ [n] <+: names → w.Allows before n)
    (listed : ∃ children, w.tree.list w.cwd (w.pathOf names) = .ok children) :
    ∃ here trail, w.Trail (here :: trail) ∧ here.names = names := by
  -- The directory before the last name can be listed because the step from it may be taken.
  induction names using List.reverseRecOn with
  | nil => exact ⟨⟨w.boundary, []⟩, [], .start, rfl⟩
  | append_singleton names n ih =>
    obtain ⟨allowed, before⟩ := forall_steps_concat.mp way
    obtain ⟨here, trail, h, rfl⟩ := ih before allowed.listed
    obtain ⟨children, around⟩ := allowed.listed
    obtain ⟨inner, listed⟩ := listed
    obtain ⟨place, located, directory, -⟩ := FileTree.list_eq_ok.mp listed
    have admitted := h.admits allowed (FileTree.leadsTo_of_locate located)
    have name : n ∈ children := h.mem_of_admits around admitted
    have fresh : w.Fresh here trail n place := by
      intro target found
      refine ⟨directory, fun s station back => ?_⟩
      obtain ⟨shorter, beginning, same⟩ :=
        (h.exists_station_iff around).mp ⟨s, station, rfl⟩
      exact allowed.apart ((h.isLink_iff around).mpr ⟨target, found⟩) place true located directory
        shorter beginning (back ▸ same)
    have moved : w.move here trail n = .descend ⟨place, here.names ++ [n]⟩ :=
      move_eq_descend.mpr ⟨allowed.kept, rfl, admitted, ⟨true, directory⟩, fresh⟩
    exact ⟨_, _, h.descend around name moved, rfl⟩

/-! ## The files of a walk -/

/-- What a walk admits behind a trail is where its path leads. -/
theorem Trail.leadsTo (h : w.Trail (here :: trail))
    (listed : w.tree.list w.cwd (w.pathOf here.names) = .ok children)
    (admitted : w.Admits here n place) :
    w.tree.LeadsTo w.cwd (w.pathOf (here.names ++ [n])) place := by
  obtain ⟨located, passable, -⟩ := h.list_eq_ok listed
  have proper := FileTree.proper_of_node? admitted.isSome
  cases admitted with
  | entry found plain =>
    rw [pathOf_concat]
    exact FileTree.leadsTo_join_entry proper located passable found plain
  | link _ located' _ => exact FileTree.leadsTo_of_locate located'

theorem shows_eq_true {f : WalkFilter} :
    f.shows n = true ↔ f.prunes n = false ∧
      ∃ text, n.text? = some text ∧ f.included.any (·.occursIn text.toList) = true := by
  rw [WalkFilter.shows, WalkFilter.prunes, Option.any_eq_true]
  cases n.text? with
  | none => simp
  | some text => simp [WalkFilter.isIncludedFile]

/-- A walk comes to those files that steps it may take lead to. -/
theorem file_mem_items : .file names ∈ w.items ↔ w.Reaches names := by
  rw [file_mem_items_iff]
  constructor
  · rintro ⟨here, trail, children, n, place, bytes, accessible, h, listed, name, shows, rfl,
      admitted, file⟩
    obtain ⟨kept, text, read, fits⟩ := shows_eq_true.mp shows
    have last : w.Allows here.names n := by
      refine h.allows listed name kept admitted fun ⟨_, directory⟩ => ?_
      exact absurd (file.symm.trans directory) (by simp)
    exact
      { way := forall_steps_concat.mpr ⟨last, h.way⟩
        file := ⟨place, bytes, accessible, h.leadsTo listed admitted, file⟩
        shown := ⟨n, text, by simp, read, fits⟩ }
  · rintro ⟨way, ⟨place, bytes, accessible, leads, file⟩, n, text, last, read, fits⟩
    obtain ⟨before, rfl⟩ := List.getLast?_eq_some_iff.mp last
    obtain ⟨allowed, way⟩ := forall_steps_concat.mp way
    obtain ⟨here, trail, h, rfl⟩ := exists_trail way allowed.listed
    obtain ⟨children, listed⟩ := allowed.listed
    have admitted := h.admits allowed leads
    have name : n ∈ children := h.mem_of_admits listed admitted
    have shows := shows_eq_true.mpr ⟨allowed.kept, text, read, fits⟩
    exact ⟨here, trail, children, n, place, bytes, accessible, h, listed, name, shows, rfl,
      admitted, file⟩

theorem mem_files {p : Path} :
    p ∈ w.files.1 ↔ ∃ names, p = w.pathOf names ∧ w.Reaches names := by
  rw [mem_files_iff]
  constructor
  · rintro ⟨names, member, path⟩
    exact ⟨names, path, file_mem_items.mp member⟩
  · rintro ⟨names, path, reaches⟩
    exact ⟨names, file_mem_items.mpr reaches, path⟩

variable {tree : FileTree} {cwd : Place} {filter : WalkFilter} {path : Path}

/-- A walk that has begun is the one that was asked for. -/
theorem start?_eq_ok (started : start? tree cwd filter path = .ok w) :
    w.tree = tree ∧ w.cwd = cwd ∧ w.filter = filter ∧
      Path.absolute? cwd.path path = some w.root := by
  rw [start?] at started
  split at started
  · exact absurd started (by simp)
  · next root absolute =>
    split at started
    · exact absurd started (by simp)
    · split at started
      · exact absurd started (by simp)
      · split at started
        · obtain rfl := Except.ok.inj started
          exact ⟨rfl, rfl, rfl, absolute⟩
        · exact absurd started (by simp)

/-- The files of a walk are those, below the root, that steps it may take lead to. -/
theorem mem_files_of_start? (started : start? tree cwd filter path = .ok w) :
    w.tree = tree ∧ w.cwd = cwd ∧ w.filter = filter ∧
      Path.absolute? cwd.path path = some w.root ∧ tree.locate cwd w.root = .ok w.boundary ∧
      ∀ p, p ∈ w.files.1 ↔ ∃ names, p = w.root.extend names ∧ w.Reaches names := by
  obtain ⟨rfl, rfl, rfl, absolute⟩ := start?_eq_ok started
  exact ⟨rfl, rfl, rfl, absolute, w.located, fun p => mem_files⟩

/-- A directory with a script further down, and a link to the directory. -/
def linkedTree : FileTree :=
  (FileTree.empty.place [.ofString "p", .ofString "lib", .ofString "a.ts"]
      (.file (Text.Utf8.encode "import \"http://[::1]/x\";") true)).place
    [.ofString "l"] (.link (.ofString "p"))

/-- The walk over the link reaches the script, under the name of the link. -/
theorem reaches_linked_script :
    ∃ w, start? linkedTree [] .projectDefault (.ofString "l/.") = .ok w ∧
      ∃ names, .ofString "/l/lib/a.ts" = w.root.extend names ∧ w.Reaches names := by
  have found : (start? linkedTree [] .projectDefault (.ofString "l/.")).map (·.files.1) =
      .ok [.ofString "/l/lib/a.ts"] := by decide +kernel
  cases started : start? linkedTree [] .projectDefault (.ofString "l/.") with
  | error error => exact absurd (started ▸ found) (by simp [Except.map])
  | ok w =>
    rw [started] at found
    have files : w.files.1 = [.ofString "/l/lib/a.ts"] := Except.ok.inj found
    obtain ⟨-, -, -, -, -, reached⟩ := mem_files_of_start? started
    exact ⟨w, rfl, (reached _).mp (files ▸ List.mem_cons_self)⟩

end RemoteIndex.Walk
