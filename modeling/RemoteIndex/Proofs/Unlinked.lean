import Mathlib.Data.List.Forall2
import RemoteIndex.Proofs.Containment
import RemoteIndex.Proofs.Relative

/-!
# Files that nothing leads to

A file can be deleted without much notice if no link leads to it (`FileTree.Unlinked`) and its name
is not shown. What leads elsewhere leads there still. A way that takes the file for a directory
leads nowhere with and without it; only the reason that is given is another one. So a walk meets the
same items, but for the reasons in the errors of links whose ways go by the file.
-/

namespace RemoteIndex

namespace FileTree

variable {t : FileTree} {e here there : Place} {links : Nat} {cwd : Place} {p : Path} {n : Name}
  {ss : List Step}

/-! ## Lookups without a file -/

theorem node?_prune_self (inner : e ≠ []) : (t.prune e).node? e = none := by
  have gone : (!e.isPrefixOf e) = false := by simp
  rw [node?, prune, lookup_filter fun place => !e.isPrefixOf place, gone]
  simpa using inner

/-- An absolute path begins apart from the file. -/
theorem HasFile.not_prefix_origin (file : t.HasFile e) (absolute : p.isAbsolute = true) :
    ¬e <+: origin cwd p := by
  rw [origin, if_pos absolute, List.prefix_nil]
  exact file.inner

theorem HasFile.ne_of_directory {accessible : Bool} (file : t.HasFile e)
    (directory : t.node? there = some (.directory accessible)) : there ≠ e := by
  rintro rfl
  obtain ⟨_, _, found⟩ := file
  exact absurd (found.symm.trans directory) (by simp)

/-- No step goes on from a file. -/
theorem HasFile.land_eq_error (file : t.HasFile e) (s : Step) :
    t.land e s = .error .notDirectory := by
  obtain ⟨_, _, found⟩ := file
  rw [land.eq_def, found]

theorem HasFile.resolve_cons (file : t.HasFile e) (s : Step) (rest : List Step) :
    t.resolve links e (s :: rest) = .error .notDirectory :=
  resolve_cons_error (file.land_eq_error s)

/-- A way that asks for a file and leads somewhere leads to the file. -/
theorem HasFile.eq_of_looksUp (file : t.HasFile e) (leads : t.Leads links here ss there)
    (asks : t.LooksUp e links here ss) : there = e := by
  induction asks with
  | @here links here n rest found =>
    -- The step down arrives at the file, and no further step can be made from it.
    cases leads with
    | @step _ _ next _ _ _ lands behind =>
      obtain ⟨-, -, node, at_e, landing⟩ := land_down.mp lands
      obtain ⟨bytes, accessible, stored⟩ := id file
      rw [found, stored] at at_e
      obtain rfl := Option.some.inj at_e
      obtain rfl : next = e := by simpa [Landing.ofNode, found] using landing
      cases behind with
      | done => rfl
      | step lands' _ => exact absurd ((file.land_eq_error _).symm.trans lands') (by simp)
      | link lands' _ _ => exact absurd ((file.land_eq_error _).symm.trans lands') (by simp)
    | link lands _ _ =>
      obtain ⟨-, -, node, at_e, landing⟩ := land_down.mp lands
      obtain ⟨bytes, accessible, stored⟩ := file
      rw [found, stored] at at_e
      obtain rfl := Option.some.inj at_e
      exact absurd landing (by simp [Landing.ofNode])
  | step lands _ ih =>
    cases leads with
    | step lands' behind =>
      obtain rfl : _ = _ := by simpa [lands] using lands'
      exact ih behind
    | link lands' _ _ => exact absurd (lands.symm.trans lands') (by simp)
  | link lands _ _ ih =>
    cases leads with
    | step lands' _ => exact absurd (lands.symm.trans lands') (by simp)
    | link lands' _ behind =>
      obtain rfl : _ = _ := by simpa [lands] using lands'
      exact ih behind

/-- A path that leads elsewhere avoids the file. -/
theorem HasFile.avoids (file : t.HasFile e) (begins : ¬e <+: origin cwd p)
    (leads : t.LeadsTo cwd p there) (other : there ≠ e) : t.PathAvoids cwd p e :=
  ⟨begins, fun asks => other (file.eq_of_looksUp leads asks)⟩

/-- A lookup that is misled by the file: it ends there, or goes on as though that were a directory.
Without the file it finds that something is missing. -/
structure Misled (e : Place) (found found' : Except FileError Place) : Prop where
  before : found = .ok e ∨ found = .error .notDirectory
  after : found' = .error .missing

theorem not_prefix_of_concat (here : Place) (n : Name) : ¬here ++ [n] <+: here := by
  intro longer
  have shorter := longer.length_le
  rw [List.length_append, List.length_singleton] at shorter
  omega

/-- A step down to the file arrives there, or finds that something is missing once it is gone. It
fails alike where the directory cannot be passed. -/
theorem HasFile.land_entry (file : t.HasFile (here ++ [n])) :
    (∃ cause, t.land here (.down n) = .error cause ∧
        (t.prune (here ++ [n])).land here (.down n) = .error cause) ∨
      t.land here (.down n) = .ok (.place (here ++ [n])) ∧
        (t.prune (here ++ [n])).land here (.down n) = .error .missing := by
  have around := node?_prune_of_apart (t := t) (not_prefix_of_concat here n)
  have gone := node?_prune_self (t := t) file.inner
  obtain ⟨bytes, accessible, stored⟩ := file
  simp only [land.eq_def, around, gone, stored, reduceCtorEq, if_false]
  split
  · split
    · exact .inl ⟨_, rfl, rfl⟩
    · split
      · exact .inl ⟨_, rfl, rfl⟩
      · exact .inr ⟨rfl, rfl⟩
  · exact .inl ⟨_, rfl, rfl⟩

theorem HasFile.resolve_down (file : t.HasFile (here ++ [n])) (rest : List Step) :
    (t.prune (here ++ [n])).resolve links here (.down n :: rest) =
        t.resolve links here (.down n :: rest) ∨
      Misled (here ++ [n]) (t.resolve links here (.down n :: rest))
        ((t.prune (here ++ [n])).resolve links here (.down n :: rest)) := by
  obtain ⟨cause, lands, lands'⟩ | ⟨lands, gone⟩ := file.land_entry
  · left
    rw [resolve_cons_error lands', resolve_cons_error lands]
  · refine .inr ⟨?_, resolve_cons_error gone⟩
    rw [resolve_cons_place lands]
    cases rest with
    | nil => exact .inl (resolve_nil t links (here ++ [n]))
    | cons s rest => exact .inr (file.resolve_cons s rest)

/-- A way that asks for the file comes out the same without it, or is misled by it. -/
theorem HasFile.resolve_of_looksUp (file : t.HasFile e) (asks : t.LooksUp e links here ss)
    (apart : ¬e <+: here) :
    (t.prune e).resolve links here ss = t.resolve links here ss ∨
      Misled e (t.resolve links here ss) ((t.prune e).resolve links here ss) := by
  -- Up to the first step that goes down to the file, both lookups take the same steps.
  induction asks with
  | here found =>
    subst found
    exact file.resolve_down _
  | @step links here next s rest lands _ ih =>
    by_cases misses : s.Misses here e
    · rw [resolve_cons_place lands, resolve_cons_place ((land_prune apart misses).trans lands)]
      exact ih (apart_of_land apart misses lands)
    · simp only [Step.Misses, not_forall, not_not] at misses
      obtain ⟨n, rfl, rfl⟩ := misses
      exact file.resolve_down rest
  | @link links here s rest target lands nonempty _ ih =>
    by_cases misses : s.Misses here e
    · have full : target.bytes.isEmpty = false := List.isEmpty_eq_false_iff.mpr nonempty
      rw [resolve_cons_link lands, resolve_cons_link ((land_prune apart misses).trans lands)]
      simp only [jump, full, Bool.false_eq_true, if_false]
      exact ih (apart_of_follow apart)
    · simp only [Step.Misses, not_forall, not_not] at misses
      obtain ⟨n, rfl, rfl⟩ := misses
      exact file.resolve_down rest

theorem HasFile.locate_prune (file : t.HasFile e) (begins : ¬e <+: origin cwd p) :
    (t.prune e).locate cwd p = t.locate cwd p ∨
      Misled e (t.locate cwd p) ((t.prune e).locate cwd p) := by
  rw [locate, locate]
  split
  · exact .inl rfl
  · split
    · exact .inl rfl
    · split
      · exact .inl rfl
      · by_cases asks : t.LooksUp e maxLinks (origin cwd p) (steps p)
        · exact file.resolve_of_looksUp asks begins
        · exact .inl (resolve_prune begins asks)

/-- Of a path that does not lead to the file, it is only noticed why it leads nowhere. -/
theorem HasFile.locate_prune_of_ne (file : t.HasFile e) (begins : ¬e <+: origin cwd p)
    (other : t.locate cwd p ≠ .ok e) :
    (t.prune e).locate cwd p = t.locate cwd p ∨
      ¬t.PathAvoids cwd p e ∧ t.locate cwd p = .error .notDirectory ∧
        (t.prune e).locate cwd p = .error .missing := by
  by_cases avoids : t.PathAvoids cwd p e
  · exact .inl avoids.locate
  · obtain same | ⟨before, after⟩ := file.locate_prune begins
    · exact .inl same
    · exact .inr ⟨avoids, before.resolve_left other, after⟩

theorem isDirectory_eq_true :
    t.isDirectory cwd p = true ↔ ∃ place accessible,
      t.locate cwd p = .ok place ∧ t.node? place = some (.directory accessible) := by
  rw [isDirectory, stat]
  cases t.locate cwd p with
  | error cause => simp [bind, Except.bind]
  | ok place =>
    cases found : t.node? place with
    | none => simp [bind, Except.bind, found]
    | some node => cases node <;> simp [bind, Except.bind, found]

/-- Whether a path leads to a directory does not depend on any file. -/
theorem HasFile.isDirectory_prune (file : t.HasFile e) (begins : ¬e <+: origin cwd p) :
    (t.prune e).isDirectory cwd p = t.isDirectory cwd p := by
  have elsewhere {place : Place} (located : t.locate cwd p = .ok place) (other : place ≠ e) :=
    (file.avoids begins (leadsTo_of_locate located) other).isDirectory
  rw [Bool.eq_iff_iff]
  constructor
  · intro directory
    obtain ⟨place, accessible, located, found⟩ := isDirectory_eq_true.mp directory
    obtain same | misled := file.locate_prune begins
    · have other : place ≠ e := by
        rintro rfl
        exact absurd ((node?_prune_self file.inner).symm.trans found) (by simp)
      rwa [← elsewhere (same.symm.trans located) other]
    · exact absurd (misled.after.symm.trans located) (by simp)
  · intro directory
    obtain ⟨place, accessible, located, found⟩ := isDirectory_eq_true.mp directory
    rwa [elsewhere located (file.ne_of_directory found)]

/-- No link leads to the place. -/
def Unlinked (t : FileTree) (e : Place) : Prop :=
  ∀ here n target, t.node? (here ++ [n]) = some (.link target) →
    ¬t.Leads maxLinks (if target.isAbsolute then [] else here) (steps target) e

theorem Unlinked.locate_ne (alone : t.Unlinked e) (given : p.bytes ≠ []) (proper : n.Proper)
    (before : t.LeadsTo cwd p here) {target : Path}
    (link : t.node? (here ++ [n]) = some (.link target)) : t.locate cwd (p.join ⟨n⟩) ≠ .ok e := by
  intro located
  cases before.of_join given proper (leadsTo_of_locate located) with
  | step lands _ =>
    obtain ⟨-, -, node, found, landing⟩ := land_down.mp lands
    obtain rfl := Option.some.inj (link.symm.trans found)
    exact absurd landing (by simp [Landing.ofNode])
  | @link _ _ _ _ _ other lands _ behind =>
    obtain ⟨-, -, node, found, landing⟩ := land_down.mp lands
    obtain rfl := Option.some.inj (link.symm.trans found)
    obtain rfl := Landing.link.inj landing
    rw [List.append_nil] at behind
    exact alone here n other link behind.succ

/-- A path that does not lead to the file is read alike, or its way takes the file for a
directory. -/
theorem HasFile.readText_prune_of_ne (file : t.HasFile e) (begins : ¬e <+: origin cwd p)
    (other : t.locate cwd p ≠ .ok e) :
    (t.prune e).readText cwd p = t.readText cwd p ∨
      ¬t.PathAvoids cwd p e ∧ t.readText cwd p = .error .notDirectory ∧
        (t.prune e).readText cwd p = .error .missing := by
  by_cases avoids : t.PathAvoids cwd p e
  · exact .inl avoids.readText
  · cases located : t.locate cwd p with
    | ok place =>
      have elsewhere : place ≠ e := fun same => other (same ▸ located)
      exact absurd (file.avoids begins (leadsTo_of_locate located) elsewhere) avoids
    | error cause =>
      have unread {t : FileTree} {cause : FileError} (lost : t.locate cwd p = .error cause) :
          t.readText cwd p = .error cause := by
        rw [readText, read, stat, lost]
        rfl
      obtain same | ⟨-, before, after⟩ := file.locate_prune_of_ne begins other
      · exact .inl ((unread (same.trans located)).trans (unread located).symm)
      · exact .inr ⟨avoids, unread before, unread after⟩

end FileTree

/-! ## Walks without a file -/

namespace Walk

variable {w : Walk} {e : Place} {here : Station} {trail : List Station} {n : Name}
  {names : List Name} {children : List Name} {depth : Nat}

/-- Two walks meet the same item, or a link whose way goes on from a file, which is taken for a
directory in the one walk and is missing in the other. -/
inductive Item.SameUpToReason (mayChange : Path → Prop) : Item → Item → Prop
  | same (item : Item) : SameUpToReason mayChange item item
  | misled {path : Path} : mayChange path →
      SameUpToReason mayChange (.trouble (.unusable path .notDirectory))
        (.trouble (.unusable path .missing))

/-- The path does not avoid the file at `e`, and there are links whose ways do not either. -/
def ReasonMayChange (w : Walk) (e : Place) (p : Path) : Prop :=
  ¬w.tree.PathAvoids w.cwd p e ∧ ¬w.tree.Detached e

/-- There is a file at `e` that the walk does not show, and that no link leads to. -/
structure UnseenFile (w : Walk) (e : Place) : Prop where
  file : w.tree.HasFile e
  root : w.tree.PathAvoids w.cwd w.root e
  unlinked : w.tree.Unlinked e
  hidden : ∀ dir n, e = dir ++ [n] → w.filter.shows n = false

/-- A trail does not go by way of a file. -/
theorem Trail.avoids_of_unseen (h : w.Trail (here :: trail)) (unseen : w.UnseenFile e) :
    w.tree.PathAvoids w.cwd (w.pathOf here.names) e ∧ ¬e <+: here.place := by
  -- Along the trail: what leads to a directory leads elsewhere than to the file.
  generalize whole : here :: trail = stations at h
  induction h generalizing here trail with
  | start =>
    obtain ⟨rfl, rfl⟩ := List.cons.inj whole
    exact ⟨unseen.root, unseen.root.apart w.located⟩
  | @descend there station behind children n before listed name moved ih =>
    obtain ⟨rfl, rfl⟩ := List.cons.inj whole
    obtain ⟨-, path, admitted, ⟨accessible, directory⟩, -⟩ := move_eq_descend.mp moved
    obtain ⟨-, given, -⟩ := FileTree.locate_eq_ok.mp (before.list_eq_ok listed).1
    have proper := FileTree.proper_of_node? admitted.isSome
    have leads := before.leadsTo listed admitted
    have begins : ¬e <+: FileTree.origin w.cwd (w.pathOf (there.names ++ [n])) := by
      rw [pathOf_concat, FileTree.origin_join given proper]
      exact (ih rfl).1.begins
    have avoids := unseen.file.avoids begins leads (unseen.file.ne_of_directory directory)
    rw [path]
    exact ⟨avoids, FileTree.apart_of_leads leads avoids.begins avoids.quiet⟩

/-- The walk passes over the file. -/
theorem move_of_unseen (unseen : w.UnseenFile e) (at_e : here.place ++ [n] = e) :
    w.move here trail n = .skip := by
  obtain ⟨bytes, accessible, found⟩ := unseen.file
  rw [move, at_e, found]
  simp [moveAtFile, unseen.hidden here.place n at_e.symm]

theorem move_of_lost (w : Walk) {target : Path} {cause : FileError}
    (link : w.tree.node? (here.place ++ [n]) = some (.link target))
    (lost : w.tree.locate w.cwd ((w.pathOf here.names).join ⟨n⟩) = .error cause) :
    w.move here trail n =
      .give (.trouble (.unusable ((w.pathOf here.names).join ⟨n⟩) cause)) := by
  simp only [move, link, pathOf_concat, lost]

/-- Beside the file, the walk does without it what it did before, unless it is at a link whose way
goes by the file. -/
theorem Trail.move_prune (h : w.Trail (here :: trail)) (unseen : w.UnseenFile e)
    (listed : w.tree.list w.cwd (w.pathOf here.names) = .ok children) (name : n ∈ children)
    (other : here.place ++ [n] ≠ e) :
    (w.without e unseen.root).move here trail n = w.move here trail n ∨
      ∃ path, w.ReasonMayChange e path ∧
        w.move here trail n = .give (.trouble (.unusable path .notDirectory)) ∧
        (w.without e unseen.root).move here trail n =
          .give (.trouble (.unusable path .missing)) := by
  obtain ⟨avoids, apart⟩ := h.avoids_of_unseen unseen
  obtain ⟨located, passable, rfl⟩ := h.list_eq_ok listed
  obtain ⟨-, given, -, leads⟩ := FileTree.locate_eq_ok.mp located
  have proper := FileTree.proper_of_node? (FileTree.mem_names.mp name)
  have begins : ¬e <+: FileTree.origin w.cwd ((w.pathOf here.names).join ⟨n⟩) := by
    rw [FileTree.origin_join given proper]
    exact avoids.begins
  by_cases beyond : w.tree.PathAvoids w.cwd ((w.pathOf here.names).join ⟨n⟩) e
  · exact .inl (move_without_of_avoids unseen.root apart other (pathOf_concat w _ n ▸ beyond))
  have elsewhere {place : Place}
      (located' : w.tree.locate w.cwd ((w.pathOf here.names).join ⟨n⟩) = .ok place) : place = e :=
    not_ne_iff.mp fun ne =>
      beyond (unseen.file.avoids begins (FileTree.leadsTo_of_locate located') ne)
  obtain ⟨node, found⟩ := Option.isSome_iff_exists.mp (FileTree.mem_names.mp name)
  -- Only a link can lead to another place than its own.
  obtain ⟨target, rfl⟩ : ∃ target, node = .link target := by
    by_contra plain
    have leads := FileTree.leadsTo_join_entry proper located passable found (not_exists.mp plain)
    exact beyond (unseen.file.avoids begins leads other)
  have link : (w.tree.prune e).node? (here.place ++ [n]) = some (.link target) := by
    rw [FileTree.node?_prune_of_apart ?_, found]
    rw [List.prefix_concat_iff, not_or]
    exact ⟨Ne.symm other, apart⟩
  have ne := unseen.unlinked.locate_ne given proper leads found
  obtain same | ⟨-, before, after⟩ := unseen.file.locate_prune_of_ne begins ne
  · left
    cases leads' : w.tree.locate w.cwd ((w.pathOf here.names).join ⟨n⟩) with
    | ok place => exact absurd (elsewhere leads' ▸ leads') ne
    | error cause =>
      rw [move_of_lost w found leads']
      exact move_of_lost (w.without e unseen.root) link (same.trans leads')
  · refine .inr ⟨_, ⟨beyond, fun detached => beyond ?_⟩, move_of_lost w found before, ?_⟩
    · exact avoids.join detached proper located other
    · exact move_of_lost (w.without e unseen.root) link after

/-- Where a list is gone through without some of its members, of which nothing comes, the results
are related one by one if those of the others are. -/
theorem forall₂_flatMap_filter {α β γ : Type} {r : β → γ → Prop} {as : List α} {kept : α → Bool}
    {f : α → List β} {g : α → List γ} (on : ∀ a ∈ as, kept a = true → List.Forall₂ r (f a) (g a))
    (off : ∀ a ∈ as, kept a = false → f a = []) :
    List.Forall₂ r (as.flatMap f) ((as.filter kept).flatMap g) := by
  induction as with
  | nil => exact .nil
  | cons a as ih =>
    have behind := ih (fun b member => on b (List.mem_cons_of_mem a member))
      fun b member => off b (List.mem_cons_of_mem a member)
    rw [List.flatMap_cons]
    cases keeps : kept a with
    | true =>
      rw [List.filter_cons_of_pos keeps, List.flatMap_cons]
      exact List.rel_append (on a List.mem_cons_self keeps) behind
    | false =>
      rw [List.filter_cons_of_neg (by simp [keeps]), off a List.mem_cons_self keeps,
        List.nil_append]
      exact behind

theorem Trail.below_prune (h : w.Trail (here :: trail)) (unseen : w.UnseenFile e)
    (listed : w.tree.list w.cwd (w.pathOf here.names) = .ok children) (name : n ∈ children)
    (other : here.place ++ [n] ≠ e)
    (deeper : ∀ {station : Station}, w.Trail (station :: here :: trail) →
      List.Forall₂ (Item.SameUpToReason (w.ReasonMayChange e))
        (w.visit depth station (here :: trail))
        ((w.without e unseen.root).visit depth station (here :: trail))) :
    List.Forall₂ (Item.SameUpToReason (w.ReasonMayChange e)) (w.below depth here trail n)
      ((w.without e unseen.root).below depth here trail n) := by
  rw [Walk.below, Walk.below]
  obtain same | ⟨path, mayChange, before, after⟩ := h.move_prune unseen listed name other
  · rw [same]
    cases moved : w.move here trail n with
    | descend station => exact deeper (h.descend listed name moved)
    | give item => exact .cons (.same item) .nil
    | skip => exact .nil
  · rw [before, after]
    exact .cons (.misled mayChange) .nil

/-- Below a trail, the walk meets the same items without the file, up to the reason why a link whose
way goes on from it cannot be followed. -/
theorem Trail.visit_prune (h : w.Trail (here :: trail)) (unseen : w.UnseenFile e) :
    List.Forall₂ (Item.SameUpToReason (w.ReasonMayChange e)) (w.visit depth here trail)
      ((w.without e unseen.root).visit depth here trail) := by
  induction depth generalizing here trail with
  | zero => exact .nil
  | succ depth ih =>
    have avoids := (h.avoids_of_unseen unseen).1
    rw [visit_succ, visit_succ]
    cases listed : w.tree.list w.cwd (w.pathOf here.names) with
    | error cause =>
      have listed' : (w.without e unseen.root).tree.list (w.without e unseen.root).cwd
          ((w.without e unseen.root).pathOf here.names) = .error cause :=
        avoids.list_eq_error listed
      rw [listed']
      exact .cons (.same _) .nil
    | ok children =>
      have listed' : (w.without e unseen.root).tree.list (w.without e unseen.root).cwd
          ((w.without e unseen.root).pathOf here.names) =
            .ok (children.filter fun n => here.place ++ [n] ≠ e) :=
        avoids.list_eq_ok (h.list_eq_ok listed).1 listed
      rw [listed']
      apply forall₂_flatMap_filter
      · intro n name other
        rw [decide_eq_true_eq] at other
        exact h.below_prune unseen listed name other fun deeper => ih deeper
      · intro n _ at_e
        rw [decide_eq_false_iff_not, not_not] at at_e
        rw [Walk.below, move_of_unseen unseen at_e]

/-- More levels than a walk has at its disposal give nothing new. -/
theorem items_eq_visit (enough : maxDepth w.tree ≤ depth) :
    w.items = w.visit depth ⟨w.boundary, []⟩ [] := by
  have begun : w.Trail [⟨w.boundary, []⟩] := .start
  have levels : w.sightings = w.sight depth ⟨w.boundary, []⟩ [] :=
    begun.sight_eq (Nat.le_refl (maxDepth w.tree)) enough
  rw [← map_item_sightings, ← map_item_sight, levels]

/-- Without a file that it does not show and that no link leads to, a walk meets the same items, up to
the reason why a link whose way goes on from the file cannot be followed. -/
theorem items_prune (unseen : w.UnseenFile e) :
    List.Forall₂ (Item.SameUpToReason (w.ReasonMayChange e)) w.items
      (w.without e unseen.root).items := by
  have begun : w.Trail [⟨w.boundary, []⟩] := .start
  -- The two trees need not have the same depth.
  rw [items_eq_visit (Nat.le_add_right (maxDepth w.tree) (maxDepth (w.tree.prune e))),
    items_eq_visit (Nat.le_add_left (maxDepth (w.tree.prune e)) (maxDepth w.tree))]
  exact begun.visit_prune unseen

theorem filterMap_names?_of_sameUpToReason {mayChange : Path → Prop} {items items' : List Item}
    (alike : List.Forall₂ (Item.SameUpToReason mayChange) items items') :
    items'.filterMap Item.names? = items.filterMap Item.names? := by
  induction alike with
  | nil => rfl
  | cons first _ ih =>
    cases first with
    | same item => rw [List.filterMap_cons, List.filterMap_cons, ih]
    | misled _ => exact ih

/-- The walk gives the same files. -/
theorem files_prune (unseen : w.UnseenFile e) :
    (w.without e unseen.root).files.1 = w.files.1 := by
  rw [files_eq, files_eq, filterMap_names?_of_sameUpToReason (items_prune unseen)]
  rfl

/-- The files that a walk gives are elsewhere. -/
theorem avoids_of_file_mem_items (unseen : w.UnseenFile e) (member : .file names ∈ w.items) :
    w.tree.PathAvoids w.cwd (w.pathOf names) e := by
  obtain ⟨here, trail, children, n, place, bytes, accessible, h, listed, -, shows, rfl, admitted,
    -⟩ := file_mem_items_iff.mp member
  obtain ⟨located, -, -⟩ := h.list_eq_ok listed
  obtain ⟨-, given, -, leads⟩ := FileTree.locate_eq_ok.mp located
  have proper := FileTree.proper_of_node? admitted.isSome
  have begins : ¬e <+: FileTree.origin w.cwd (w.pathOf (here.names ++ [n])) := by
    rw [pathOf_concat, FileTree.origin_join given proper]
    exact (h.avoids_of_unseen unseen).1.begins
  refine unseen.file.avoids begins (h.leadsTo listed admitted) ?_
  rintro rfl
  cases admitted with
  | entry _ _ => exact absurd (shows.symm.trans (unseen.hidden _ _ rfl)) (by simp)
  | link found located' _ =>
    rw [pathOf_concat] at located'
    exact unseen.unlinked.locate_ne given proper leads found located'

theorem start?_of_not_isDirectory {tree : FileTree} {cwd : Place} {f : WalkFilter} {path r : Path}
    (absolute : Path.absolute? cwd.path path = some r) (closed : tree.isDirectory cwd r = false) :
    start? tree cwd f path = .error ⟨path, .noDirectory⟩ := by
  simp [start?, absolute, closed]

/-- A walk that begins does so without the file, and one that fails to fails alike. -/
theorem start?_prune_of_file {tree : FileTree} (file : tree.HasFile e) (cwd : Place)
    (f : WalkFilter) (path : Path) :
    match start? tree cwd f path with
    | .error error => start? (tree.prune e) cwd f path = .error error
    | .ok w => ∃ avoids, start? (tree.prune e) cwd f path = .ok (w.without e avoids) := by
  by_cases root : ∀ r, Path.absolute? cwd.path path = some r → tree.PathAvoids cwd r e
  · cases started : start? tree cwd f path with
    | error error => exact start?_prune_of_error root started
    | ok w => exact start?_prune_of_ok root started
  · -- The path to a directory would avoid the file.
    simp only [not_forall] at root
    obtain ⟨r, absolute, asks⟩ := root
    have begins : ¬e <+: FileTree.origin cwd r :=
      file.not_prefix_origin (Path.absolute?_eq_some (Path.isAbsolute_place cwd) absolute).1
    have closed : tree.isDirectory cwd r = false := by
      rw [← Bool.not_eq_true, FileTree.isDirectory_eq_true]
      rintro ⟨place, accessible, located, found⟩
      exact asks (file.avoids begins (FileTree.leadsTo_of_locate located)
        (file.ne_of_directory found))
    rw [start?_of_not_isDirectory absolute closed]
    exact start?_of_not_isDirectory absolute ((file.isDirectory_prune begins).trans closed)

end Walk

end RemoteIndex
