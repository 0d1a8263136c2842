import Mathlib.Data.List.Basic
import RemoteIndex.Proofs.Lookup

/-!
# Lookups that pass an entry by

What is deleted from a file tree is missed only by lookups whose way asks for it. A path that avoids
an entry (`FileTree.PathAvoids`) leads to the same place, and to the same node there, with the entry
and all below it as without. The way of a path goes on along the targets of links, so what has to be
known of an entry is that no other link's way asks for it (`FileTree.Detached`).
-/

namespace RemoteIndex

namespace Name

theorem mergeSort_filter (kept : Name → Bool) (ns : List Name) :
    (ns.filter kept).mergeSort atMost = (ns.mergeSort atMost).filter kept := by
  have transitive : ∀ a b c : Name, atMost a b = true → atMost b c = true → atMost a c = true := by
    intro a b c ab bc
    simp only [atMost, decide_eq_true_eq] at ab bc ⊢
    exact List.le_trans ab bc
  have total : ∀ a b : Name, (atMost a b || atMost b a) = true := by
    intro a b
    simp only [atMost, Bool.or_eq_true, decide_eq_true_eq]
    exact List.le_total a b
  have sorted := List.pairwise_mergeSort transitive total
  refine List.Perm.eq_of_pairwise ?_ (sorted _) ((sorted ns).filter kept) ?_
  · intro a b _ _ ab ba
    simp only [atMost, decide_eq_true_eq] at ab ba
    exact List.le_antisymm ab ba
  · exact (List.mergeSort_perm _ _).trans ((List.mergeSort_perm ns atMost).symm.filter kept)

end Name

namespace FileTree

variable {t : FileTree} {e here there : Place} {links : Nat} {cwd : Place} {p : Path} {n : Name}
  {ss : List Step}

/-! ## The tree without an entry -/

/-- Where places are kept or dropped, what is looked up at a place that is kept is there still. -/
theorem lookup_filter (kept : Place → Bool) (q : Place) (nodes : List (Place × Node)) :
    (nodes.filter fun x => kept x.1).lookup q = if kept q then nodes.lookup q else none := by
  induction nodes with
  | nil => simp
  | cons x nodes ih =>
    obtain ⟨place, node⟩ := x
    rw [List.filter_cons, List.lookup_cons]
    by_cases same : q = place
    · subst same
      cases keeps : kept q with
      | true => simp
      | false => simp [ih, keeps]
    · have other : (q == place) = false := beq_eq_false_iff_ne.mpr same
      rw [other]
      cases kept place with
      | true => exact (List.lookup_cons ..).trans (by rw [other]; exact ih)
      | false => exact ih

theorem node?_prune_of_apart {q : Place} (apart : ¬e <+: q) :
    (t.prune e).node? q = t.node? q := by
  have kept : (!e.isPrefixOf q) = true := by simpa [← List.isPrefixOf_iff_prefix] using apart
  rw [node?, node?, prune, lookup_filter fun place => !e.isPrefixOf place, if_pos kept]

/-- Of the names in a directory, the one of the deleted entry is missing. -/
theorem names_prune (apart : ¬e <+: here) :
    (t.prune e).names here = (t.names here).filter fun n => here ++ [n] ≠ e := by
  rw [names, names, ← Name.mergeSort_filter, prune, List.filterMap_filter, List.filter_filterMap]
  congr 2
  funext x
  cases named : nameIn? here x.1 with
  | none => simp
  | some n =>
    have gone : e.isPrefixOf (here ++ [n]) = decide (here ++ [n] = e) := by
      rw [Bool.eq_iff_iff, List.isPrefixOf_iff_prefix, decide_eq_true_eq, List.prefix_concat_iff]
      simp [apart, eq_comm]
    simp only [nameIn?_eq_some.mp named, gone, Option.filter_some, decide_not]

/-- The step does not go down to `e`. -/
def Step.Misses (here e : Place) (s : Step) : Prop := ∀ n, s = .down n → here ++ [n] ≠ e

theorem Step.Misses.apart (h : (Step.down n).Misses here e) (apart : ¬e <+: here) :
    ¬e <+: here ++ [n] := by
  rw [List.prefix_concat_iff]
  rintro (same | below)
  · exact h n rfl same.symm
  · exact apart below

theorem land_prune {s : Step} (apart : ¬e <+: here) (misses : s.Misses here e) :
    (t.prune e).land here s = t.land here s := by
  rw [land.eq_def, land.eq_def, node?_prune_of_apart apart]
  cases s with
  | down n => simp only [node?_prune_of_apart (misses.apart apart)]
  | _ => rfl

/-- A step comes to where it is made, to a directory above that, or to the name it goes down to. -/
theorem place_of_land {s : Step} {next : Place} (lands : t.land here s = .ok (.place next)) :
    next <+: here ∨ ∃ n, s = .down n ∧ next = here ++ [n] := by
  cases s with
  | down n =>
    obtain ⟨-, -, node, -, landing⟩ := land_down.mp lands
    refine .inr ⟨n, rfl, ?_⟩
    cases node with
    | link target => exact absurd landing (by simp [Landing.ofNode])
    | _ => simpa [Landing.ofNode] using landing
  | arrive =>
    obtain rfl : next = here := by simpa using land_arrive lands
    exact .inl (List.prefix_refl _)
  | stay =>
    rw [land.eq_def] at lands
    simp only [reduceCtorEq, if_false] at lands
    split at lands
    · split at lands
      · exact absurd lands (by simp)
      · obtain rfl : here = next := by simpa using lands
        exact .inl (List.prefix_refl _)
    · exact absurd lands (by simp)
  | up =>
    rw [land.eq_def] at lands
    simp only [reduceCtorEq, if_false] at lands
    split at lands
    · split at lands
      · exact absurd lands (by simp)
      · obtain rfl : here.dropLast = next := by simpa using lands
        exact .inl (List.dropLast_prefix here)
    · exact absurd lands (by simp)

theorem apart_of_land {s : Step} {next : Place} (apart : ¬e <+: here)
    (misses : s.Misses here e) (lands : t.land here s = .ok (.place next)) : ¬e <+: next := by
  rcases place_of_land lands with above | ⟨n, rfl, rfl⟩
  · exact fun below => apart (below.trans above)
  · exact misses.apart apart

/-- The way of a link's target begins where the link is, or at the top. -/
theorem apart_of_follow {target : Path} (apart : ¬e <+: here) :
    ¬e <+: if target.isAbsolute then [] else here := by
  split
  · intro below
    obtain rfl := List.prefix_nil.mp below
    exact apart List.nil_prefix
  · exact apart

/-! ## Ways that ask for an entry -/

/-- On the way of the steps from `here`, with at most so many links, the entry `e` is asked for. -/
inductive LooksUp (t : FileTree) (e : Place) : Nat → Place → List Step → Prop
  | here {links : Nat} {here : Place} {n : Name} {rest : List Step} :
      here ++ [n] = e → LooksUp t e links here (.down n :: rest)
  | step {links : Nat} {here next : Place} {s : Step} {rest : List Step} :
      t.land here s = .ok (.place next) → LooksUp t e links next rest →
      LooksUp t e links here (s :: rest)
  | link {links : Nat} {here : Place} {s : Step} {rest : List Step} {target : Path} :
      t.land here s = .ok (.link target) → target.bytes ≠ [] →
      LooksUp t e links (if target.isAbsolute then [] else here) (steps target ++ rest) →
      LooksUp t e (links + 1) here (s :: rest)

theorem LooksUp.mono {others : Nat} (h : t.LooksUp e links here ss) (more : links ≤ others) :
    t.LooksUp e others here ss := by
  induction h generalizing others with
  | here found => exact .here found
  | step lands _ ih => exact .step lands (ih more)
  | link lands nonempty _ ih =>
    cases others with
    | zero => omega
    | succ others => exact .link lands nonempty (ih (by omega))

theorem LooksUp.append (h : t.LooksUp e links here ss) (rest : List Step) :
    t.LooksUp e links here (ss ++ rest) := by
  induction h with
  | here found => exact .here found
  | step lands _ ih => exact .step lands ih
  | link lands nonempty _ ih =>
    rw [List.append_assoc] at ih
    exact .link lands nonempty ih

/-- A way asks for an entry in its first part or, from where that leads, in the second. -/
theorem LooksUp.split {rest : List Step} (h : t.LooksUp e links here (ss ++ rest)) :
    t.LooksUp e links here ss ∨
      ∃ middle, t.Leads links here ss middle ∧ t.LooksUp e links middle rest := by
  generalize whole : ss ++ rest = all at h
  induction h generalizing ss with
  | @here links here n behind found =>
    cases ss with
    | nil =>
      rw [List.nil_append] at whole
      exact .inr ⟨here, .done links here, whole ▸ .here found⟩
    | cons first ss =>
      obtain ⟨rfl, -⟩ := List.cons.inj whole
      exact .inl (.here found)
  | @step links here next s behind lands asks ih =>
    cases ss with
    | nil =>
      rw [List.nil_append] at whole
      exact .inr ⟨here, .done links here, whole ▸ .step lands asks⟩
    | cons first ss =>
      obtain ⟨rfl, behind⟩ := List.cons.inj whole
      rcases ih behind with front | ⟨middle, front, back⟩
      · exact .inl (.step lands front)
      · exact .inr ⟨middle, .step lands front, back⟩
  | @link links here s behind target lands nonempty asks ih =>
    cases ss with
    | nil =>
      rw [List.nil_append] at whole
      exact .inr ⟨here, .done (links + 1) here, whole ▸ .link lands nonempty asks⟩
    | cons first ss =>
      obtain ⟨rfl, followed⟩ := List.cons.inj whole
      have along : steps target ++ ss ++ rest = steps target ++ behind := by simp [← followed]
      rcases ih along with front | ⟨middle, front, back⟩
      · exact .inl (.link lands nonempty front)
      · exact .inr ⟨middle, .link lands nonempty front, back.mono (Nat.le_succ links)⟩

theorem misses_of_not_looksUp {s : Step} {rest : List Step}
    (quiet : ¬t.LooksUp e links here (s :: rest)) : s.Misses here e := by
  rintro n rfl found
  exact quiet (.here found)

/-- A way that asks for nothing of an entry does not lead to it. -/
theorem apart_of_leads (h : t.Leads links here ss there) (apart : ¬e <+: here)
    (quiet : ¬t.LooksUp e links here ss) : ¬e <+: there := by
  induction h with
  | done links here => exact apart
  | step lands _ ih =>
    refine ih (apart_of_land apart (misses_of_not_looksUp quiet) lands) ?_
    exact fun asks => quiet (.step lands asks)
  | link lands nonempty _ ih =>
    exact ih (apart_of_follow apart) fun asks => quiet (.link lands nonempty asks)

/-- A way that asks for nothing of an entry comes out the same without it, if the ways with one link
less do. -/
theorem resolve_prune_of_fewer
    (fewer : ∀ {less : Nat} {here : Place} {ss : List Step}, links = less + 1 → ¬e <+: here →
      ¬t.LooksUp e less here ss → (t.prune e).resolve less here ss = t.resolve less here ss)
    (apart : ¬e <+: here) (quiet : ¬t.LooksUp e links here ss) :
    (t.prune e).resolve links here ss = t.resolve links here ss := by
  induction ss generalizing here with
  | nil => rw [resolve_nil, resolve_nil]
  | cons s rest ih =>
    have misses := misses_of_not_looksUp quiet
    have same := land_prune (t := t) apart misses
    cases lands : t.land here s with
    | error cause => rw [resolve_cons_error (same.trans lands), resolve_cons_error lands]
    | ok landing =>
      cases landing with
      | place next =>
        rw [resolve_cons_place (same.trans lands), resolve_cons_place lands]
        exact ih (apart_of_land apart misses lands) fun asks => quiet (.step lands asks)
      | link target =>
        rw [resolve_cons_link (same.trans lands), resolve_cons_link lands]
        cases links with
        | zero => rfl
        | succ links =>
          rw [jump, jump]
          split
          · rfl
          · next full =>
            apply fewer rfl (apart_of_follow apart)
            intro asks
            exact quiet (.link lands (by simpa using full) asks)

theorem resolve_prune (apart : ¬e <+: here) (quiet : ¬t.LooksUp e links here ss) :
    (t.prune e).resolve links here ss = t.resolve links here ss := by
  induction links generalizing here ss with
  | zero => exact resolve_prune_of_fewer (fun none => absurd none (by simp)) apart quiet
  | succ links ih =>
    apply resolve_prune_of_fewer _ apart quiet
    intro less here ss one apart quiet
    obtain rfl := Nat.succ.inj one
    exact ih apart quiet

/-! ## Paths that avoid an entry -/

/-- The way of the path does not begin at the entry `e` or below it, and asks for nothing of it. -/
structure PathAvoids (t : FileTree) (cwd : Place) (p : Path) (e : Place) : Prop where
  begins : ¬e <+: origin cwd p
  quiet : ¬t.LooksUp e maxLinks (origin cwd p) (steps p)

/-- No link other than `e` itself and those below it has a way that asks for `e`. -/
def Detached (t : FileTree) (e : Place) : Prop :=
  ∀ here n target, t.node? (here ++ [n]) = some (.link target) → ¬e <+: here ++ [n] →
    ¬t.LooksUp e maxLinks (if target.isAbsolute then [] else here) (steps target)

namespace PathAvoids

theorem locate (h : t.PathAvoids cwd p e) : (t.prune e).locate cwd p = t.locate cwd p := by
  rw [FileTree.locate, FileTree.locate]
  split
  · rfl
  · split
    · rfl
    · split
      · rfl
      · exact resolve_prune h.begins h.quiet

theorem apart (h : t.PathAvoids cwd p e) (located : t.locate cwd p = .ok there) : ¬e <+: there :=
  apart_of_leads (leadsTo_of_locate located) h.begins h.quiet

theorem stat (h : t.PathAvoids cwd p e) : (t.prune e).stat cwd p = t.stat cwd p := by
  rw [FileTree.stat, FileTree.stat, h.locate]
  cases located : t.locate cwd p with
  | error cause => rfl
  | ok place =>
    simp only [bind, Except.bind]
    rw [node?_prune_of_apart (h.apart located)]

theorem read (h : t.PathAvoids cwd p e) : (t.prune e).read cwd p = t.read cwd p := by
  rw [FileTree.read, FileTree.read, h.stat]

theorem readText (h : t.PathAvoids cwd p e) : (t.prune e).readText cwd p = t.readText cwd p := by
  rw [FileTree.readText, FileTree.readText, h.read]

theorem isDirectory (h : t.PathAvoids cwd p e) :
    (t.prune e).isDirectory cwd p = t.isDirectory cwd p := by
  rw [FileTree.isDirectory, FileTree.isDirectory, h.stat]

theorem list_eq_ok (h : t.PathAvoids cwd p e) (located : t.locate cwd p = .ok here)
    (listed : t.list cwd p = .ok children) :
    (t.prune e).list cwd p = .ok (children.filter fun n => here ++ [n] ≠ e) := by
  obtain ⟨place, located', listable, rfl⟩ := FileTree.list_eq_ok.mp listed
  obtain rfl := Except.ok.inj (located'.symm.trans located)
  have apart := h.apart located
  refine FileTree.list_eq_ok.mpr ⟨place, h.locate.trans located, ?_, (names_prune apart).symm⟩
  rw [node?_prune_of_apart apart, listable]

theorem list_eq_error {cause : FileError} (h : t.PathAvoids cwd p e)
    (closed : t.list cwd p = .error cause) : (t.prune e).list cwd p = .error cause := by
  rw [FileTree.list] at closed ⊢
  rw [h.locate]
  cases located : t.locate cwd p with
  | error other => simpa [located, bind, Except.bind] using closed
  | ok place =>
    simp only [located, bind, Except.bind] at closed ⊢
    rw [node?_prune_of_apart (h.apart located)]
    split at closed
    · exact absurd closed (by simp)
    · next denied => simpa [denied] using closed
    · next open_ shut => simpa using closed

/-- Behind a path that avoids an entry, another name does too if it is not the entry's. -/
theorem join (h : t.PathAvoids cwd p e) (alone : t.Detached e) (proper : n.Proper)
    (located : t.locate cwd p = .ok here) (other : here ++ [n] ≠ e) :
    t.PathAvoids cwd (p.join ⟨n⟩) e := by
  obtain ⟨-, given, -, leads⟩ := locate_eq_ok.mp located
  have apart := h.apart located
  have misses : (Step.down n).Misses here e := by
    rintro m same found
    obtain rfl := Step.down.inj same
    exact other found
  constructor
  · rw [origin_join given proper]
    exact h.begins
  · rw [origin_join given proper, steps_join given proper]
    intro asks
    rcases asks.split with front | ⟨middle, front, back⟩
    · exact h.quiet (by rw [steps]; exact front.append _)
    · obtain rfl : middle = here := front.unique leads.names
      cases back with
      | here found => exact other found
      | step _ rest => cases rest
      | link lands nonempty rest =>
        obtain ⟨-, -, node, found, landing⟩ := land_down.mp lands
        cases node with
        | link other =>
          obtain rfl := Landing.link.inj landing
          rw [List.append_nil] at rest
          exact alone _ _ _ found (misses.apart apart) (rest.mono (Nat.le_succ _))
        | _ => exact absurd landing (by simp [Landing.ofNode])

end PathAvoids

end FileTree

end RemoteIndex
