import RemoteIndex.Proofs.Lookup
import RemoteIndex.Proofs.Lossy

/-!
# Clean paths

A clean path goes where it leads without detours: up first, if at all, and not from the root; then
from name to name. It is shown as the names with single slashes between them.
-/

namespace RemoteIndex

/-- A name that leads on from a directory. -/
structure Name.Leading (n : Name) : Prop where
  nonempty : n ≠ []
  undivided : Path.slash ∉ n
  not_here : n ≠ Path.hereName
  not_up : n ≠ Path.upName

namespace Path

variable {p : Path} {n : Name} {names ns : List Name} {bs : List UInt8} {c : Component}
  {cs done : List Component} {absolute : Bool}

/-! ## Components -/

/-- The components that can stand behind the first one of a path. -/
inductive Component.Inner : Component → Prop
  | here : Component.Inner .here
  | up : Component.Inner .up
  | name {n : Name} : n.Leading → Component.Inner (.name n)

theorem slash_notMem_of_mem_split (member : n ∈ split bs) : slash ∉ n := by
  induction bs generalizing n with
  | nil =>
    rw [split, List.mem_singleton] at member
    rw [member]
    exact List.not_mem_nil
  | cons b bs ih =>
    obtain ⟨first, rest, pieces⟩ := List.exists_cons_of_ne_nil (split_ne_nil bs)
    rw [pieces] at ih
    rw [split] at member
    split at member
    · rcases List.mem_cons.mp member with rfl | behind
      · exact List.not_mem_nil
      · exact ih (pieces ▸ behind)
    · next other =>
      rw [pieces] at member
      rcases List.mem_cons.mp member with rfl | behind
      · intro slashed
        rcases List.mem_cons.mp slashed with same | slashed
        · exact other same.symm
        · exact ih List.mem_cons_self slashed
      · exact ih (List.mem_cons_of_mem _ behind)

theorem inner_of_ofName? (undivided : slash ∉ n) (h : Component.ofName? n = some c) : c.Inner := by
  rw [Component.ofName?] at h
  split at h
  · exact absurd h (by simp)
  · next busy =>
    split at h
    · obtain rfl := Option.some.inj h
      exact .up
    · next other =>
      obtain rfl := Option.some.inj h
      simp only [isIdle, Bool.or_eq_true, List.isEmpty_iff, beq_iff_eq, not_or] at busy
      exact .name ⟨busy.1, undivided, busy.2, other⟩

/-- The root that the components of an absolute path begin with. -/
def rootOf (absolute : Bool) : List Component := if absolute then [.root] else []

theorem components_eq (p : Path) :
    ∃ rest, p.components = rootOf p.isAbsolute ++ rest ∧ ∀ c ∈ rest, c.Inner := by
  obtain ⟨n, ns, stretches⟩ := List.exists_cons_of_ne_nil (split_ne_nil p.bytes)
  have inner : ∀ c ∈ ns.filterMap Component.ofName?, c.Inner := by
    intro c member
    obtain ⟨m, among, named⟩ := List.mem_filterMap.mp member
    have piece : m ∈ split p.bytes := stretches ▸ List.mem_cons_of_mem n among
    exact inner_of_ofName? (slash_notMem_of_mem_split piece) named
  rw [components, stretches]
  cases absolute : p.isAbsolute with
  | true => exact ⟨_, rfl, inner⟩
  | false =>
    by_cases here : n = hereName
    · exact ⟨_, if_pos here, List.forall_mem_cons.mpr ⟨.here, inner⟩⟩
    · refine ⟨_, if_neg here, ?_⟩
      intro c member
      rcases List.mem_append.mp member with first | behind
      · have piece : n ∈ split p.bytes := stretches ▸ List.mem_cons_self
        exact inner_of_ofName? (slash_notMem_of_mem_split piece) (Option.mem_toList.mp first)
      · exact inner c behind

/-! ## Settled components -/

/-- The components of a path without detours. There is no way up from the root. -/
def straight (absolute : Bool) (ups : Nat) (names : List Name) : List Component :=
  (if absolute then [.root] else List.replicate ups .up) ++ names.map .name

/-- The components, the last one first, are those of a path without detours. -/
def Settled (absolute : Bool) (done : List Component) : Prop :=
  ∃ ups names, done = (straight absolute ups names).reverse ∧ ∀ n ∈ names, n.Leading

theorem settled_rootOf (absolute : Bool) : Settled absolute (rootOf absolute) := by
  refine ⟨0, [], ?_, ?_⟩
  · cases absolute <;> rfl
  · intro n member
    exact absurd member List.not_mem_nil

theorem straight_concat (absolute : Bool) (ups : Nat) (names : List Name) (n : Name) :
    (straight absolute ups (names ++ [n])).reverse =
      .name n :: (straight absolute ups names).reverse := by
  simp [straight]

theorem straight_nil (absolute : Bool) (ups : Nat) :
    (straight absolute ups []).reverse =
      if absolute then [.root] else List.replicate ups .up := by
  cases absolute <;> simp [straight]

/-- A name is added, and a way up takes one away, or else is added in front. -/
theorem Settled.settle (h : Settled absolute done) (inner : c.Inner) :
    Settled absolute (Component.settle done c) := by
  obtain ⟨ups, names, rfl, leading⟩ := h
  cases inner with
  | here => exact ⟨ups, names, rfl, leading⟩
  | @name n leads =>
    refine ⟨ups, names ++ [n], ?_, ?_⟩
    · rw [straight_concat]
      rfl
    · intro m member
      rcases List.mem_append.mp member with before | last
      · exact leading m before
      · exact List.mem_singleton.mp last ▸ leads
  | up =>
    rcases List.eq_nil_or_concat names with rfl | ⟨before, n, rfl⟩
    · rw [straight_nil]
      cases absolute with
      | true => exact ⟨ups, [], straight_nil true ups |>.symm, leading⟩
      | false =>
        refine ⟨ups + 1, [], ?_, leading⟩
        rw [straight_nil]
        cases ups <;> rfl
    · rw [List.concat_eq_append, straight_concat]
      refine ⟨ups, before, rfl, ?_⟩
      intro m member
      exact leading m (by simp [member])

theorem Settled.foldl (h : Settled absolute done) (inner : ∀ c ∈ cs, c.Inner) :
    Settled absolute (cs.foldl Component.settle done) := by
  induction cs generalizing done with
  | nil => exact h
  | cons c cs ih =>
    obtain ⟨first, behind⟩ := List.forall_mem_cons.mp inner
    exact ih (h.settle first) behind

/-- A clean path has the components of a path without detours, or is `.`. -/
theorem clean_eq (p : Path) :
    ∃ ups names, (∀ n ∈ names, n.Leading) ∧
      p.clean = if straight p.isAbsolute ups names = [] then ⟨hereName⟩
        else ofComponents (straight p.isAbsolute ups names) := by
  obtain ⟨rest, components, inner⟩ := components_eq p
  have started : p.components.foldl Component.settle [] =
      rest.foldl Component.settle (rootOf p.isAbsolute) := by
    rw [components, List.foldl_append]
    cases p.isAbsolute <;> rfl
  obtain ⟨ups, names, settled, leading⟩ := (settled_rootOf p.isAbsolute).foldl inner
  refine ⟨ups, names, leading, ?_⟩
  rw [clean, started, settled, List.reverse_reverse]
  split
  · next nothing => rw [if_pos nothing]
  · next other => rw [if_neg other]

/-! ## How clean paths are written -/

/-- What can stand between two slashes of a clean path. -/
structure IsStretch (n : Name) : Prop where
  nonempty : n ≠ []
  undivided : slash ∉ n

theorem isStretch_upName : IsStretch upName := ⟨by decide, by decide⟩

theorem unsplit_cons_append (bs cs : List UInt8) (ns : List Name) :
    unsplit ((bs ++ slash :: cs) :: ns) = bs ++ slash :: unsplit (cs :: ns) := by
  cases ns with
  | nil => rfl
  | cons n ns => simp [unsplit]

theorem IsStretch.endsInSlash_append (h : IsStretch n) (bs : List UInt8) :
    (⟨bs ++ n⟩ : Path).endsInSlash = false :=
  Path.endsInSlash_append bs h.nonempty h.undivided

/-- Stretches behind a path, with just one slash before each. -/
theorem bytes_extend_stretches (given : p.bytes ≠ []) (closed : p.endsInSlash = false)
    (h : ∀ n ∈ ns, IsStretch n) : (p.extend ns).bytes = unsplit (p.bytes :: ns) := by
  induction ns generalizing p with
  | nil => rfl
  | cons n ns ih =>
    obtain ⟨stretch, behind⟩ := List.forall_mem_cons.mp h
    have joined : p.join ⟨n⟩ = ⟨p.bytes ++ slash :: n⟩ := by
      rw [join, not_isAbsolute_of_notMem stretch.undivided, closed]
      simp [given]
    have split : p.bytes ++ slash :: n = p.bytes ++ [slash] ++ n := by simp
    have next : (⟨p.bytes ++ slash :: n⟩ : Path).endsInSlash = false := by
      rw [split]
      exact stretch.endsInSlash_append _
    change ((p.join ⟨n⟩).extend ns).bytes = _
    rw [joined, ih (by simp) next behind, unsplit_cons_append]
    rfl

theorem bytes_extend_empty (h : ∀ n ∈ ns, IsStretch n) :
    ((⟨[]⟩ : Path).extend ns).bytes = unsplit ns := by
  cases ns with
  | nil => rfl
  | cons n ns =>
    obtain ⟨stretch, behind⟩ := List.forall_mem_cons.mp h
    have joined : (⟨[]⟩ : Path).join ⟨n⟩ = ⟨n⟩ := by
      rw [join, not_isAbsolute_of_notMem stretch.undivided]
      rfl
    change (((⟨[]⟩ : Path).join ⟨n⟩).extend ns).bytes = _
    rw [joined]
    exact bytes_extend_stretches stretch.nonempty (stretch.endsInSlash_append []) behind

theorem bytes_extend_root (h : ∀ n ∈ ns, IsStretch n) :
    ((⟨[slash]⟩ : Path).extend ns).bytes = slash :: unsplit ns := by
  cases ns with
  | nil => rfl
  | cons n ns =>
    obtain ⟨stretch, behind⟩ := List.forall_mem_cons.mp h
    have joined : (⟨[slash]⟩ : Path).join ⟨n⟩ = ⟨slash :: n⟩ := by
      rw [join, not_isAbsolute_of_notMem stretch.undivided]
      rfl
    have closed : (⟨slash :: n⟩ : Path).endsInSlash = false := stretch.endsInSlash_append [slash]
    change (((⟨[slash]⟩ : Path).join ⟨n⟩).extend ns).bytes = _
    rw [joined, bytes_extend_stretches (by simp) closed behind]
    exact unsplit_cons_append [] n ns

/-- The stretches that a path without detours is written with. -/
def stretches (absolute : Bool) (ups : Nat) (names : List Name) : List Name :=
  (if absolute then [] else List.replicate ups upName) ++ names

theorem isStretch_of_mem_stretches {ups : Nat} (leading : ∀ n ∈ names, n.Leading)
    (member : n ∈ stretches absolute ups names) : IsStretch n := by
  rcases List.mem_append.mp member with first | behind
  · split at first
    · exact absurd first List.not_mem_nil
    · rw [List.eq_of_mem_replicate first]
      exact isStretch_upName
  · exact ⟨(leading n behind).nonempty, (leading n behind).undivided⟩

/-- Components are put together as the stretches that they are written as. -/
theorem foldl_join (p : Path) (cs : List Component) :
    cs.foldl (fun p c => p.join c.path) p = p.extend (cs.map fun c => c.path.bytes) := by
  rw [extend, List.foldl_map]

theorem bytes_ofComponents_straight {ups : Nat} (leading : ∀ n ∈ names, n.Leading) :
    (ofComponents (straight absolute ups names)).bytes =
      (if absolute then [slash] else []) ++ unsplit (stretches absolute ups names) := by
  have stretch {n : Name} (member : n ∈ stretches absolute ups names) : IsStretch n :=
    isStretch_of_mem_stretches leading member
  have written : (names.map Component.name).map (fun c => c.path.bytes) = names := by
    rw [List.map_map]
    exact List.map_id names
  cases absolute with
  | true =>
    have rooted : ofComponents (straight true ups names) =
        (names.map Component.name).foldl (fun p c => p.join c.path) ⟨[slash]⟩ := rfl
    rw [rooted, foldl_join, written]
    exact bytes_extend_root fun _ => stretch
  | false =>
    have mapped : (straight false ups names).map (fun c => c.path.bytes) =
        stretches false ups names := by
      rw [straight, List.map_append, written]
      change (List.replicate ups Component.up).map _ ++ names = List.replicate ups upName ++ names
      rw [List.map_replicate]
      rfl
    rw [ofComponents, foldl_join, mapped]
    exact bytes_extend_empty fun _ => stretch

/-! ## How clean paths are shown -/

/-- The text of a name that leads on from a directory. -/
structure IsName (text : String) : Prop where
  nonempty : text ≠ ""
  undivided : '/' ∉ text.toList
  not_here : text ≠ "."
  not_up : text ≠ ".."

/-- A text that names a way without detours: names with single slashes between them, behind a slash
in an absolute one, and behind any number of `..` in a relative one; `.` if there is nothing to
name. -/
inductive IsDirect : Bool → String → Prop
  | absolute {names : List String} : (∀ n ∈ names, IsName n) →
      IsDirect true ("/" ++ "/".intercalate names)
  | relative {ups : Nat} {names : List String} : (∀ n ∈ names, IsName n) →
      0 < ups ∨ names ≠ [] → IsDirect false ("/".intercalate (List.replicate ups ".." ++ names))
  | here : IsDirect false "."

open Text.Utf8 (decodeLossy decodeLossy_append shows_decodeLossy isSingle)

theorem decodeLossy_unsplit (ns : List Name) :
    decodeLossy (unsplit ns) = "/".intercalate (ns.map decodeLossy) := by
  fun_induction unsplit ns with
  | case1 => rfl
  | case2 n => rw [List.map_singleton, String.intercalate_singleton]
  | case3 n m ns ih =>
    have small : slash < 0x80 := by decide
    rw [decodeLossy_append small, ih]
    simp only [List.map_cons, String.intercalate_cons_cons]
    rfl

theorem decodeLossy_slash (bs : List UInt8) :
    decodeLossy (slash :: bs) = "/" ++ decodeLossy bs := by
  have small : slash < 0x80 := by decide
  exact decodeLossy_append small [] bs

/-- A name that leads on is shown as one. -/
theorem isName_decodeLossy (h : n.Leading) : IsName (decodeLossy n) := by
  have shows := shows_decodeLossy n
  refine ⟨?_, ?_, ?_, ?_⟩
  · intro empty
    rw [empty] at shows
    exact h.nonempty (shows.eq (by decide))
  · intro slashed
    have small : slash < 0x80 := by decide
    exact h.undivided (shows.mem small slashed)
  · intro here
    rw [here] at shows
    exact h.not_here (shows.eq (by decide))
  · intro up
    rw [up] at shows
    exact h.not_up (shows.eq (by decide))

/-- A clean path is shown without detours. -/
theorem isDirect_display_clean (p : Path) : IsDirect p.isAbsolute p.clean.display := by
  obtain ⟨ups, names, leading, cleaned⟩ := clean_eq p
  have shown : ∀ text ∈ names.map decodeLossy, IsName text := by
    intro text member
    obtain ⟨n, among, rfl⟩ := List.mem_map.mp member
    exact isName_decodeLossy (leading n among)
  rw [cleaned, display]
  cases absolute : p.isAbsolute with
  | true =>
    rw [if_neg (by simp [straight]), bytes_ofComponents_straight leading]
    change IsDirect true (decodeLossy (slash :: unsplit names))
    rw [decodeLossy_slash, decodeLossy_unsplit]
    exact .absolute shown
  | false =>
    by_cases nothing : straight false ups names = []
    · rw [if_pos nothing]
      exact .here
    · rw [if_neg nothing, bytes_ofComponents_straight leading]
      change IsDirect false (decodeLossy (unsplit (stretches false ups names)))
      have texts : (stretches false ups names).map decodeLossy =
          List.replicate ups ".." ++ names.map decodeLossy := by
        rw [stretches, List.map_append]
        change (List.replicate ups upName).map _ ++ _ = _
        rw [List.map_replicate]
        rfl
      rw [decodeLossy_unsplit, texts]
      apply IsDirect.relative shown
      rcases Nat.eq_zero_or_pos ups with rfl | climbs
      · right
        intro none
        rw [List.map_eq_nil_iff.mp none] at nothing
        exact nothing rfl
      · exact .inl climbs

end Path

end RemoteIndex
