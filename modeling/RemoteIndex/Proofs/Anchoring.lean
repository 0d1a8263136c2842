import Mathlib.Data.List.Chain
import RemoteIndex.DependencyIndex
import RemoteIndex.Proofs.Cleaning
import RemoteIndex.Proofs.Precedence

/-!
# Relative targets

A target of an import map that begins with `./` or `../` is meant from the directory of the map's
file. Whatever a specifier adds to it, what comes out is a path without detours. No two slashes are
side by side in one, so it is never an address, and nothing is recorded for it.
-/

namespace RemoteIndex

namespace Path

/-! ## Slashes side by side -/

variable {text : String} {cs : List Char} {names : List String} {absolute : Bool}

/-- No two slashes are side by side. -/
def IsSpaced (cs : List Char) : Prop := cs.IsChain fun a b => a = '/' → b ≠ '/'

theorem isSpaced_of_notMem (h : '/' ∉ cs) : IsSpaced cs := by
  apply List.Pairwise.isChain
  apply List.pairwise_of_forall_mem_list
  rintro a member b - rfl
  exact absurd member h

/-- A slash may stand behind a text that has none, and before one that begins with none. -/
theorem isSpaced_append_slash {front : List Char} (undivided : '/' ∉ front) (spaced : IsSpaced cs)
    (head : cs.head? ≠ some '/') : IsSpaced (front ++ '/' :: cs) := by
  apply List.isChain_append.mpr
  refine ⟨isSpaced_of_notMem undivided, ?_, ?_⟩
  · apply List.isChain_cons.mpr
    refine ⟨?_, spaced⟩
    rintro c first - rfl
    exact head first
  · rintro a last b - rfl
    exact absurd (List.mem_of_getLast? last) undivided

theorem head?_ne_slash {n : String} (given : n ≠ "") (undivided : '/' ∉ n.toList)
    (cs : List Char) : (n.toList ++ cs).head? ≠ some '/' := by
  have nonempty : n.toList ≠ [] := by simpa using given
  obtain ⟨c, rest, split⟩ := List.exists_cons_of_ne_nil nonempty
  rw [split] at undivided ⊢
  rintro first
  obtain rfl : c = '/' := Option.some.inj first
  exact undivided List.mem_cons_self

theorem isSpaced_intercalate (h : ∀ n ∈ names, n ≠ "" ∧ '/' ∉ n.toList) :
    IsSpaced ("/".intercalate names).toList ∧
      ("/".intercalate names).toList.head? ≠ some '/' := by
  induction names with
  | nil => exact ⟨isSpaced_of_notMem (by simp), by simp⟩
  | cons n names ih =>
    obtain ⟨⟨given, undivided⟩, behind⟩ := List.forall_mem_cons.mp h
    obtain ⟨spaced, head⟩ := ih behind
    cases names with
    | nil =>
      rw [String.intercalate_singleton]
      refine ⟨isSpaced_of_notMem undivided, ?_⟩
      simpa using head?_ne_slash given undivided []
    | cons m names =>
      have joined : ("/".intercalate (n :: m :: names)).toList =
          n.toList ++ '/' :: ("/".intercalate (m :: names)).toList := by
        simp [String.intercalate_cons_cons]
      rw [joined]
      exact ⟨isSpaced_append_slash undivided spaced head, head?_ne_slash given undivided _⟩

theorem isSpaced_of_isDirect (h : IsDirect absolute text) : IsSpaced text.toList := by
  cases h with
  | absolute named =>
    obtain ⟨spaced, head⟩ := isSpaced_intercalate fun n member =>
      ⟨(named n member).nonempty, (named n member).undivided⟩
    rw [String.toList_append]
    exact isSpaced_append_slash List.not_mem_nil spaced head
  | relative named =>
    refine (isSpaced_intercalate ?_).1
    intro n member
    rcases List.mem_append.mp member with up | member
    · rw [List.eq_of_mem_replicate up]
      decide
    · exact ⟨(named n member).nonempty, (named n member).undivided⟩
  | here => exact isSpaced_of_notMem (by decide)

/-- What leads without detours is no address. -/
theorem not_isRemote_of_isDirect (h : IsDirect absolute text) : isRemote text = false := by
  rw [Bool.eq_false_iff]
  intro remote
  obtain ⟨scheme, rest, split, -⟩ := isRemote_eq_true.mp remote
  have spaced := isSpaced_of_isDirect h
  rw [Specifier.splitScheme?_eq_some split] at spaced
  have behind := (List.isChain_append.mp spaced).2.1
  have slashes := (List.isChain_cons_cons.mp (List.isChain_cons_cons.mp behind).2).1
  exact slashes rfl rfl

/-! ## What a path asks for -/

variable {p q : Path}

theorem isAbsolute_eq_true : p.isAbsolute = true ↔ ∃ bs, p.bytes = slash :: bs := by
  rw [isAbsolute, beq_iff_eq, List.head?_eq_some_iff]

theorem isAbsolute_join_of_relative (p : Path) (relative : q.isAbsolute = false) :
    (p.join q).isAbsolute = p.isAbsolute := by
  obtain ⟨bytes⟩ := p
  rw [join, relative]
  cases bytes with
  | nil => exact relative
  | cons b bs => simp [apply_ite, isAbsolute]

theorem isIdle_of_ofName?_eq_none {n : Name} (h : Component.ofName? n = none) :
    n = [] ∨ n = hereName := by
  rw [Component.ofName?] at h
  split at h
  · next idle => simpa [isIdle] using idle
  · split at h <;> exact absurd h (by simp)

theorem exists_split_of_isAbsolute (h : p.isAbsolute = true) :
    ∃ ns, split p.bytes = [] :: ns := by
  obtain ⟨bs, bytes⟩ := isAbsolute_eq_true.mp h
  exact ⟨split bs, by rw [bytes, split, if_pos rfl]⟩

theorem exists_split_of_relative (given : p.bytes ≠ []) (h : p.isAbsolute = false) :
    ∃ n ns, split p.bytes = n :: ns ∧ n ≠ [] := by
  obtain ⟨b, bs, bytes⟩ := List.exists_cons_of_ne_nil given
  have other : b ≠ slash := by
    rintro rfl
    rw [isAbsolute_eq_true.mpr ⟨bs, bytes⟩] at h
    exact absurd h (by simp)
  obtain ⟨n, ns, pieces⟩ := List.exists_cons_of_ne_nil (split_ne_nil bs)
  exact ⟨b :: n, ns, by rw [bytes, split, if_neg other, pieces], List.cons_ne_nil b n⟩

/-- Only the empty path asks for nothing. -/
theorem components_ne_nil (given : p.bytes ≠ []) : p.components ≠ [] := by
  intro none
  cases absolute : p.isAbsolute with
  | true =>
    obtain ⟨ns, pieces⟩ := exists_split_of_isAbsolute absolute
    simp [components, pieces, absolute] at none
  | false =>
    obtain ⟨n, ns, pieces, nonempty⟩ := exists_split_of_relative given absolute
    by_cases here : n = hereName
    · simp [components, pieces, absolute, here] at none
    · simp only [components, pieces, absolute, here, if_false] at none
      cases named : Component.ofName? n with
      | none => exact (isIdle_of_ofName?_eq_none named).elim nonempty here
      | some c => simp [named] at none

/-- A path that ends in its root asks for nothing on the way. -/
theorem split_of_getLast?_components (h : p.components.getLast? = some .root) :
    p.isAbsolute = true ∧ ∀ n ∈ split p.bytes, n = [] ∨ n = hereName := by
  obtain ⟨rest, components, inner⟩ := components_eq p
  obtain rfl : rest = [] := by
    rcases List.eq_nil_or_concat rest with none | ⟨before, c, rfl⟩
    · exact none
    · rw [components, List.concat_eq_append, ← List.append_assoc, List.getLast?_concat] at h
      obtain rfl := Option.some.inj h
      have impossible := inner .root (by simp)
      cases impossible
  cases absolute : p.isAbsolute with
  | false =>
    rw [components, absolute] at h
    exact absurd h (by simp [rootOf])
  | true =>
    refine ⟨rfl, ?_⟩
    obtain ⟨ns, pieces⟩ := exists_split_of_isAbsolute absolute
    rw [absolute, Path.components, pieces] at components
    simp only [absolute, rootOf, if_true, List.append_nil, List.cons.injEq, true_and,
      List.filterMap_eq_nil_iff] at components
    rw [pieces]
    intro n member
    rcases List.mem_cons.mp member with first | behind
    · exact .inl first
    · exact isIdle_of_ofName?_eq_none (components n behind)

end Path

namespace FileTree

variable {t : FileTree} {cwd here there : Place} {p : Path} {links : Nat}

theorem land_stay {landing : Landing} (h : t.land here .stay = .ok landing) :
    landing = .place here := by
  rw [land] at h
  split at h
  · split at h
    · simpa using h.symm
    · split at h
      · exact absurd h (by simp)
      · simpa using h.symm
  · exact absurd h (by simp)

/-- Steps that ask for nothing lead nowhere else. -/
theorem Leads.eq_of_idle {ss : List Step} (h : t.Leads links here ss there)
    (idle : ∀ s ∈ ss, s = .stay ∨ s = .arrive) : there = here := by
  induction h with
  | done => rfl
  | step lands _ ih =>
    obtain ⟨first, behind⟩ := List.forall_mem_cons.mp idle
    rw [ih behind]
    rcases first with rfl | rfl
    · simpa using land_stay lands
    · simpa using land_arrive lands
  | link lands _ _ _ =>
    rcases (List.forall_mem_cons.mp idle).1 with rfl | rfl
    · exact absurd (land_stay lands) (by simp)
    · exact absurd (land_arrive lands) (by simp)

/-- A path that ends in its root leads to the root. -/
theorem LeadsTo.eq_nil (h : t.LeadsTo cwd p there) (last : p.components.getLast? = some .root) :
    there = [] := by
  obtain ⟨absolute, idle⟩ := Path.split_of_getLast?_components last
  have start : origin cwd p = [] := by rw [origin, absolute, if_pos rfl]
  rw [← start]
  apply Leads.eq_of_idle h
  intro s member
  rcases List.mem_append.mp member with named | arrives
  · obtain ⟨n, kept, rfl⟩ := List.mem_map.mp named
    obtain ⟨piece, given⟩ := List.mem_filter.mp kept
    rcases idle n piece with rfl | rfl
    · exact absurd given (by simp)
    · exact .inl rfl
  · split at arrives
    · exact .inr (List.mem_singleton.mp arrives)
    · exact absurd arrives List.not_mem_nil

theorem exists_read_of_readText {document : String} (h : t.readText cwd p = .ok document) :
    ∃ bytes, t.read cwd p = .ok bytes := by
  cases file : t.read cwd p with
  | error cause => simp [readText, file, bind, Except.bind] at h
  | ok bytes => exact ⟨bytes, rfl⟩

/-- A file is in a directory: the empty path leads nowhere, and the root is no file. -/
theorem exists_parent?_of_read {bytes : List UInt8} (h : t.read cwd p = .ok bytes) :
    ∃ dir, p.parent? = some dir := by
  obtain ⟨place, located⟩ := locate_of_read h
  obtain ⟨-, given, -, leads⟩ := locate_eq_ok.mp located
  rw [Path.parent?]
  cases last : p.components.getLast? with
  | none => exact absurd (List.getLast?_eq_none_iff.mp last) (Path.components_ne_nil given)
  | some c =>
    cases c with
    | root =>
      have top : t.node? [] = some (.directory true) := rfl
      rw [read, stat, located, leads.eq_nil last] at h
      simp [bind, Except.bind, top] at h
    | here => exact ⟨_, rfl⟩
    | up => exact ⟨_, rfl⟩
    | name n => exact ⟨_, rfl⟩

end FileTree

namespace ImportMap

variable {tree : FileTree} {cwd : Place} {path : Path} {m : ImportMap} {warnings : List Warning}
  {specifier text : String}

/-- A map that has been read has the directory of its file. -/
theorem base_of_load (loaded : load tree cwd path = .ok (m, warnings)) :
    ∃ dir, path.parent? = some dir ∧ m.base = some dir := by
  rw [load] at loaded
  split at loaded
  · exact absurd loaded (by simp)
  · next document read =>
    obtain ⟨bytes, file⟩ := FileTree.exists_read_of_readText read
    obtain ⟨dir, parent⟩ := FileTree.exists_parent?_of_read file
    refine ⟨dir, parent, ?_⟩
    split at loaded
    · exact absurd loaded (by simp)
    · obtain ⟨rfl, -⟩ := Prod.mk.inj (Except.ok.inj loaded)
      exact parent

theorem not_isAbsolute_of_isRelative (relative : isRelative text = true) :
    (Path.ofString text).isAbsolute = false := by
  have dotted : ∃ cs, text.toList = '.' :: cs := by
    rw [isRelative, Bool.or_eq_true] at relative
    rcases relative with here | up
    · obtain ⟨cs, whole⟩ := List.isPrefixOf_iff_prefix.mp here
      exact ⟨_, whole.symm⟩
    · obtain ⟨cs, whole⟩ := List.isPrefixOf_iff_prefix.mp up
      exact ⟨_, whole.symm⟩
  obtain ⟨cs, whole⟩ := dotted
  have bytes : Text.Utf8.encode text = 0x2E :: cs.flatMap String.utf8EncodeChar := by
    rw [← String.ofList_toList (s := text), whole, Text.Utf8.encode_ofList]
    rfl
  rw [Path.ofString, bytes]
  rfl

/-- A relative target comes out of a map with a directory as a path without detours, be it never so
crooked itself. -/
theorem isDirect_anchor {dir : Path} (base : m.base = some dir)
    (relative : isRelative text = true) : Path.IsDirect dir.isAbsolute (m.anchor text) := by
  have direct := Path.isDirect_display_clean (dir.join (.ofString text))
  rw [Path.isAbsolute_join_of_relative dir (not_isAbsolute_of_isRelative relative)] at direct
  simp only [anchor, base, relative, if_true]
  exact direct

/-- What a map from a file makes of a specifier by a relative target is a path without detours from
the directory of the file. It is no address, and nothing is recorded for it. -/
theorem isDirect_resolve (loaded : load tree cwd path = .ok (m, warnings))
    (put : substitute? m.entries specifier = some text) (relative : isRelative text = true) :
    (∃ dir, path.parent? = some dir ∧ m.base = some dir ∧
      Path.IsDirect dir.isAbsolute (m.resolve specifier)) ∧
    isRemote (m.resolve specifier) = false ∧
    ∀ (index : DependencyIndex) (edge : Edge),
      index.record (m.resolve specifier) edge = (index, false) ∧
      ∀ site : Site, site.text = specifier → isRemote specifier = false →
        index.record ((RawSpecifier.classify site).resolve m) edge = (index, false) := by
  obtain ⟨dir, parent, base⟩ := base_of_load loaded
  have direct : Path.IsDirect dir.isAbsolute (m.resolve specifier) := by
    rw [resolve_eq, put]
    exact isDirect_anchor base relative
  have internal := Path.not_isRemote_of_isDirect direct
  refine ⟨⟨dir, parent, base, direct⟩, internal, ?_⟩
  intro index edge
  have refused := DependencyIndex.record_of_not_isRemote internal index edge
  refine ⟨refused, ?_⟩
  rintro site rfl local'
  rw [RawSpecifier.resolve_classify, if_neg (Bool.eq_false_iff.mp local')]
  exact refused

/-- A tree with a map in a directory that has the name of a scheme. -/
def schemeTree : FileTree :=
  FileTree.empty.place [.ofString "https:", .ofString "m"]
    (.file (Text.Utf8.encode "\x7b\"imports\": \x7b\"@/\": \"./\"\x7d\x7d") true)

/-- That map. -/
def schemeMap : ImportMap := ⟨[("@/", "./")], some (.ofString "https:")⟩

theorem isDirect_resolve_scheme :
    load schemeTree [] (.ofString "https:/./m") = .ok (schemeMap, []) ∧
    substitute? schemeMap.entries "@//a.test/../b/./c" = some ".//a.test/../b/./c" ∧
    isRelative ".//a.test/../b/./c" = true ∧
    schemeMap.resolve "@//a.test/../b/./c" = "https:/b/c" ∧
    Path.IsDirect false "https:/b/c" ∧ isRemote "https:/b/c" = false := by
  have loaded : load schemeTree [] (.ofString "https:/./m") = .ok (schemeMap, []) := by
    decide +kernel
  have put : substitute? schemeMap.entries "@//a.test/../b/./c" = some ".//a.test/../b/./c" := by
    decide
  have relative : isRelative ".//a.test/../b/./c" = true := by decide
  have resolved : schemeMap.resolve "@//a.test/../b/./c" = "https:/b/c" := by decide +kernel
  obtain ⟨⟨dir, -, base, direct⟩, internal, -⟩ := isDirect_resolve loaded put relative
  obtain rfl : Path.ofString "https:" = dir := Option.some.inj base
  rw [resolved] at direct internal
  exact ⟨loaded, put, relative, resolved, direct, internal⟩

end ImportMap

end RemoteIndex
