import Mathlib.Data.List.TakeWhile
import RemoteIndex.Proofs.Anchoring
import RemoteIndex.Proofs.ByteOrder
import RemoteIndex.Proofs.Commands
import RemoteIndex.Proofs.Records

/-!
# Paths as seen from the root

The program makes its path absolute, and the walk makes it absolute once more; both have the same
components, however the path was spelled. A walk puts names behind its root. So what it gives is
below the path of the program, and is shown as those names with slashes between them, never in full.
-/

namespace RemoteIndex

namespace Path

variable {p q root : Path} {n : Name} {names ns : List Name} {c : Component}
  {cs : List Component}

/-! ## Components of absolute paths -/

theorem ne_of_ofName? (named : Component.ofName? n = some c) : c ≠ .root ∧ c ≠ .here := by
  rw [Component.ofName?] at named
  split at named
  · exact absurd named (by simp)
  · split at named
    · obtain rfl := Option.some.inj named
      exact ⟨by simp, by simp⟩
    · obtain rfl := Option.some.inj named
      exact ⟨by simp, by simp⟩

theorem bytes_ne_nil_of_isAbsolute (absolute : p.isAbsolute = true) : p.bytes ≠ [] := by
  obtain ⟨bs, bytes⟩ := isAbsolute_eq_true.mp absolute
  simp [bytes]

/-- An absolute path asks for the root and for what its stretches name. -/
theorem components_of_isAbsolute (absolute : p.isAbsolute = true) :
    p.components = .root :: (split p.bytes).filterMap Component.ofName? := by
  obtain ⟨ns, stretches⟩ := exists_split_of_isAbsolute absolute
  rw [components, stretches, List.filterMap_cons_none ofName?_nil]
  exact if_pos absolute

/-- What is asked for behind a slash does not depend on whether there is one already. -/
theorem filterMap_split_join (given : p.bytes ≠ []) (relative : q.isAbsolute = false) :
    ∃ front, split (p.join q).bytes = front ++ split q.bytes ∧
      front.filterMap Component.ofName? = (split p.bytes).filterMap Component.ofName? := by
  obtain ⟨bs, joined, ⟨bytes, -⟩ | ⟨bytes, -⟩⟩ := bytes_join_of_relative given relative
  · refine ⟨split bs, by rw [joined, split_append_slash], ?_⟩
    rw [bytes, split_append_slash]
    simp [split, ofName?_nil]
  · exact ⟨split bs, by rw [joined, split_append_slash], by rw [bytes]⟩

/-- A relative path behind an absolute one adds what its stretches name. -/
theorem components_join_of_relative (absolute : p.isAbsolute = true)
    (relative : q.isAbsolute = false) :
    (p.join q).components = p.components ++ (split q.bytes).filterMap Component.ofName? := by
  have joined : (p.join q).isAbsolute = true := by
    rw [isAbsolute_join_of_relative p relative, absolute]
  obtain ⟨front, stretches, same⟩ :=
    filterMap_split_join (bytes_ne_nil_of_isAbsolute absolute) relative
  rw [components_of_isAbsolute joined, components_of_isAbsolute absolute, stretches,
    List.filterMap_append, same]
  rfl

/-- The stretch that a component behind the first one is written as. -/
theorem Component.Inner.exists_path (inner : c.Inner) (other : c ≠ .here) :
    ∃ n, c.path = ⟨n⟩ ∧ slash ∉ n ∧ Component.ofName? n = some c := by
  cases inner with
  | here => exact absurd rfl other
  | up => exact ⟨upName, rfl, by decide, rfl⟩
  | @name n leads =>
    exact ⟨n, rfl, leads.undivided, ofName?_leading leads⟩

/-- Components that are put behind an absolute path are its last components. -/
theorem components_foldl_join (absolute : p.isAbsolute = true)
    (inner : ∀ c ∈ cs, c.Inner ∧ c ≠ .here) :
    (cs.foldl (fun p c => p.join c.path) p).isAbsolute = true ∧
      (cs.foldl (fun p c => p.join c.path) p).components = p.components ++ cs := by
  induction cs generalizing p with
  | nil => exact ⟨absolute, (List.append_nil _).symm⟩
  | cons c cs ih =>
    obtain ⟨⟨first, other⟩, behind⟩ := List.forall_mem_cons.mp inner
    obtain ⟨n, path, undivided, named⟩ := first.exists_path other
    have relative : c.path.isAbsolute = false := path ▸ not_isAbsolute_of_notMem undivided
    have next : (p.join c.path).isAbsolute = true := by
      rw [isAbsolute_join_of_relative p relative, absolute]
    have added : (p.join c.path).components = p.components ++ [c] := by
      rw [components_join_of_relative absolute relative, path, split_of_not_mem undivided,
        List.filterMap_cons_some named, List.filterMap_nil]
    obtain ⟨stays, whole⟩ := ih next behind
    refine ⟨stays, ?_⟩
    rw [List.foldl_cons, whole, added, List.append_assoc]
    rfl

/-! ## Absolute forms -/

/-- The components of a path that its absolute form keeps. -/
def kept (p : Path) : List Component := p.components.filter fun c => c != .root && c != .here

theorem inner_of_mem_kept (member : c ∈ p.kept) : c.Inner ∧ c ≠ .here := by
  obtain ⟨among, neither⟩ := List.mem_filter.mp member
  rw [Bool.and_eq_true, bne_iff_ne, bne_iff_ne] at neither
  obtain ⟨rest, components, inner⟩ := components_eq p
  refine ⟨?_, neither.2⟩
  rw [components] at among
  rcases List.mem_append.mp among with first | behind
  · rw [rootOf] at first
    split at first
    · exact absurd (List.mem_singleton.mp first) neither.1
    · exact absurd first List.not_mem_nil
  · exact inner c behind

theorem kept_of_isAbsolute (absolute : p.isAbsolute = true) :
    p.components = .root :: p.kept := by
  have all : ((split p.bytes).filterMap Component.ofName?).filter
      (fun c => c != .root && c != .here) = (split p.bytes).filterMap Component.ofName? := by
    apply List.filter_eq_self.mpr
    intro c member
    obtain ⟨n, -, named⟩ := List.mem_filterMap.mp member
    obtain ⟨notRoot, notHere⟩ := ne_of_ofName? named
    rw [Bool.and_eq_true, bne_iff_ne, bne_iff_ne]
    exact ⟨notRoot, notHere⟩
  rw [kept, components_of_isAbsolute absolute, List.filter_cons_of_neg (by simp), all]

/-- The absolute form of a path begins where the path does, or in the working directory, and goes
on as the path does. -/
theorem absolute?_eq_some {cwd : Path} (rooted : cwd.isAbsolute = true)
    (h : absolute? cwd p = some root) :
    root.isAbsolute = true ∧
      root.components = (if p.isAbsolute then [.root] else cwd.components) ++ p.kept := by
  rw [absolute?] at h
  split at h
  · exact absurd h (by simp)
  extract_lets start names whole at h
  have begins : start.isAbsolute = true ∧
      start.components = if p.isAbsolute then [.root] else cwd.components := by
    unfold start
    cases p.isAbsolute with
    | false => exact ⟨rooted, rfl⟩
    | true =>
      simp only [Bool.not_true, Bool.false_eq_true, if_false, if_true]
      split
      · split <;> exact ⟨rfl, rfl⟩
      · exact ⟨rfl, rfl⟩
  have built : whole.isAbsolute = true ∧ whole.components = start.components ++ p.kept :=
    components_foldl_join begins.1 fun _ => inner_of_mem_kept
  obtain ⟨absolute, components⟩ := built
  rw [← begins.2, ← components]
  obtain rfl := Option.some.inj h
  split
  · have empty : (⟨[]⟩ : Path).isAbsolute = false := rfl
    refine ⟨(isAbsolute_join_of_relative whole empty).trans absolute, ?_⟩
    rw [components_join_of_relative absolute empty]
    exact List.append_nil _
  · exact ⟨absolute, rfl⟩

/-- The absolute form of an absolute path has its components. -/
theorem components_of_absolute? {cwd : Path} (rooted : cwd.isAbsolute = true)
    (absolute : p.isAbsolute = true) (h : absolute? cwd p = some root) :
    root.isAbsolute = true ∧ root.components = p.components := by
  obtain ⟨stays, components⟩ := absolute?_eq_some rooted h
  rw [absolute, if_pos rfl] at components
  exact ⟨stays, components.trans (kept_of_isAbsolute absolute).symm⟩

theorem isAbsolute_join_of_isAbsolute (absolute : p.isAbsolute = true) (q : Path) :
    (p.join q).isAbsolute = true := by
  cases relative : q.isAbsolute with
  | true => rw [join, relative, if_pos rfl, relative]
  | false => rw [isAbsolute_join_of_relative p relative, absolute]

/-- The path of a place begins at the root. -/
theorem isAbsolute_place (place : Place) : place.path.isAbsolute = true := by
  have stays (cs : List Component) {p : Path} (absolute : p.isAbsolute = true) :
      (cs.foldl (fun p c => p.join c.path) p).isAbsolute = true := by
    induction cs generalizing p with
    | nil => exact absolute
    | cons c cs ih => exact ih (isAbsolute_join_of_isAbsolute absolute c.path)
  exact stays (place.map .name) rfl

/-! ## Below the root -/

theorem split_unsplit (given : names ≠ []) (undivided : ∀ n ∈ names, slash ∉ n) :
    split (unsplit names) = names := by
  fun_induction unsplit names with
  | case1 => exact absurd rfl given
  | case2 n => exact split_of_not_mem (undivided n List.mem_cons_self)
  | case3 n m ns ih =>
    obtain ⟨first, behind⟩ := List.forall_mem_cons.mp undivided
    rw [split_append_slash, split_of_not_mem first, ih (by simp) behind]
    rfl

/-- The path that names lead along from where they begin. -/
def ofNames (names : List Name) : Path := ⟨unsplit names⟩

theorem split_ofNames (given : names ≠ []) (h : ∀ n ∈ names, n.Leading) :
    split (ofNames names).bytes = names :=
  split_unsplit given fun n member => (h n member).undivided

theorem not_isAbsolute_ofNames (given : names ≠ []) (h : ∀ n ∈ names, n.Leading) :
    (ofNames names).isAbsolute = false := by
  rw [Bool.eq_false_iff]
  intro absolute
  obtain ⟨ns, stretches⟩ := exists_split_of_isAbsolute absolute
  rw [split_ofNames given h] at stretches
  exact (h [] (stretches ▸ List.mem_cons_self)).nonempty rfl

/-- Names behind an absolute path are its last components. -/
theorem components_join_ofNames (absolute : p.isAbsolute = true) (given : names ≠ [])
    (h : ∀ n ∈ names, n.Leading) :
    (p.join (ofNames names)).components = p.components ++ names.map .name := by
  have named : names.filterMap Component.ofName? = names.map .name := by
    rw [← List.filterMap_eq_map']
    apply List.filterMap_congr
    intro n member
    exact ofName?_leading (h n member)
  rw [components_join_of_relative absolute (not_isAbsolute_ofNames given h),
    split_ofNames given h, named]

/-- Names behind a path are the path that they lead along behind it. -/
theorem extend_eq_join (filled : p.bytes ≠ []) (given : names ≠ []) (h : ∀ n ∈ names, n.Proper) :
    p.extend names = p.join (ofNames names) := by
  have leading : ∀ n ∈ names, n.Leading := fun n member => (h n member).leading
  have relative := not_isAbsolute_ofNames given leading
  obtain ⟨n, ns, rfl⟩ := List.exists_cons_of_ne_nil given
  obtain ⟨first, behind⟩ := List.forall_mem_cons.mp h
  have stretches : ∀ m ∈ ns, IsStretch m := fun m member =>
    ⟨(behind m member).nonempty, (behind m member).undivided⟩
  obtain ⟨bs, joined, before⟩ := bytes_join filled first
  obtain ⟨bs', joined', before'⟩ := bytes_join_of_relative filled relative
  have same : bs = bs' := by
    rcases before with ⟨bytes, ends⟩ | ⟨bytes, ends⟩
    · rcases before' with ⟨bytes', -⟩ | ⟨-, ends'⟩
      · exact List.append_cancel_right (bytes.symm.trans bytes')
      · exact absurd (ends.symm.trans ends') (by simp)
    · rcases before' with ⟨-, ends'⟩ | ⟨bytes', -⟩
      · exact absurd (ends.symm.trans ends') (by simp)
      · exact bytes.symm.trans bytes'
  have extended : (p.extend (n :: ns)).bytes = bs ++ slash :: unsplit (n :: ns) := by
    change ((p.join ⟨n⟩).extend ns).bytes = _
    rw [bytes_extend_stretches (bytes_join_ne_nil filled first) (endsInSlash_join filled first)
      stretches, joined, unsplit_cons_append]
  rw [← same] at joined'
  exact congrArg Path.mk (extended.trans joined'.symm)

/-- Behind components that stretches name, only idle stretches are passed over. -/
theorem behind?_append (ms : List Name) (named : ns.filterMap Component.ofName? = cs) :
    ∃ idle, idle.filterMap Component.ofName? = [] ∧ behind? cs (ns ++ ms) = some (idle ++ ms) := by
  induction ns generalizing cs with
  | nil =>
    obtain rfl := named
    exact ⟨[], rfl, by simp [behind?]⟩
  | cons n ns ih =>
    cases first : Component.ofName? n with
    | none =>
      rw [List.filterMap_cons_none first] at named
      cases cs with
      | nil => exact ⟨n :: ns, by rw [List.filterMap_cons_none first, named], by simp [behind?]⟩
      | cons c cs =>
        obtain ⟨idle, none, reached⟩ := ih named
        refine ⟨idle, none, ?_⟩
        rw [List.cons_append, behind?, first]
        exact reached
    | some d =>
      rw [List.filterMap_cons_some first] at named
      obtain rfl := named
      obtain ⟨idle, none, reached⟩ := ih rfl
      refine ⟨idle, none, ?_⟩
      rw [List.cons_append, behind?, first]
      exact (if_pos rfl).trans reached

/-- Nothing is trimmed off names that lead on, and idle stretches before them are. -/
theorem trim_append_leading {idle : List Name} (none : idle.filterMap Component.ofName? = [])
    (h : ∀ n ∈ names, n.Leading) :
    (((idle ++ names).dropWhile isIdle).reverse.dropWhile isIdle).reverse = names := by
  have busy : ∀ n ∈ names, ¬isIdle n = true := fun n member =>
    Bool.eq_false_iff.mp (not_isIdle_of_leading (h n member))
  have passed : (idle ++ names).dropWhile isIdle = names := by
    rw [List.dropWhile_append_of_pos, List.dropWhile_eq_self_iff]
    · intro _
      exact busy _ (List.getElem_mem _)
    · intro n member
      rcases isIdle_of_ofName?_eq_none (List.filterMap_eq_nil_iff.mp none n member) with rfl | rfl
      · rfl
      · rfl
  rw [passed, List.dropWhile_eq_self_iff.mpr, List.reverse_reverse]
  intro _
  exact busy _ (List.mem_reverse.mp (List.getElem_mem _))

/-- What is put behind an absolute path is what the whole is below every path with the components of
the first. -/
theorem below?_extend (absolute : p.isAbsolute = true) (same : root.components = p.components)
    (given : names ≠ []) (h : ∀ n ∈ names, n.Proper) :
    (p.extend names).below? root = some (ofNames names) := by
  have leading : ∀ n ∈ names, n.Leading := fun n member => (h n member).leading
  have filled := bytes_ne_nil_of_isAbsolute absolute
  have relative := not_isAbsolute_ofNames given leading
  have whole : (p.extend names).isAbsolute = true := by
    rw [extend_eq_join filled given h, isAbsolute_join_of_relative p relative, absolute]
  obtain ⟨front, stretches, named⟩ := filterMap_split_join filled relative
  rw [← extend_eq_join filled given h, split_ofNames given leading] at stretches
  obtain ⟨idle, none, reached⟩ := behind?_append names named
  rw [below?, same, components_of_isAbsolute absolute, stretches]
  simp only [whole, if_true, reached, Option.map_some, trim_append_leading none leading]
  rfl

/-! ## How paths below the root are shown -/

open Text.Utf8 (decodeLossy encode encode_append encode_injective encode_ofList)

/-- No other character has the byte of a slash. -/
theorem eq_slash_of_mem_utf8EncodeChar {c : Char} (member : slash ∈ String.utf8EncodeChar c) :
    c = '/' := by
  have other {k : Nat} (large : 0x80 ≤ k) (byte : k < 0x100) : slash ≠ UInt8.ofNat k := by
    intro same
    have number := congrArg UInt8.toNat same
    rw [UInt8.toNat_ofNat_of_lt' byte] at number
    change 0x2F = k at number
    omega
  rw [String.utf8EncodeChar] at member
  split at member
  · next small =>
    have byte : c.val.toNat < UInt8.size := Nat.lt_of_le_of_lt small (by decide)
    have number := congrArg UInt8.toNat (List.mem_singleton.mp member)
    rw [UInt8.toNat_ofNat_of_lt' byte] at number
    exact Char.toNat_inj.mp number.symm
  · repeat' split at member
    all_goals
      simp (disch := omega) only [List.mem_cons, List.not_mem_nil, other, or_false] at member

theorem slash_notMem_encode {text : String} (undivided : '/' ∉ text.toList) :
    slash ∉ encode text := by
  rw [← String.ofList_toList (s := text), encode_ofList]
  intro member
  obtain ⟨c, among, byte⟩ := List.mem_flatMap.mp member
  rw [eq_slash_of_mem_utf8EncodeChar byte] at among
  exact undivided among

/-- The text of a name that leads on is the name of something, too. -/
theorem leading_ofString {text : String} (h : IsName text) : (Name.ofString text).Leading where
  nonempty := fun empty => h.nonempty (encode_injective empty)
  undivided := slash_notMem_encode h.undivided
  not_here := fun here => h.not_here (encode_injective here)
  not_up := fun up => h.not_up (encode_injective up)

theorem ofString_intercalate (texts : List String) :
    ofString ("/".intercalate texts) = ofNames (texts.map Name.ofString) := by
  apply congrArg Path.mk
  induction texts with
  | nil => rfl
  | cons text texts ih =>
    cases texts with
    | nil =>
      rw [String.intercalate_singleton]
      rfl
    | cons next texts =>
      rw [String.intercalate_cons_cons, encode_append, encode_append, ih, List.append_assoc]
      rfl

/-- Names behind an absolute path are its last components, read from their texts as well. -/
theorem components_join_intercalate (absolute : p.isAbsolute = true) {texts : List String}
    (given : texts ≠ []) (h : ∀ text ∈ texts, IsName text) :
    (p.join (.ofString ("/".intercalate texts))).components =
      p.components ++ texts.map fun text => .name (.ofString text) := by
  have leading : ∀ n ∈ texts.map Name.ofString, n.Leading := by
    intro n member
    obtain ⟨text, among, rfl⟩ := List.mem_map.mp member
    exact leading_ofString (h text among)
  have filled : texts.map Name.ofString ≠ [] := by simpa using given
  rw [ofString_intercalate, components_join_ofNames absolute filled leading, List.map_map]
  rfl

theorem intercalate_ne_empty {texts : List String} (given : texts ≠ [])
    (h : ∀ text ∈ texts, IsName text) : "/".intercalate texts ≠ "" := by
  obtain ⟨text, texts, rfl⟩ := List.exists_cons_of_ne_nil given
  cases texts with
  | nil =>
    rw [String.intercalate_singleton]
    exact (h text List.mem_cons_self).nonempty
  | cons next texts =>
    rw [String.intercalate_cons_cons]
    simp

/-- What a text says about a file whose path goes on from the root by the names: it is those names
with slashes between them. Put behind the root again, it asks for the texts of the same names one
after the other. -/
structure SeenBelow (root file : Path) (names : List Name) (text : String) : Prop where
  given : names ≠ []
  proper : ∀ n ∈ names, n.Proper
  components : file.components = root.components ++ names.map .name
  /-- The path is below the root, so it does not have to be shown in full. -/
  below : file.below? root = some (ofNames names)
  spelled : text = "/".intercalate (names.map decodeLossy)
  rejoined : (root.join (.ofString text)).components =
    root.components ++ names.map fun n => .name (.ofString (decodeLossy n))
  nonempty : text ≠ ""
  relative : text.toList.head? ≠ some '/'

/-- Names behind one absolute path are seen below every other one with the same components. -/
theorem seenBelow_extend (absolute : root.isAbsolute = true) (absolute' : p.isAbsolute = true)
    (same : root.components = p.components) (given : names ≠ []) (h : ∀ n ∈ names, n.Proper) :
    SeenBelow root (p.extend names) names ((p.extend names).relativeTo root).display := by
  have below := below?_extend absolute' same given h
  have spelled : ((p.extend names).relativeTo root).display =
      "/".intercalate (names.map decodeLossy) := by
    rw [relativeTo, below, Option.getD_some, display, ofNames, decodeLossy_unsplit]
  have shown : ∀ text ∈ names.map decodeLossy, IsName text := by
    intro text member
    obtain ⟨n, among, rfl⟩ := List.mem_map.mp member
    exact isName_decodeLossy (h n among).leading
  have filled : names.map decodeLossy ≠ [] := by simpa using given
  rw [spelled]
  constructor
  case given => exact given
  case proper => exact h
  case components => rw [components_extend (bytes_ne_nil_of_isAbsolute absolute') h, same]
  case below => exact below
  case spelled => rfl
  case rejoined =>
    rw [components_join_intercalate absolute filled shown, List.map_map]
    rfl
  case nonempty => exact intercalate_ne_empty filled shown
  case relative =>
    apply And.right
    apply isSpaced_intercalate
    intro text member
    exact ⟨(shown text member).nonempty, (shown text member).undivided⟩

end Path

/-! ## What the program shows -/

/-- The files of a walk are seen below the path that it was begun with, if that is an absolute
form. -/
theorem Walk.seenBelow_of_mem_files {tree : FileTree} {cwd : Place} {filter : WalkFilter} {w : Walk}
    {path root file : Path} (absolute : Path.absolute? cwd.path path = some root)
    (started : start? tree cwd filter root = .ok w) (member : file ∈ w.files.1) :
    ∃ names, w.Reaches names ∧
      Path.SeenBelow root file names (file.relativeTo root).display := by
  have rooted : cwd.path.isAbsolute = true := Path.isAbsolute_place cwd
  obtain ⟨absolute', -⟩ := Path.absolute?_eq_some rooted absolute
  obtain ⟨-, -, -, again⟩ := start?_eq_ok started
  obtain ⟨stays, same⟩ := Path.components_of_absolute? rooted absolute' again
  obtain ⟨names, rfl, reaches⟩ := mem_files.mp member
  have given : names ≠ [] := by
    rintro rfl
    obtain ⟨n, text, last, -⟩ := reaches.shown
    exact absurd last (by simp)
  have proper := proper_of_file_mem_items (file_mem_items.mpr reaches)
  exact ⟨names, reaches, Path.seenBelow_extend absolute' stays same.symm given proper⟩

/-- Every reference in the index of a build is in a file of the walk. -/
theorem Build.file_mem_files_of_run {tree : FileTree} {cwd : Place} {request : BuildRequest}
    {cancelled : CancelAnswers} {pool : Pool} {report : BuildReport}
    (built : run tree cwd request cancelled pool = .ok report) :
    ∃ w, Walk.start? tree cwd (filter request.exclude) request.root = .ok w ∧
      ∀ row ∈ report.index.toList, ∀ e ∈ row.2, e.file ∈ w.files.1 := by
  obtain ⟨w, started, lists⟩ := lists_index_of_run built
  refine ⟨w, started, ?_⟩
  rintro ⟨url, edges⟩ member e among
  have found : report.index.get? url = some edges := DependencyIndex.mem_toList.mp member
  have known := lists.getD url
  rw [found, Option.getD_some] at known
  rw [known] at among
  exact (file_of_mem_references among).1

namespace Program

variable {s : Surroundings} {args : List Argument} {line : CommandLine}

/-- A run with a path makes it absolute and then either ends with nothing printed or has walked what
is there. Every path that it prints, in the list of files and in the two formats for people, is one
of the walk's as seen below the absolute form of its argument. -/
theorem run_shows_below_root (s : Surroundings) (parsed : CommandLine.parse args = .ok line) :
    ∃ root, Path.absolute? s.cwd.path line.command.path = some root ∧
      ((run s args).exitCode ≠ 0 ∧ (run s args).stdout = "" ∨
        ∃ w, walk? s root = .ok w ∧
          (∀ file ∈ w.files.1, ∃ names, w.Reaches names ∧
            Path.SeenBelow root file names (file.relativeTo root).display) ∧
          match line.command with
          | .files _ => run s args = .printed (Report.lines (listing root w ++
              [toString (listing root w).length ++ " file(s)"])) []
          | .tree _ importMap format jobs timeout =>
            ∃ family report, family? s timeout = some family ∧
              Build.run s.tree s.cwd (request s root importMap jobs) (answers s family)
                s.pool = .ok report ∧
              run s args =
                .printed (Report.output format root report.index) (Report.diagnosticLines report) ∧
              ∀ row ∈ report.index.toList, ∀ e ∈ row.2, e.file ∈ w.files.1 ∧
                ∃ names, w.Reaches names ∧
                  Path.SeenBelow root e.file names (Report.fileText root e)) := by
  obtain ⟨verbose, command⟩ := line
  obtain ⟨root, absolute⟩ :=
    Path.exists_absolute? s.cwd.path (CommandLine.path_ne_nil_of_parse parsed)
  refine ⟨root, absolute, ?_⟩
  cases command with
  | files path =>
    have absolute : Path.absolute? s.cwd.path path = some root := absolute
    rw [run_eq_files parsed absolute, files_eq]
    cases started : walk? s root with
    | error error => exact .inl ⟨Nat.one_ne_zero, rfl⟩
    | ok w =>
      exact .inr ⟨w, rfl, fun _ => Walk.seenBelow_of_mem_files absolute started, rfl⟩
  | tree path importMap format jobs timeout =>
    have absolute : Path.absolute? s.cwd.path path = some root := absolute
    rw [run_eq_tree parsed absolute]
    cases granted : family? s timeout with
    | none =>
      rw [tree_of_refused granted]
      exact .inl ⟨Nat.succ_ne_zero 100, rfl⟩
    | some family =>
      rw [tree_of_granted granted]
      cases built : Build.run s.tree s.cwd (request s root importMap jobs) (answers s family)
        s.pool with
      | error error => exact .inl ⟨Nat.one_ne_zero, rfl⟩
      | ok report =>
        obtain ⟨w, started, edges⟩ := Build.file_mem_files_of_run built
        refine .inr ⟨w, started, fun _ => Walk.seenBelow_of_mem_files absolute started, ?_⟩
        refine ⟨family, report, granted, built, rfl, ?_⟩
        intro row member e among
        have file := edges row member e among
        exact ⟨file, Walk.seenBelow_of_mem_files absolute started file⟩

/-- A script in a directory whose name is no text, and a link to the project. -/
def winding : Surroundings :=
  ⟨(FileTree.empty.place [.ofString "p", [0xFF], .ofString "a.ts"] (.file [] true)).place
      [.ofString "l"] (.link (.ofString "p")),
    [], fun _ => default, .inOrder⟩

theorem run_shows_below_root_winding :
    CommandLine.parse ["files", "./l/../l//"] = .ok ⟨false, .files (.ofString "./l/../l//")⟩ ∧
    run winding ["files", "./l/../l//"] = .printed "\ufffd/a.ts\n1 file(s)\n" [] ∧
    ∃ file names, Path.SeenBelow (.ofString "/l/../l/") file names "\ufffd/a.ts" := by
  have parsed : CommandLine.parse ["files", "./l/../l//"] =
      .ok ⟨false, .files (.ofString "./l/../l//")⟩ := by decide +kernel
  have printed : run winding ["files", "./l/../l//"] =
      .printed "\ufffd/a.ts\n1 file(s)\n" [] := by decide +kernel
  have known : Path.absolute? winding.cwd.path (.ofString "./l/../l//") =
      some (.ofString "/l/../l/") := by decide +kernel
  have listed : (walk? winding (.ofString "/l/../l/")).map (listing (.ofString "/l/../l/")) =
      .ok ["\ufffd/a.ts"] := by decide +kernel
  obtain ⟨root, absolute, ⟨failed, -⟩ | ⟨w, started, seen, -⟩⟩ := run_shows_below_root winding parsed
  · exact absurd (congrArg Outcome.exitCode printed) failed
  · obtain rfl := Option.some.inj (known.symm.trans absolute)
    rw [started] at listed
    have shown : "\ufffd/a.ts" ∈ listing (.ofString "/l/../l/") w := by
      rw [Except.ok.inj listed]
      exact List.mem_cons_self
    obtain ⟨file, member, text⟩ := List.mem_map.mp shown
    obtain ⟨names, -, below⟩ := seen file member
    exact ⟨parsed, printed, file, names, text ▸ below⟩

end Program

end RemoteIndex
