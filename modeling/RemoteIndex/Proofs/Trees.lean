import Mathlib.Data.List.Pairwise
import RemoteIndex.Proofs.Lossy
import RemoteIndex.Proofs.Offsets
import RemoteIndex.Proofs.Positions
import RemoteIndex.Script.Extract

/-!
# Trees that fit a script

A tree fits a script (`Tree.Fits`) if its nodes mark stretches of it and lie in each other as they
are under each other, and if a comment or a string literal without mistakes is what its name says.
Every parser that keeps to its documentation makes such trees, whatever its grammar is and however
it gets over mistakes; and no more than that is asked of a tree where something is said about the
specifiers that are found in it.
-/

namespace RemoteIndex.Script

open Position (origin)
open Text.Utf8 (encode encode_append width decode?_encode)

namespace Tree

variable {t m n tree : Tree} {source : List UInt8} {form : Form} {site : Site}
  {script part : List Char}

/-! ## Nodes -/

theorem nodesOf_eq (ts : List Tree) : nodesOf ts = ts.flatMap nodes := by
  induction ts with
  | nil => rfl
  | cons t ts ih => rw [nodesOf, ih, List.flatMap_cons]

theorem nodes_eq (t : Tree) : t.nodes = t :: t.children.flatMap nodes := by
  cases t with
  | mk kind field missing first last span children => rw [nodes, nodesOf_eq]

theorem mem_nodes : n ∈ t.nodes ↔ n = t ∨ ∃ c ∈ t.children, n ∈ c.nodes := by
  rw [nodes_eq, List.mem_cons, List.mem_flatMap]

theorem self_mem_nodes (t : Tree) : t ∈ t.nodes := mem_nodes.mpr (.inl rfl)

theorem mem_nodes_of_mem_children (h : n ∈ t.children) : n ∈ t.nodes :=
  mem_nodes.mpr (.inr ⟨n, h, n.self_mem_nodes⟩)

theorem nodes_of_leaf (leaf : t.children = []) : t.nodes = [t] := by
  rw [nodes_eq, leaf, List.flatMap_nil]

/-- What holds of a node if it holds of those right under it holds of every node. -/
theorem induct {P : Tree → Prop} (step : ∀ t : Tree, (∀ c ∈ t.children, P c) → P t) (t : Tree) :
    P t := by
  refine Tree.rec (motive_1 := P) (motive_2 := fun ts => ∀ c ∈ ts, P c) ?_ ?_ ?_ t
  · intro kind field missing first last span children ih
    exact step _ ih
  · exact fun c member => absurd member List.not_mem_nil
  · intro t ts here behind
    exact List.forall_mem_cons.mpr ⟨here, behind⟩

theorem mem_nodes_trans (first : m ∈ t.nodes) (second : n ∈ m.nodes) : n ∈ t.nodes := by
  induction t using induct with
  | step t ih =>
    rcases mem_nodes.mp first with rfl | ⟨c, member, below⟩
    · exact second
    · exact mem_nodes.mpr (.inr ⟨c, member, ih c member below⟩)

theorem hasError_eq (t : Tree) :
    t.hasError = (decide (t.kind = .error) || t.missing || t.children.any hasError) := by
  rw [hasError, nodes_eq, List.any_cons, List.any_flatMap]
  rfl

theorem missing_of_hasError (h : t.hasError = false) : t.missing = false := by
  simp only [hasError_eq, Bool.or_eq_false_iff] at h
  exact h.1.2

/-! ## Nodes in each other -/

/-- The nodes under a node lie in it, one behind the other. -/
structure Nests (tree : Tree) : Prop where
  within : ∀ n ∈ tree.nodes, ∀ c ∈ n.children, c.span.Within n.span
  ordered : ∀ n ∈ tree.nodes, n.children.Pairwise fun a b => a.span.Precedes b.span

theorem Nests.of_mem (h : tree.Nests) (member : n ∈ tree.nodes) : n.Nests where
  within m below := h.within m (mem_nodes_trans member below)
  ordered m below := h.ordered m (mem_nodes_trans member below)

theorem Nests.of_child (h : tree.Nests) (member : n ∈ tree.children) : n.Nests :=
  h.of_mem (mem_nodes_of_mem_children member)

theorem Nests.span_within (h : t.Nests) (member : n ∈ t.nodes) : n.span.Within t.span := by
  induction t using induct with
  | step t ih =>
    rcases mem_nodes.mp member with rfl | ⟨c, child, below⟩
    · exact Span.within_refl _
    · exact (ih c child (h.of_child child) below).trans (h.within t t.self_mem_nodes c child)

/-- Of two nodes one is under the other, or they share nothing. -/
theorem Nests.laminar (h : t.Nests) (member : m ∈ t.nodes) (member' : n ∈ t.nodes) :
    n ∈ m.nodes ∨ m ∈ n.nodes ∨ m.span.Apart n.span := by
  induction t using induct with
  | step t ih =>
    rcases mem_nodes.mp member with rfl | ⟨c, child, below⟩
    · exact .inl member'
    rcases mem_nodes.mp member' with rfl | ⟨d, child', below'⟩
    · exact .inr (.inl member)
    have symmetric : Std.Symm fun c d : Tree => c = d ∨ c.span.Apart d.span :=
      ⟨fun _ _ => Or.imp Eq.symm Span.Apart.symm⟩
    have siblings : t.children.Pairwise fun c d => c = d ∨ c.span.Apart d.span :=
      (h.ordered t t.self_mem_nodes).imp fun before => .inr (.inl before)
    rcases siblings.forall_of_forall (fun c _ => .inl rfl) child child' with rfl | apart
    · exact ih c child (h.of_child child) below below'
    · exact .inr (.inr (apart.within ((h.of_child child).span_within below)
        ((h.of_child child').span_within below')))

/-! ## Nodes in a script -/

/-- The node marks a stretch of the script, in bytes as well as in lines and columns. -/
def Marks (n : Tree) (script part : List Char) : Prop :=
  ∃ before after, script = before ++ part ++ after ∧ n.first = width before ∧
    n.last = width (before ++ part) ∧
    n.span = ⟨origin.advanceBy before, origin.advanceBy (before ++ part)⟩

theorem Marks.span (h : n.Marks script part) : n.span.Marks script part := by
  obtain ⟨before, after, whole, -, -, span⟩ := h
  exact ⟨before, after, whole, by rw [span], by rw [span]⟩

theorem text?_of_offsets {before : List Char} (first : n.first = width before)
    (last : n.last = width (before ++ part)) (after : List Char) :
    n.text? (encode (String.ofList (before ++ part ++ after))) = some (String.ofList part) := by
  have bytes : ((encode (String.ofList (before ++ part ++ after))).drop n.first).take
      (n.last - n.first) = encode (String.ofList part) := by
    rw [first, last, Text.Utf8.width_append, Nat.add_sub_cancel_left]
    simp only [String.ofList_append, encode_append, List.append_assoc, width, List.drop_left,
      List.take_left]
  rw [text?, bytes, decode?_encode]

theorem Marks.text? (h : n.Marks script part) :
    n.text? (encode (String.ofList script)) = some (String.ofList part) := by
  obtain ⟨before, after, rfl, first, last, -⟩ := h
  exact text?_of_offsets first last after

/-- A node begins and ends behind beginnings of the script. -/
theorem Marks.exists_prefixes (h : n.Marks script part) :
    ∃ before upTo, before <+: script ∧ upTo <+: script ∧ n.first = width before ∧
      n.last = width upTo ∧ n.span = ⟨origin.advanceBy before, origin.advanceBy upTo⟩ := by
  obtain ⟨before, after, rfl, first, last, span⟩ := h
  refine ⟨before, before ++ part, ?_, List.prefix_append _ _, first, last, span⟩
  rw [List.append_assoc]
  exact List.prefix_append _ _

/-- The tree fits the script. -/
structure Fits (tree : Tree) (script : String) : Prop extends Nests tree where
  marks : ∀ n ∈ tree.nodes, ∃ part, n.Marks script.toList part
  /-- A comment that begins with two slashes ends in its line. -/
  inLine : ∀ n ∈ tree.nodes, n.kind = .comment →
    ∀ rest, n.Marks script.toList ('/' :: '/' :: rest) → '\n' ∉ rest
  /-- A comment has nothing under it. -/
  comments : ∀ n ∈ tree.nodes, n.kind = .comment → n.children = []
  /-- In a literal without mistakes there are only its quotes, the pieces of its text, and comments,
  which are not its end. -/
  pieces : ∀ n ∈ tree.nodes, n.kind = .string → n.hasError = false →
    ∀ c ∈ n.children, c.children = [] ∧ (c.kind = .comment → c.span.stop < n.span.stop)

theorem Fits.of_mem {script : String} (fits : tree.Fits script) (member : n ∈ tree.nodes) :
    n.Fits script where
  toNests := fits.toNests.of_mem member
  marks m below := fits.marks m (mem_nodes_trans member below)
  inLine m below := fits.inLine m (mem_nodes_trans member below)
  comments m below := fits.comments m (mem_nodes_trans member below)
  pieces m below := fits.pieces m (mem_nodes_trans member below)

theorem Fits.of_child {script : String} (fits : tree.Fits script) (child : n ∈ tree.children) :
    n.Fits script :=
  fits.of_mem (mem_nodes_of_mem_children child)

theorem Fits.exists_text? {script : String} (h : tree.Fits script) (member : n ∈ tree.nodes) :
    ∃ part, n.Marks script.toList part ∧
      n.text? (encode script) = some (String.ofList part) := by
  obtain ⟨part, marks⟩ := h.marks n member
  have text := marks.text?
  rw [String.ofList_toList] at text
  exact ⟨part, marks, text⟩

/-! ## Offsets -/

/-- What leads no further in lines and columns leads no further in bytes. -/
theorem width_le_of_le {cs ds : List Char} (first : cs <+: script) (second : ds <+: script)
    (h : origin.advanceBy cs ≤ origin.advanceBy ds) : width cs ≤ width ds := by
  obtain ⟨more, rfl⟩ := Position.isPrefix_of_le first second h
  rw [Text.Utf8.width_append]
  exact Nat.le_add_right _ _

theorem width_lt_of_lt {cs ds : List Char} (first : cs <+: script) (second : ds <+: script)
    (h : origin.advanceBy cs < origin.advanceBy ds) : width cs < width ds := by
  obtain ⟨more, rfl⟩ := Position.isPrefix_of_le first second (Position.le_of_lt h)
  have nonempty : more ≠ [] := by
    rintro rfl
    rw [List.append_nil] at h
    exact Position.ne_of_lt h rfl
  rw [Text.Utf8.width_append]
  exact Nat.lt_add_of_pos_right (Text.Utf8.width_pos nonempty)

theorem isPrefix_of_width_le {cs ds : List Char} (first : cs <+: script) (second : ds <+: script)
    (h : width cs ≤ width ds) : cs <+: ds := by
  rcases List.prefix_or_prefix_of_prefix first second with short | ⟨more, rfl⟩
  · exact short
  · have nothing : more = [] := by
      by_contra nonempty
      have wide := Text.Utf8.width_pos nonempty
      rw [Text.Utf8.width_append] at h
      omega
    simp [nothing]

theorem Fits.last_le_first {script : String} (fits : tree.Fits script) (member : m ∈ tree.nodes)
    (member' : n ∈ tree.nodes) (h : m.span.Precedes n.span) : m.last ≤ n.first := by
  obtain ⟨_, marks⟩ := fits.marks m member
  obtain ⟨_, marks'⟩ := fits.marks n member'
  obtain ⟨before, upTo, -, isPrefix, -, last, span⟩ := marks.exists_prefixes
  obtain ⟨before', upTo', isPrefix', -, first, -, span'⟩ := marks'.exists_prefixes
  rw [Span.Precedes, span, span'] at h
  rw [last, first]
  exact width_le_of_le isPrefix isPrefix' h

theorem Fits.offsets_within {script : String} (fits : tree.Fits script) (member : m ∈ tree.nodes)
    (member' : n ∈ tree.nodes) (h : n.span.Within m.span) :
    m.first ≤ n.first ∧ n.last ≤ m.last := by
  obtain ⟨_, marks⟩ := fits.marks m member
  obtain ⟨_, marks'⟩ := fits.marks n member'
  obtain ⟨before, upTo, isBefore, isUpTo, first, last, span⟩ := marks.exists_prefixes
  obtain ⟨before', upTo', isBefore', isUpTo', first', last', span'⟩ := marks'.exists_prefixes
  rw [Span.Within, span, span'] at h
  rw [first, last, first', last']
  exact ⟨width_le_of_le isBefore isBefore' h.1, width_le_of_le isUpTo' isUpTo h.2⟩

theorem Fits.last_lt_last {script : String} (fits : tree.Fits script) (member : m ∈ tree.nodes)
    (member' : n ∈ tree.nodes) (h : m.span.stop < n.span.stop) : m.last < n.last := by
  obtain ⟨_, marks⟩ := fits.marks m member
  obtain ⟨_, marks'⟩ := fits.marks n member'
  obtain ⟨_, upTo, -, isPrefix, -, last, span⟩ := marks.exists_prefixes
  obtain ⟨_, upTo', -, isPrefix', -, last', span'⟩ := marks'.exists_prefixes
  rw [span, span'] at h
  rw [last, last']
  exact width_lt_of_lt isPrefix isPrefix' h

theorem Fits.first_le_last {script : String} (fits : tree.Fits script) (member : n ∈ tree.nodes) :
    n.first ≤ n.last := by
  obtain ⟨_, before, after, -, first, last, -⟩ := fits.marks n member
  rw [first, last, Text.Utf8.width_append]
  exact Nat.le_add_right _ _

/-! ## Literals and directives -/

/-- A literal that names a module stands right under the node that tells so, or in the list of its
arguments. -/
theorem of_mem_literals (h : (form, n) ∈ t.literals) :
    n.kind = .string ∧ (n ∈ t.children ∨ ∃ c ∈ t.children, n ∈ c.children) := by
  have of_strings {m : Tree} (found : n ∈ m.strings) : n.kind = .string ∧ n ∈ m.children := by
    obtain ⟨child, kind⟩ := List.mem_filter.mp found
    exact ⟨of_decide_eq_true kind, child⟩
  have right {form' : Form} {asks : Tree → Bool}
      (found : (form, n) ∈ (t.strings.filter asks).map (form', ·)) :
      n.kind = .string ∧ n ∈ t.children := by
    obtain ⟨m, held, same⟩ := List.mem_map.mp found
    exact of_strings ((Prod.mk.inj same).2 ▸ List.mem_of_mem_filter held)
  rw [literals] at h
  split at h
  · exact (right h).imp_right .inl
  · exact (right h).imp_right .inl
  · split at h
    · obtain ⟨m, found, same⟩ := List.mem_map.mp h
      obtain rfl : m = n := (Prod.mk.inj same).2
      obtain ⟨c, list, held⟩ := List.mem_flatMap.mp found
      exact (of_strings held).imp_right fun child => .inr ⟨c, List.mem_of_mem_filter list, child⟩
    · exact absurd h List.not_mem_nil
  · obtain ⟨m, found, same⟩ := List.mem_map.mp h
    obtain rfl : m = n := (Prod.mk.inj same).2
    exact (of_strings found).imp_right .inl
  · exact absurd h List.not_mem_nil

theorem literals_of_leaf (leaf : t.children = []) : t.literals = [] := by
  rw [literals, strings, leaf]
  split <;> rfl

theorem mem_nodes_of_mem_literals (h : (form, n) ∈ t.literals) : n ∈ t.nodes := by
  rcases (of_mem_literals h).2 with child | ⟨c, child, below⟩
  · exact mem_nodes_of_mem_children child
  · exact mem_nodes_trans (mem_nodes_of_mem_children child) (mem_nodes_of_mem_children below)

/-- Between two characters that are the same quote stands the text of a literal. -/
theorem unquote?_enclosed (quote close : Char) (inside : List Char) :
    unquote? (String.ofList (quote :: (inside ++ [close]))) =
      if (quote = '"' ∨ quote = '\'') ∧ close = quote then some (String.ofList inside)
      else none := by
  rw [unquote?, String.toList_ofList]
  simp only [List.getLast?_concat, List.dropLast_concat, Option.some.injEq]

theorem literalSite?_of_text {literal : String} (sound : t.hasError = false)
    (text : t.text? source = some literal) (form : Form) :
    t.literalSite? source form = (unquote? literal).bind fun text =>
      if text.isEmpty then none else some ⟨text, t.span, form⟩ := by
  rw [literalSite?, sound, missing_of_hasError sound, text]
  rfl

/-- The site of a literal has the literal's span, and its text is what stands there in quotes. -/
theorem of_literalSite? (h : n.literalSite? source form = some site) :
    n.hasError = false ∧ site.form = form ∧ site.span = n.span ∧ site.text ≠ "" ∧
      ∃ literal, n.text? source = some literal ∧ unquote? literal = some site.text := by
  rw [literalSite?] at h
  split at h
  · exact absurd h (by simp)
  · next sound =>
    obtain ⟨literal, text, h⟩ := Option.bind_eq_some_iff.mp h
    obtain ⟨inside, unquoted, h⟩ := Option.bind_eq_some_iff.mp h
    split at h
    · exact absurd h (by simp)
    · next nonempty =>
      obtain rfl := Option.some.inj h
      rw [Bool.or_eq_true, not_or, Bool.not_eq_true] at sound
      exact ⟨sound.1, rfl, rfl, by simpa using nonempty, literal, text, unquoted⟩

theorem sites_perm (source : List UInt8) (tree : Tree) :
    (tree.sites source).Perm (tree.statementSites source ++ tree.directiveSites source) :=
  List.mergeSort_perm _ _

/-- The sites in statements under a node are those that it tells itself and those under the nodes
right under it. -/
theorem statementSites_eq (source : List UInt8) (t : Tree) :
    t.statementSites source =
      t.literals.filterMap (fun (form, l) => l.literalSite? source form) ++
        t.children.flatMap (statementSites source) := by
  rw [statementSites, nodes_eq, List.flatMap_cons, List.flatMap_assoc]
  rfl

theorem directiveSites_eq (source : List UInt8) (t : Tree) :
    t.directiveSites source =
      (t.directive? source).toList ++ t.children.flatMap (directiveSites source) := by
  rw [directiveSites, List.filterMap_eq_flatMap_toList, nodes_eq, List.flatMap_cons,
    List.flatMap_assoc]
  simp only [← List.filterMap_eq_flatMap_toList]
  rfl

/-- Where the sites in statements and those in comments are in order, one after the other, that is
the order of all. -/
theorem sites_eq_of_pairwise {statements directives : List Site}
    (found : tree.statementSites source = statements)
    (found' : tree.directiveSites source = directives)
    (ordered : (statements ++ directives).Pairwise fun a b =>
      a.span.start.atMost b.span.start = true) :
    tree.sites source = statements ++ directives := by
  rw [sites, found, found']
  exact List.mergeSort_of_pairwise ordered

theorem mem_statementSites : site ∈ tree.statementSites source ↔
    ∃ n ∈ tree.nodes, ∃ form l, (form, l) ∈ n.literals ∧ l.literalSite? source form = some site := by
  simp only [statementSites, List.mem_flatMap, List.mem_filterMap, Prod.exists]

end Tree

theorem extract_of_parse {parse : String → Option Tree} {script : String} {tree : Tree}
    (parsed : parse script = some tree) :
    extract parse script = .ok ((tree.sites (encode script)).map .classify) := by
  rw [extract, parsed]

end RemoteIndex.Script
