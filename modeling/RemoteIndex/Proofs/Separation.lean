import Mathlib.Data.List.Flatten
import Mathlib.Data.List.Perm.Basic
import RemoteIndex.Proofs.Spans

/-!
# Specifiers one behind the other

Two literals that name modules share nothing, and nor do two comments. But a comment may stand in a
literal, behind a line end that the literal goes on over; if it is a directive, its literal stands in
the other one (`Tree.Holds`). Still no two specifiers begin at one place, so that they have one order
only.

The proof goes up the tree: a node adds to the sites under it those of the literals that name a
module by their place under it, and itself if it is a comment.
-/

namespace RemoteIndex.Script

open Text.Utf8 (encode)

namespace Tree

/-- The site `b` is that of a directive in a comment which stands in the literal of `a`. -/
def Holds (source : List UInt8) (tree : Tree) (a b : Site) : Prop :=
  ∃ n ∈ tree.nodes, ∃ c ∈ n.children, n.kind = .string ∧ a.span = n.span ∧
    c.directive? source = some b

/-- The spans of two sites of a tree share nothing, or the one stands in the literal of the
other. -/
def Parts (source : List UInt8) (tree : Tree) (a b : Site) : Prop :=
  a.span.Apart b.span ∨ tree.Holds source a b ∨ tree.Holds source b a

/-- The site of a node right under another that is a literal, if it counts as one of a form. -/
def siteAs? (source : List UInt8) (form : Form) (t : Tree) : Option Site :=
  if t.kind = .string then t.literalSite? source form else none

/-- The sites of the literals right under a node, as ones of a form. -/
def sitesUnder (source : List UInt8) (form : Form) (t : Tree) : List Site :=
  t.children.flatMap fun c => (c.siteAs? source form).toList

/-- The sites that a node tells itself: those of the literals that name a module by their place under
it, and its own if it is a directive. -/
def ownSites (source : List UInt8) (t : Tree) : List Site :=
  t.literals.filterMap (fun (form, l) => l.literalSite? source form) ++
    (t.directive? source).toList

/-- The sites that the nodes of a tree tell. -/
def allSites (source : List UInt8) (tree : Tree) : List Site :=
  tree.nodes.flatMap (ownSites source)

variable {source : List UInt8} {script : String} {tree t c : Tree} {a b site : Site} {form : Form}
  {sites : List Site}

theorem Parts.symm (h : tree.Parts source a b) : tree.Parts source b a :=
  h.imp Span.Apart.symm Or.symm

theorem Holds.mono (h : c.Holds source a b) (child : c ∈ t.children) : t.Holds source a b := by
  obtain ⟨n, member, rest⟩ := h
  exact ⟨n, mem_nodes.mpr (.inr ⟨c, child, member⟩), rest⟩

theorem Parts.mono (child : c ∈ t.children) (h : c.Parts source a b) : t.Parts source a b :=
  h.imp_right (Or.imp (·.mono child) (·.mono child))

theorem allSites_perm (source : List UInt8) (tree : Tree) :
    (tree.allSites source).Perm
      (tree.statementSites source ++ tree.directiveSites source) := by
  rw [statementSites, directiveSites, List.filterMap_eq_flatMap_toList]
  exact (List.flatMap_append_perm tree.nodes _ _).symm

theorem allSites_eq (t : Tree) :
    t.allSites source = t.ownSites source ++ t.children.flatMap (allSites source) := by
  rw [allSites, nodes_eq, List.flatMap_cons, List.flatMap_assoc]
  rfl

/-! ## The sites that a node tells -/

theorem ownSites_of_leaf (leaf : t.children = []) :
    t.ownSites source = (t.directive? source).toList := by
  rw [ownSites, literals_of_leaf leaf]
  rfl

theorem directive?_of_ne (kind : t.kind ≠ .comment) : t.directive? source = none := by
  rw [directive?, if_neg kind]

/-- Literals and lists of arguments tell nothing themselves. -/
theorem ownSites_of_kind (kind : t.kind = .string ∨ t.kind = .arguments) :
    t.ownSites source = [] := by
  have noComment : t.kind ≠ .comment := by
    rcases kind with kind | kind
    · rw [kind]
      nofun
    · rw [kind]
      nofun
  rw [ownSites, directive?_of_ne noComment, literals]
  rcases kind with kind | kind
  · simp only [kind]
    rfl
  · simp only [kind]
    rfl

/-- What a node tells of literals are sites of literals right under it, or right under its lists of
arguments. -/
theorem ownSites_sublist (noComment : t.kind ≠ .comment) (source : List UInt8) :
    (∃ form, (t.ownSites source).Sublist (t.sitesUnder source form)) ∨
      (t.ownSites source).Sublist
        ((t.children.filter (·.kind = .arguments)).flatMap (sitesUnder source .dynamicImport)) := by
  have under (form : Form) (t : Tree) :
      t.strings.filterMap (literalSite? source form) = t.sitesUnder source form := by
    rw [strings, List.filterMap_filter, List.filterMap_eq_flatMap_toList, sitesUnder]
    simp only [decide_eq_true_eq]
    rfl
  have right (form : Form) (asks : Tree → Bool) :
      (((t.strings.filter asks).map (form, ·)).filterMap
        fun (form, l) => l.literalSite? source form).Sublist (t.sitesUnder source form) := by
    rw [List.filterMap_map, ← under]
    exact List.filter_sublist.filterMap _
  rw [ownSites, directive?_of_ne noComment, Option.toList_none, List.append_nil, literals]
  split
  · exact .inl ⟨_, right _ _⟩
  · exact .inl ⟨_, right _ _⟩
  · split
    · right
      rw [List.filterMap_map, List.filterMap_flatMap]
      have lists : (t.children.filter fun c =>
          decide (c.field = some .arguments) && decide (c.kind = .arguments)).Sublist
          (t.children.filter (·.kind = .arguments)) := by
        rw [← List.filter_filter]
        exact List.filter_sublist
      have same (c : Tree) : List.filterMap
          ((fun (form, l) => literalSite? source form l) ∘ (Form.dynamicImport, ·)) c.strings =
          sitesUnder source .dynamicImport c := under _ c
      simp only [same]
      exact lists.flatMap _
    · exact .inl ⟨.importFrom, List.nil_sublist _⟩
  · have all := right .importRequire fun _ => true
    rw [List.filter_true] at all
    exact .inl ⟨_, all⟩
  · exact .inl ⟨.importFrom, List.nil_sublist _⟩

/-! ## Up the tree -/

/-- The sites are apart, as those of a tree are, and lie in the tree. -/
structure Separates (source : List UInt8) (t : Tree) (sites : List Site) : Prop where
  parts : sites.Pairwise (t.Parts source)
  within : ∀ site ∈ sites, site.span.Within t.span

theorem Separates.sublist {others : List Site} (h : t.Separates source sites)
    (fewer : others.Sublist sites) : t.Separates source others :=
  ⟨h.parts.sublist fewer, fun site member => h.within site (fewer.subset member)⟩

theorem Separates.perm {others : List Site} (h : t.Separates source sites)
    (same : sites.Perm others) : t.Separates source others :=
  ⟨(same.pairwise_iff Parts.symm).mp h.parts,
    fun site member => h.within site (same.mem_iff.mpr member)⟩

/-- What lies in nodes one behind the other is apart. -/
theorem separates_flatMap {found : Tree → List Site} (nests : t.Nests)
    (below : ∀ c ∈ t.children, c.Separates source (found c)) :
    t.Separates source (t.children.flatMap found) := by
  constructor
  · rw [List.pairwise_flatMap]
    refine ⟨fun c child => (below c child).parts.imp (Parts.mono child), ?_⟩
    refine (nests.ordered t t.self_mem_nodes).imp_of_mem fun {c d} child child' before a first b
      second => ?_
    exact .inl (.inl (before.within ((below c child).within a first)
      ((below d child').within b second)))
  · intro site member
    obtain ⟨c, child, found⟩ := List.mem_flatMap.mp member
    exact ((below c child).within site found).trans (nests.within t t.self_mem_nodes c child)

/-- The sites of a node's subtree, with those that a node further up tells of it. -/
theorem separates_children {told : Tree → List Site} (nests : t.Nests)
    (below : ∀ c ∈ t.children, c.Separates source (told c ++ c.allSites source)) :
    t.Separates source (t.children.flatMap told ++ t.children.flatMap (allSites source)) :=
  (separates_flatMap nests below).perm (List.flatMap_append_perm t.children _ _).symm

theorem within_of_directive? (fits : t.Fits script)
    (h : t.directive? (encode script) = some site) : site.span.Within t.span := by
  obtain ⟨opening, v, rest, marks, line, -, rfl⟩ :=
    exists_of_directive?_of_fits fits t.self_mem_nodes h
  rw [Directive.span_siteAt line]
  refine ⟨Position.le_advanceBy _ _, ?_⟩
  rw [marks.span.stop_eq, List.append_assoc]
  exact Position.le_of_isPrefix ⟨rest, by simp⟩ _

/-- A literal that is a site, with all that is told by the nodes under it: these are directives in
its comments. -/
theorem separates_siteAs? (fits : t.Fits script)
    (all : t.Separates (encode script) (t.allSites (encode script))) (form : Form) :
    t.Separates (encode script)
      ((t.siteAs? (encode script) form).toList ++ t.allSites (encode script)) := by
  cases given : t.siteAs? (encode script) form with
  | none => exact all
  | some site =>
    rw [siteAs?] at given
    split at given
    · next kind =>
      obtain ⟨sound, -, span, -⟩ := of_literalSite? given
      have leaves (c : Tree) (child : c ∈ t.children) : c.children = [] :=
        (fits.pieces t t.self_mem_nodes kind sound c child).1
      refine ⟨List.pairwise_cons.mpr ⟨fun b member => ?_, all.parts⟩,
        List.forall_mem_cons.mpr ⟨span ▸ Span.within_refl _, all.within⟩⟩
      rw [allSites_eq, ownSites_of_kind (.inl kind), List.nil_append] at member
      obtain ⟨c, child, told⟩ := List.mem_flatMap.mp member
      rw [allSites_eq, leaves c child, List.flatMap_nil, List.append_nil,
        ownSites_of_leaf (leaves c child), Option.mem_toList] at told
      exact .inr (.inl ⟨t, t.self_mem_nodes, c, child, kind, span, told⟩)
    · exact absurd given (by simp)

/-- What is told of the literals in a list of arguments, with all that is told in the list. -/
theorem separates_arguments (fits : t.Fits script) (kind : t.kind = .arguments)
    (below : ∀ c ∈ t.children, ∀ form, c.Separates (encode script)
      ((c.siteAs? (encode script) form).toList ++ c.allSites (encode script))) :
    t.Separates (encode script)
      (t.sitesUnder (encode script) .dynamicImport ++ t.allSites (encode script)) := by
  rw [allSites_eq, ownSites_of_kind (.inr kind), List.nil_append]
  exact separates_children fits.toNests fun c child => below c child _

/-- The sites that the nodes of a tree tell are apart. -/
theorem separates_allSites (fits : t.Fits script) :
    t.Separates (encode script) (t.allSites (encode script)) := by
  suffices both : t.Separates (encode script) (t.allSites (encode script)) ∧
      (t.kind = .arguments → t.Separates (encode script)
        (t.sitesUnder (encode script) .dynamicImport ++ t.allSites (encode script))) from both.1
  induction t using induct with
  | step t ih =>
    have literal (c : Tree) (child : c ∈ t.children) (form : Form) :=
      separates_siteAs? (fits.of_child child) (ih c child (fits.of_child child)).1 form
    refine ⟨?_, fun kind => separates_arguments fits kind literal⟩
    by_cases comment : t.kind = .comment
    · have leaf := fits.comments t t.self_mem_nodes comment
      rw [allSites_eq, leaf, List.flatMap_nil, List.append_nil, ownSites_of_leaf leaf]
      cases given : t.directive? (encode script) with
      | none => exact ⟨.nil, fun site member => absurd member List.not_mem_nil⟩
      | some site =>
        exact ⟨List.pairwise_singleton _ _,
          List.forall_mem_singleton.mpr (within_of_directive? fits given)⟩
    rw [allSites_eq]
    rcases ownSites_sublist comment (encode script) with ⟨form, own⟩ | own
    · exact (separates_children fits.toNests fun c child => literal c child form).sublist
        (own.append_right _)
    · let told (c : Tree) : List Site :=
        if c.kind = .arguments then c.sitesUnder (encode script) .dynamicImport else []
      have lists (cs : List Tree) : (cs.filter (·.kind = .arguments)).flatMap
          (sitesUnder (encode script) .dynamicImport) = cs.flatMap told := by
        induction cs with
        | nil => rfl
        | cons c cs ih =>
          by_cases arguments : c.kind = .arguments
          · simp [told, arguments, ih]
          · simp [told, arguments, ih]
      rw [lists] at own
      refine (separates_children fits.toNests fun c child => ?_).sublist (own.append_right _)
      by_cases arguments : c.kind = .arguments
      · simpa only [told, if_pos arguments] using
          (ih c child (fits.of_child child)).2 arguments
      · simpa only [told, if_neg arguments, List.nil_append] using
          (ih c child (fits.of_child child)).1

/-! ## One behind the other -/

/-- A directive in a literal begins behind the literal's quote and does not leave it. -/
theorem Holds.begins (fits : tree.Fits script) (h : tree.Holds (encode script) a b) :
    a.span.start < b.span.start ∧ b.span.Within a.span := by
  obtain ⟨n, member, c, child, -, span, given⟩ := h
  have member' := mem_nodes_trans member (mem_nodes_of_mem_children child)
  have within := within_of_directive? (fits.of_mem member') given
  have inside := fits.within n member c child
  obtain ⟨opening, v, rest, -, line, -, rfl⟩ := exists_of_directive?_of_fits fits member' given
  obtain ⟨behind, written⟩ := opening.exists_written
  have first : c.span.start < (Directive.siteAt opening v c.span.start).span.start := by
    rw [Directive.span_siteAt line]
    exact Position.lt_advanceBy (by simp [written]) _
  rw [span]
  exact ⟨Position.lt_of_le_of_lt inside.1 first, within.trans inside⟩

/-- The site ends before the other one begins, or the other one is that of a directive in its
literal. -/
def Follows (source : List UInt8) (tree : Tree) (a b : Site) : Prop :=
  a.span.stop ≤ b.span.start ∨ tree.Holds source a b ∧ b.span.Within a.span

theorem Fits.proper (fits : tree.Fits script) (member : site ∈ tree.sites (encode script)) :
    site.span.Proper := by
  obtain ⟨-, quote, -, marks⟩ := fits.stands member
  exact marks.proper (List.cons_ne_nil _ _)

/-- In their order the sites of a tree begin one behind the other, and no two lie across each
other. -/
theorem Fits.pairwise_sites (fits : tree.Fits script) :
    (tree.sites (encode script)).Pairwise fun a b =>
      a.span.start < b.span.start ∧ tree.Follows (encode script) a b := by
  have all := (tree.allSites_perm (encode script)).trans (tree.sites_perm _).symm
  have parts := (all.pairwise_iff Parts.symm).mp (separates_allSites fits).parts
  have sorted := Site.pairwise_mergeSort_startsBy
    (tree.statementSites (encode script) ++ tree.directiveSites (encode script))
  refine (parts.and sorted).imp_of_mem fun {a b} member member' both => ?_
  obtain ⟨apart | held | held, order⟩ := both
  · have before := apart.precedes (fits.proper member') order
    exact ⟨before.start_lt (fits.proper member), .inl before⟩
  · obtain ⟨first, within⟩ := held.begins fits
    exact ⟨first, .inr ⟨held, within⟩⟩
  · exact absurd (held.begins fits).1 (Position.not_lt_of_le order)

theorem Fits.ascending (fits : tree.Fits script) :
    Site.Ascending (tree.sites (encode script)) :=
  fits.pairwise_sites.imp And.left

end Tree

/-- The specifiers of a script are none of them empty and begin one behind the other; each has ended
where a later one begins, unless that is a directive in a comment which stands in its literal. So no
two are of the same literal, and they are the sites in statements and directives in the one order
that their beginnings have. -/
theorem specifiers_ascend {parse : String → Option Tree} {script : String} {tree : Tree}
    (parsed : parse script = some tree) (fits : tree.Fits script) :
    ∃ specifiers, extract parse script = .ok specifiers ∧
      (∀ raw ∈ specifiers, raw.site.span.start < raw.site.span.stop) ∧
      (specifiers.Pairwise fun a b => a.site.span.start < b.site.span.start ∧
        tree.Follows (encode script) a.site b.site) ∧
      (specifiers.map fun raw => raw.site.span).Nodup ∧
      ∀ order : List Site, order.map RawSpecifier.classify = specifiers ↔
        order.Perm (tree.statementSites (encode script) ++ tree.directiveSites (encode script)) ∧
          order.Pairwise fun a b => a.span.start ≤ b.span.start := by
  refine ⟨_, extract_of_parse parsed, ?_, ?_, ?_, ?_⟩
  · intro raw member
    obtain ⟨site, found, rfl⟩ := List.mem_map.mp member
    rw [RawSpecifier.site_classify]
    exact fits.proper found
  · simp only [List.pairwise_map, RawSpecifier.site_classify]
    exact fits.pairwise_sites
  · simp only [List.map_map, Function.comp_def, RawSpecifier.site_classify]
    refine List.pairwise_map.mpr (fits.ascending.imp fun before same => ?_)
    exact Position.ne_of_lt before (congrArg Span.start same)
  · intro order
    have all := tree.sites_perm (encode script)
    rw [RawSpecifier.map_classify_inj]
    constructor
    · rintro rfl
      exact ⟨all, fits.ascending.imp Position.le_of_lt⟩
    · rintro ⟨same, sorted⟩
      exact fits.ascending.eq_of_perm (same.trans all.symm) sorted

/-- A literal that goes on over line ends, with a directive in a comment between these. -/
def nestedScript : String := "import \"abc\n// @deno-types=\"b\"\n\";"

theorem sites_nestedScript :
    (outline nestedScript).sites (encode nestedScript) =
      [⟨"abc\n// @deno-types=\"b\"\n", ⟨⟨0, 7⟩, ⟨2, 1⟩⟩, .importFrom⟩] ++
        [⟨"b", ⟨⟨1, 15⟩, ⟨1, 18⟩⟩, .typesHint⟩] :=
  Tree.sites_eq_of_pairwise (by decide +kernel) (by decide +kernel) (by decide +kernel)

/-- Specifiers may overlap: the literal of an import statement has that of a directive in it. -/
theorem specifiers_overlap_nestedScript :
    ∃ specifiers, extract outline? nestedScript = .ok specifiers ∧
      ¬specifiers.Pairwise fun a b => a.site.span.stop ≤ b.site.span.start := by
  refine ⟨_, extract_of_parse rfl, ?_⟩
  rw [sites_nestedScript]
  decide +kernel

theorem specifiers_ascend_nestedScript :
    extract outline? nestedScript =
      .ok [.internal ⟨"abc\n// @deno-types=\"b\"\n", ⟨⟨0, 7⟩, ⟨2, 1⟩⟩, .importFrom⟩,
        .internal ⟨"b", ⟨⟨1, 15⟩, ⟨1, 18⟩⟩, .typesHint⟩] ∧
    (outline nestedScript).Follows (encode nestedScript)
      ⟨"abc\n// @deno-types=\"b\"\n", ⟨⟨0, 7⟩, ⟨2, 1⟩⟩, .importFrom⟩
      ⟨"b", ⟨⟨1, 15⟩, ⟨1, 18⟩⟩, .typesHint⟩ := by
  have parsed : outline? nestedScript = some (outline nestedScript) := rfl
  have found := extract_of_parse parsed
  rw [sites_nestedScript] at found
  obtain ⟨specifiers, same, -, ordered, -⟩ :=
    specifiers_ascend parsed (fits_outline nestedScript)
  obtain rfl := Except.ok.inj (same.symm.trans found)
  have first := (List.pairwise_cons.mp ordered).1 _ List.mem_cons_self
  rw [RawSpecifier.site_classify, RawSpecifier.site_classify] at first
  exact ⟨found.trans (by decide +kernel), first.2⟩

end RemoteIndex.Script
