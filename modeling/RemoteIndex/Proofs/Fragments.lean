import RemoteIndex.Proofs.Trees

/-!
# Trees without the pieces of texts

The text of a literal or of a template stands in pieces under its node, stretches of plain text and
escape sequences. The search for specifiers does not ask for them: a tree without them (`Tree.bare`)
has the same sites.
-/

namespace RemoteIndex.Script.Tree

/-- Is the node a piece of a text? -/
def isFragment (t : Tree) : Bool :=
  (t.kind = .other "string_fragment" || t.kind = .other "escape_sequence") && !t.missing &&
    t.children.isEmpty

mutual

/-- The tree without the pieces of the texts in it. -/
def bare : Tree → Tree
  | ⟨kind, field, missing, first, last, span, children⟩ =>
    ⟨kind, field, missing, first, last, span, bareAll children⟩

/-- The trees without the pieces of the texts among them and in them. -/
def bareAll : List Tree → List Tree
  | [] => []
  | t :: ts => if t.isFragment then bareAll ts else t.bare :: bareAll ts

end

variable {t : Tree} {source : List UInt8} {form : Form}

theorem bareAll_eq (ts : List Tree) : bareAll ts = (ts.filter (!·.isFragment)).map bare := by
  induction ts with
  | nil => rfl
  | cons t ts ih =>
    rw [bareAll, ih, List.filter_cons]
    cases t.isFragment <;> rfl

theorem bare_eq (t : Tree) :
    t.bare = { t with children := (t.children.filter (!·.isFragment)).map bare } := by
  cases t with
  | mk kind field missing first last span children => rw [bare, bareAll_eq]

@[simp]
theorem kind_bare : t.bare.kind = t.kind := by rw [bare_eq]

@[simp]
theorem field_bare : t.bare.field = t.field := by rw [bare_eq]

@[simp]
theorem missing_bare : t.bare.missing = t.missing := by rw [bare_eq]

@[simp]
theorem span_bare : t.bare.span = t.span := by rw [bare_eq]

@[simp]
theorem children_bare : t.bare.children = (t.children.filter (!·.isFragment)).map bare := by
  rw [bare_eq]

@[simp]
theorem text?_bare : t.bare.text? source = t.text? source := by rw [text?, text?, bare_eq]

/-- A piece of a text is of no other kind, and there is nothing under it and no mistake in it. -/
theorem isFragment_iff : t.isFragment = true ↔
    (t.kind = .other "string_fragment" ∨ t.kind = .other "escape_sequence") ∧ t.missing = false ∧
      t.children = [] := by
  simp only [isFragment, Bool.and_eq_true, Bool.or_eq_true, decide_eq_true_eq, Bool.not_eq_true',
    List.isEmpty_iff, and_assoc]

variable {children : List Tree}

/-- What the pieces of texts have nothing of is the same without them. -/
theorem flatMap_bare {α : Type} {f : Tree → List α}
    (none : ∀ c : Tree, c.isFragment = true → f c = []) (same : ∀ c ∈ children, f c.bare = f c) :
    ((children.filter (!·.isFragment)).map bare).flatMap f = children.flatMap f := by
  induction children with
  | nil => rfl
  | cons c cs ih =>
    obtain ⟨here, behind⟩ := List.forall_mem_cons.mp same
    cases fragment : c.isFragment with
    | true => simp [fragment, none c fragment, ih behind]
    | false => simp [fragment, here, ih behind]

/-- What no piece of a text is can be picked out without them. -/
theorem filter_bare {asks : Tree → Bool} (none : ∀ c : Tree, c.isFragment = true → asks c = false)
    (same : ∀ c : Tree, asks c.bare = asks c) :
    ((children.filter (!·.isFragment)).map bare).filter asks = (children.filter asks).map bare := by
  induction children with
  | nil => rfl
  | cons c cs ih =>
    cases fragment : c.isFragment with
    | true => simp [fragment, none c fragment, ih]
    | false => cases asked : asks c <;> simp [fragment, same, asked, ih]

theorem any_bare {asks : Tree → Bool} (none : ∀ c : Tree, c.isFragment = true → asks c = false)
    (same : ∀ c ∈ children, asks c.bare = asks c) :
    ((children.filter (!·.isFragment)).map bare).any asks = children.any asks := by
  induction children with
  | nil => rfl
  | cons c cs ih =>
    obtain ⟨here, behind⟩ := List.forall_mem_cons.mp same
    cases fragment : c.isFragment with
    | true => simp [fragment, none c fragment, ih behind]
    | false => simp [fragment, here, ih behind]

/-! ## Literals -/

theorem kind_of_isFragment (h : t.isFragment = true) : ∃ name, t.kind = .other name := by
  rcases (isFragment_iff.mp h).1 with kind | kind
  · exact ⟨_, kind⟩
  · exact ⟨_, kind⟩

theorem hasError_of_isFragment (h : t.isFragment = true) : t.hasError = false := by
  obtain ⟨-, present, leaf⟩ := isFragment_iff.mp h
  obtain ⟨name, kind⟩ := kind_of_isFragment h
  simp [hasError_eq, kind, present, leaf]

theorem hasError_bare (t : Tree) : t.bare.hasError = t.hasError := by
  induction t using induct with
  | step t ih =>
    rw [hasError_eq, hasError_eq, kind_bare, missing_bare, children_bare,
      any_bare (fun c => hasError_of_isFragment) ih]

theorem strings_bare : t.bare.strings = t.strings.map bare := by
  rw [strings, children_bare]
  refine filter_bare (fun c fragment => ?_) fun c => by rw [kind_bare]
  obtain ⟨name, kind⟩ := kind_of_isFragment fragment
  simp [kind]

theorem literals_bare : t.bare.literals = t.literals.map fun (form, l) => (form, l.bare) := by
  have callee : (t.bare.children.any fun c => c.field = some .function && c.kind = .importCallee) =
      t.children.any fun c => c.field = some .function && c.kind = .importCallee := by
    rw [children_bare]
    refine any_bare (fun c fragment => ?_) fun c _ => by rw [field_bare, kind_bare]
    obtain ⟨name, kind⟩ := kind_of_isFragment fragment
    simp [kind]
  have lists :
      (t.bare.children.filter fun c => c.field = some .arguments && c.kind = .arguments) =
        (t.children.filter fun c => c.field = some .arguments && c.kind = .arguments).map bare := by
    rw [children_bare]
    refine filter_bare (fun c fragment => ?_) fun c => by rw [field_bare, kind_bare]
    obtain ⟨name, kind⟩ := kind_of_isFragment fragment
    simp [kind]
  simp only [literals, kind_bare, strings_bare, callee, lists]
  split
  all_goals
    simp only [List.filter_map, List.map_map, List.flatMap_map, strings_bare, Function.comp_def,
      field_bare, List.map_nil]
  split
  · simp only [List.map_flatMap, List.map_map, Function.comp_def]
  · rfl

/-! ## Sites -/

theorem literalSite?_bare : t.bare.literalSite? source form = t.literalSite? source form := by
  rw [literalSite?, literalSite?, hasError_bare, missing_bare, text?_bare, span_bare]

theorem directive?_bare : t.bare.directive? source = t.directive? source := by
  rw [directive?, directive?, kind_bare, text?_bare, span_bare]

theorem statementSites_bare (t : Tree) :
    t.bare.statementSites source = t.statementSites source := by
  induction t using induct with
  | step t ih =>
    have none (c : Tree) (fragment : c.isFragment = true) : c.statementSites source = [] := by
      obtain ⟨-, -, leaf⟩ := isFragment_iff.mp fragment
      rw [statementSites_eq, literals_of_leaf leaf, leaf]
      rfl
    rw [statementSites_eq, statementSites_eq, literals_bare, children_bare, flatMap_bare none ih,
      List.filterMap_map]
    simp only [Function.comp_def, literalSite?_bare]

theorem directiveSites_bare (t : Tree) :
    t.bare.directiveSites source = t.directiveSites source := by
  induction t using induct with
  | step t ih =>
    have none (c : Tree) (fragment : c.isFragment = true) : c.directiveSites source = [] := by
      obtain ⟨-, -, leaf⟩ := isFragment_iff.mp fragment
      obtain ⟨name, kind⟩ := kind_of_isFragment fragment
      rw [directiveSites_eq, directive?, kind, leaf]
      rfl
    rw [directiveSites_eq, directiveSites_eq, directive?_bare, children_bare,
      flatMap_bare none ih]

/-- Without the pieces of texts a tree has the same sites. -/
theorem sites_bare (t : Tree) (source : List UInt8) : t.bare.sites source = t.sites source := by
  rw [sites, sites, statementSites_bare, directiveSites_bare]

end RemoteIndex.Script.Tree
