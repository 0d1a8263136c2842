import RemoteIndex.Proofs.Directives
import RemoteIndex.Proofs.Layout
import RemoteIndex.Proofs.Literals
import RemoteIndex.Proofs.Trees

/-!
# The outline fits the script

The tokens of a script stand in it one behind the other, and so do the comments in a literal. So the
outline of a script is a tree that fits it, from the comments up to the whole.
-/

namespace RemoteIndex.Script

open Position (origin advanceBy_append offset_advanceBy)
open Text.Utf8 (encode width)

variable {script : String} {span outer : Span} {part text : List Char}

/-! ## One node -/

/-- A node fits if the nodes right under it do and lie in it, one behind the other. -/
theorem Tree.Fits.node {t : Tree} (marks : ∃ part, t.Marks script.toList part)
    (children : ∀ c ∈ t.children, c.Fits script ∧ c.span.Within t.span)
    (ordered : t.children.Pairwise fun a b => a.span.Precedes b.span)
    (comment : t.kind = .comment → t.children = [] ∧
      ∀ rest, t.Marks script.toList ('/' :: '/' :: rest) → '\n' ∉ rest)
    (string : t.kind = .string → t.hasError = false →
      ∀ c ∈ t.children, c.children = [] ∧ (c.kind = .comment → c.span.stop < t.span.stop)) :
    t.Fits script := by
  -- What is asked of all nodes is asked of this one, or it is known of one right under it.
  have all {P : Tree → Prop} (here : P t) (below : ∀ c ∈ t.children, ∀ n ∈ c.nodes, P n) :
      ∀ n ∈ t.nodes, P n := by
    intro n member
    rcases mem_nodes.mp member with rfl | ⟨c, child, member⟩
    · exact here
    · exact below c child n member
  refine ⟨⟨all ?_ ?_, all ?_ ?_⟩, all ?_ ?_, all ?_ ?_, all ?_ ?_, all ?_ ?_⟩
  · exact fun c member => (children c member).2
  · exact fun c member => (children c member).1.within
  · exact ordered
  · exact fun c member => (children c member).1.ordered
  · exact marks
  · exact fun c member => (children c member).1.marks
  · exact fun kind => (comment kind).2
  · exact fun c member => (children c member).1.inLine
  · exact fun kind => (comment kind).1
  · exact fun c member => (children c member).1.comments
  · exact string
  · exact fun c member => (children c member).1.pieces

/-- A node with a span that marks something marks it. -/
theorem marks_nodeAt (h : span.Marks script.toList part) (kind : Tree.Kind)
    (field : Option Tree.Field) (children : List Tree) :
    (nodeAt (encode script) kind field span children).Marks script.toList part := by
  obtain ⟨before, after, whole, start, stop⟩ := h
  have source : encode script = encode (String.ofList (before ++ part ++ after)) := by
    rw [← whole, String.ofList_toList]
  refine ⟨before, after, whole, ?_, ?_, ?_⟩
  · rw [nodeAt, start, source, List.append_assoc]
    exact offset_advanceBy before (part ++ after)
  · rw [nodeAt, stop, source]
    exact offset_advanceBy (before ++ part) after
  · rw [← start, ← stop]
    rfl

/-- A node that is neither a comment nor a literal fits if the nodes right under it do. -/
theorem fits_nodeAt {kind : Tree.Kind} {field : Option Tree.Field} {children : List Tree}
    (h : span.Marks script.toList part) (noComment : kind ≠ .comment) (noString : kind ≠ .string)
    (below : ∀ c ∈ children, c.Fits script ∧ c.span.Within span)
    (ordered : children.Pairwise fun a b => a.span.Precedes b.span) :
    (nodeAt (encode script) kind field span children).Fits script :=
  .node ⟨part, marks_nodeAt h _ _ _⟩ below ordered (absurd · noComment) (absurd · noString)

/-! ## Comments and literals -/

theorem fits_commentNode {start : Position}
    (h : Span.Marks ⟨start, start.advanceBy text⟩ script.toList text) (inLine : '\n' ∉ text) :
    (commentNode (encode script) start text).Fits script := by
  have marks := marks_nodeAt h .comment none []
  refine .node ⟨text, marks⟩ (fun c member => absurd member List.not_mem_nil) .nil
    (fun _ => ⟨rfl, fun rest other => ?_⟩) (fun _ _ c member => absurd member List.not_mem_nil)
  have same : text = '/' :: '/' :: rest :=
    String.ofList_injective (Option.some.inj (marks.text?.symm.trans other.text?))
  rw [same, List.mem_cons, List.mem_cons, not_or, not_or] at inLine
  exact inLine.2.2

/-- Comments stand in a span, one behind the other. -/
structure Held (span : Span) (script : String) (comments : List (Position × List Char)) : Prop where
  marks : ∀ c ∈ comments, Span.Marks ⟨c.1, c.1.advanceBy c.2⟩ script.toList c.2
  within : ∀ c ∈ comments, Span.Within ⟨c.1, c.1.advanceBy c.2⟩ span
  inLine : ∀ c ∈ comments, '\n' ∉ c.2
  ordered : comments.Pairwise fun a b => a.1.advanceBy a.2 ≤ b.1

/-- Both quotes take up as much. -/
theorem opening_eq {quote : Char} {p : Position} (isQuote : quote = '"' ∨ quote = '\'') :
    p.advance '"' = p.advance quote := by
  rcases isQuote with rfl | rfl
  · rfl
  · rfl

theorem held_commentsIn {quote : Char} {rest : List Char} {inside : String}
    (marks : span.Marks script.toList (quote :: (inside.toList ++ rest)))
    (isQuote : quote = '"' ∨ quote = '\'') :
    Held span script ((commentsIn inside.toList).map fun (before, text) =>
      ((span.start.advance '"').advanceBy before, text)) := by
  have inner {found : List Char × List Char} (member : found ∈ commentsIn inside.toList) :
      ∃ after, quote :: (inside.toList ++ rest) = (quote :: found.1) ++ found.2 ++ after := by
    obtain ⟨⟨after, whole⟩, -⟩ := of_mem_commentsIn member
    exact ⟨after ++ rest, by simp [← whole]⟩
  rw [opening_eq isQuote]
  refine ⟨List.forall_mem_map.mpr fun found member => ?_,
    List.forall_mem_map.mpr fun found member => ?_,
    List.forall_mem_map.mpr fun found member => ?_, ?_⟩
  · obtain ⟨after, whole⟩ := inner member
    have middle := (whole ▸ marks).middle.1
    rwa [advanceBy_append] at middle
  · obtain ⟨after, whole⟩ := inner member
    have middle := (whole ▸ marks).middle.2
    rwa [advanceBy_append] at middle
  · obtain ⟨-, rest, comment, inLine⟩ := of_mem_commentsIn member
    dsimp only
    rw [comment]
    intro feed
    simp only [List.mem_cons, Char.reduceEq, false_or] at feed
    exact absurd (inLine _ feed) (by decide)
  · refine List.pairwise_map.mpr ((pairwise_commentsIn inside.toList).imp fun before => ?_)
    rw [← advanceBy_append]
    exact Position.le_of_isPrefix before _

/-- Where something follows what a literal holds, no comment in it is its end. -/
theorem stop_lt_of_mem_commentsIn {quote : Char} {rest : List Char} {inside : String}
    (marks : span.Marks script.toList (quote :: (inside.toList ++ rest)))
    (isQuote : quote = '"' ∨ quote = '\'') (more : rest ≠ []) :
    ∀ c ∈ (commentsIn inside.toList).map fun (before, text) =>
      ((span.start.advance '"').advanceBy before, text), c.1.advanceBy c.2 < span.stop := by
  rw [opening_eq isQuote]
  refine List.forall_mem_map.mpr fun found member => ?_
  have stop : span.stop =
      ((span.start.advance quote).advanceBy inside.toList).advanceBy rest := by
    rw [marks.stop_eq, Position.advanceBy_cons, advanceBy_append]
  rw [stop, ← advanceBy_append]
  exact Position.lt_of_le_of_lt (Position.le_of_isPrefix (of_mem_commentsIn member).1 _)
    (Position.lt_advanceBy more _)

/-- The comments that a token is or holds stand in it. -/
theorem held_comments {t : Token} (marks : t.span.Marks script.toList part)
    (spells : t.kind.Spells part) : Held t.span script t.comments := by
  obtain ⟨kind, span⟩ := t
  cases kind with
  | comment text =>
    obtain ⟨rfl, inLine⟩ := spells
    have whole : (⟨span.start, span.start.advanceBy text.toList⟩ : Span) = span := by
      rw [← marks.stop_eq]
    refine ⟨?_, ?_, ?_, List.pairwise_singleton _ _⟩
    · exact List.forall_mem_singleton.mpr (whole ▸ marks)
    · exact List.forall_mem_singleton.mpr (whole ▸ Span.within_refl _)
    · exact List.forall_mem_singleton.mpr inLine
  | string inside =>
    obtain ⟨quote, isQuote, rfl⟩ := spells
    exact held_commentsIn marks isQuote
  | fragment inside =>
    obtain ⟨quote, rest, isQuote, rfl⟩ := spells
    exact held_commentsIn marks isQuote
  | _ => 
    have nothing {P : Position × List Char → Prop} : ∀ c ∈ [], P c :=
      fun c member => absurd member List.not_mem_nil
    exact ⟨nothing, nothing, nothing, .nil⟩

/-- The nodes of comments in a span. -/
theorem Held.nodes {comments : List (Position × List Char)} (h : Held span script comments) :
    let nodes := comments.map fun (start, text) => commentNode (encode script) start text
    (∀ c ∈ nodes, c.Fits script ∧ c.span.Within span) ∧
      nodes.Pairwise fun a b => a.span.Precedes b.span := by
  refine ⟨List.forall_mem_map.mpr fun comment member => ?_, List.pairwise_map.mpr h.ordered⟩
  exact ⟨fits_commentNode (h.marks _ member) (h.inLine _ member), h.within _ member⟩

/-! ## Tokens -/

/-- A literal with the comments in it. -/
theorem fits_literal {comments : List (Position × List Char)}
    (marks : span.Marks script.toList part) (held : Held span script comments)
    (ends : ∀ c ∈ comments, c.1.advanceBy c.2 < span.stop) (field : Option Tree.Field) :
    (nodeAt (encode script) .string field span
      (comments.map fun (start, text) => commentNode (encode script) start text)).Fits script := by
  obtain ⟨below, ordered⟩ := held.nodes
  exact .node ⟨part, marks_nodeAt marks _ _ _⟩ below ordered (fun kind => nomatch kind)
    fun _ _ => List.forall_mem_map.mpr fun c member => ⟨rfl, fun _ => ends c member⟩

theorem fits_nodeAround {comments : List (Position × List Char)}
    (marks : span.Marks script.toList part) (held : Held span script comments)
    (ends : ∀ c ∈ comments, c.1.advanceBy c.2 < span.stop) (form : Form) :
    let n := nodeAround (encode script) form span
      (comments.map fun (start, text) => commentNode (encode script) start text)
    n.Fits script ∧ n.span = span := by
  have one (kind : Tree.Kind) (field : Option Tree.Field) (noComment : kind ≠ .comment)
      (noString : kind ≠ .string) {c : Tree} (fits : c.Fits script) (same : c.span = span) :
      (nodeAt (encode script) kind field span [c]).Fits script :=
    fits_nodeAt marks noComment noString
      (List.forall_mem_singleton.mpr ⟨fits, same ▸ Span.within_refl _⟩)
      (List.pairwise_singleton _ _)
  have literal := fits_literal marks held ends
  cases form with
  | importFrom => exact ⟨one .importStatement none nofun nofun (literal _) rfl, rfl⟩
  | exportFrom => exact ⟨one .exportStatement none nofun nofun (literal _) rfl, rfl⟩
  | dynamicImport =>
    have empty : Span.Marks ⟨span.start, span.start⟩ script.toList [] := by
      have whole : part = [] ++ [] ++ part := rfl
      exact (whole ▸ marks).middle.1
    have callee : (nodeAt (encode script) .importCallee (some .function)
        ⟨span.start, span.start⟩ []).Fits script :=
      fits_nodeAt empty nofun nofun (fun c member => absurd member List.not_mem_nil) .nil
    have arguments := one .arguments (some .arguments) nofun nofun (literal none) rfl
    have proper : span.start ≤ span.stop := marks.stop_eq ▸ Position.le_advanceBy _ _
    refine ⟨fits_nodeAt marks nofun nofun ?_ ?_, rfl⟩
    · refine List.forall_mem_cons.mpr ⟨⟨callee, Position.le_refl _, proper⟩, ?_⟩
      exact List.forall_mem_singleton.mpr ⟨arguments, Span.within_refl _⟩
    · refine List.pairwise_cons.mpr ⟨?_, List.pairwise_singleton _ _⟩
      exact List.forall_mem_singleton.mpr (Position.le_refl _)
  | _ => exact ⟨one .importRequireClause none nofun nofun (literal _) rfl, rfl⟩

/-- What a token is in the outline fits the script and has the token's span. -/
theorem fits_of_nodeOf? {t : Token} {n : Tree} {sites : List Site}
    (marks : t.span.Marks script.toList part) (spells : t.kind.Spells part)
    (h : nodeOf? (encode script) sites t = some n) : n.Fits script ∧ n.span = t.span := by
  have held := held_comments marks spells
  rw [nodeOf?] at h
  dsimp only at h
  split at h
  · next text kind =>
    rw [kind] at spells
    obtain ⟨rfl, inLine⟩ := spells
    have whole : (⟨t.span.start, t.span.start.advanceBy text.toList⟩ : Span) = t.span := by
      rw [← marks.stop_eq]
    obtain rfl := Option.some.inj h
    exact ⟨fits_commentNode (whole ▸ marks) inLine, whole⟩
  · next inside kind =>
    have ends : ∀ c ∈ t.comments, c.1.advanceBy c.2 < t.span.stop := by
      rw [kind] at spells
      obtain ⟨quote, isQuote, rfl⟩ := spells
      have whole := stop_lt_of_mem_commentsIn marks isQuote (List.cons_ne_nil _ _)
      rwa [Token.comments, kind]
    split at h
    · obtain rfl := Option.some.inj h
      exact fits_nodeAround marks held ends _
    · obtain rfl := Option.some.inj h
      exact ⟨fits_literal marks held ends none, rfl⟩
  · obtain rfl := Option.some.inj h
    obtain ⟨below, ordered⟩ := held.nodes
    exact ⟨fits_nodeAt marks nofun nofun below ordered, rfl⟩
  · exact absurd h (by simp)

/-! ## The whole -/

/-- No token begins before the first one. -/
theorem firstStart_le {cs : List Char} {t : Token} (member : t ∈ tokensOf cs) (p : Position) :
    ((tokensOf cs).head?.map (·.span.start)).getD p ≤ t.span.start := by
  have ordered := pairwise_tokensOf cs
  have proper (t : Token) (member : t ∈ tokensOf cs) := proper_of_mem_tokensOf member
  cases tokens : tokensOf cs with
  | nil => exact absurd (tokens ▸ member) List.not_mem_nil
  | cons first rest =>
    rw [tokens] at ordered member proper
    rcases List.mem_cons.mp member with rfl | behind
    · exact Position.le_refl _
    · exact Position.le_trans (Position.le_of_lt (proper first List.mem_cons_self))
        ((List.pairwise_cons.mp ordered).1 t behind)

/-- The outline of a script fits it. -/
theorem fits_outline (script : String) : (outline script).Fits script := by
  have laid := lays_tokensOf script.toList
  have marks : ∀ t ∈ tokensOf script.toList,
      ∃ part, t.span.Marks script.toList part ∧ t.kind.Spells part := by
    simpa only [List.mem_reverse] using laid.marks
  have ordered := pairwise_tokensOf script.toList
  have bounds : ∀ t ∈ tokensOf script.toList,
      t.span.Proper ∧ t.span.stop ≤ origin.advanceBy script.toList := by
    simpa only [List.mem_reverse] using laid.separate.2
  have of_token {n : Tree} (member : n ∈ (tokensOf script.toList).filterMap
      (nodeOf? (encode script) (statementSites (tokensOf script.toList)))) :
      ∃ t ∈ tokensOf script.toList, n.Fits script ∧ n.span = t.span := by
    obtain ⟨t, token, given⟩ := List.mem_filterMap.mp member
    obtain ⟨part, stands, spells⟩ := marks t token
    exact ⟨t, token, fits_of_nodeOf? stands spells given⟩
  have whole : ∃ part, Span.Marks ⟨((tokensOf script.toList).head?.map (·.span.start)).getD
      (origin.advanceBy script.toList), origin.advanceBy script.toList⟩ script.toList part := by
    cases first : (tokensOf script.toList).head? with
    | none => exact ⟨[], script.toList, [], by simp, rfl, by simp⟩
    | some t =>
      obtain ⟨part, ⟨before, after, text, start, -⟩, -⟩ := marks t (List.mem_of_head? first)
      exact ⟨part ++ after, before, [], by simp [text], start, by simp [text]⟩
  obtain ⟨part, whole⟩ := whole
  rw [outline]
  refine fits_nodeAt whole nofun nofun (fun n member => ?_) ?_
  · obtain ⟨t, token, fits, span⟩ := of_token member
    exact ⟨fits, span ▸ firstStart_le token _, span ▸ (bounds t token).2⟩
  · rw [List.pairwise_filterMap]
    refine ordered.imp_of_mem fun member member' before n given n' given' => ?_
    obtain ⟨part, stands, spells⟩ := marks _ member
    obtain ⟨part', stands', spells'⟩ := marks _ member'
    rw [(fits_of_nodeOf? stands spells given).2, (fits_of_nodeOf? stands' spells' given').2]
    exact before

/-! ## Sites -/

/-- May a literal in a statement or a call have the form? -/
def isOfStatement : Form → Bool
  | .reference => false
  | .typesHint => false
  | _ => true

/-- The site that a token is in the outline, where these sites have been found in statements. -/
def Token.site? (sites : List Site) (t : Token) : Option Site :=
  match t.kind with
  | .string text =>
    (sites.find? (·.span = t.span)).bind fun site =>
      if text.isEmpty then none else some ⟨text, t.span, site.form⟩
  | _ => none

/-- The sites of the directives that a token is or holds. -/
def Token.directives (t : Token) : List Site :=
  t.comments.filterMap fun (start, text) => directiveSite? start (String.ofList text)

variable {comments : List (Position × List Char)}

theorem statementSites_commentNodes (source source' : List UInt8)
    (comments : List (Position × List Char)) :
    (comments.map fun (start, text) => commentNode source start text).flatMap
      (Tree.statementSites source') = [] := by
  rw [List.flatMap_eq_nil_iff, List.forall_mem_map]
  intro c member
  rfl

/-- In the outline a literal is as it stands in the script, with its comments or without. -/
theorem literalSite?_nodeAt {inside : String} (marks : span.Marks script.toList part)
    (spells : (Token.Kind.string inside).Spells part) (field : Option Tree.Field) (form : Form)
    (comments : List (Position × List Char)) :
    (nodeAt (encode script) .string field span
        (comments.map fun (start, text) => commentNode (encode script) start text)).literalSite?
      (encode script) form = if inside.isEmpty then none else some ⟨inside, span, form⟩ := by
  obtain ⟨quote, isQuote, rfl⟩ := spells
  have text := (marks_nodeAt marks .string field
    (comments.map fun (start, text) => commentNode (encode script) start text)).text?
  rw [String.ofList_toList] at text
  have sound : (nodeAt (encode script) .string field span (comments.map fun (start, text) =>
      commentNode (encode script) start text)).hasError = false := by
    rw [Tree.hasError_eq, Bool.or_eq_false_iff]
    refine ⟨rfl, List.any_eq_false.mpr (List.forall_mem_map.mpr fun c member => ?_)⟩
    exact Bool.false_ne_true
  rw [Tree.literalSite?_of_text sound text, Tree.unquote?_enclosed, if_pos ⟨isQuote, rfl⟩,
    String.ofList_toList]
  rfl

/-- A literal that is no more than a literal tells no site. -/
theorem statementSites_literal (field : Option Tree.Field) (span : Span)
    (source source' : List UInt8) (comments : List (Position × List Char)) :
    (nodeAt source .string field span (comments.map fun (start, text) =>
      commentNode source start text)).statementSites source' = [] := by
  rw [Tree.statementSites_eq]
  exact statementSites_commentNodes source source' comments

theorem statementSites_nodeAround {inside : String} {form : Form}
    (marks : span.Marks script.toList part) (spells : (Token.Kind.string inside).Spells part)
    (statement : isOfStatement form = true) :
    (nodeAround (encode script) form span (comments.map fun (start, text) =>
        commentNode (encode script) start text)).statementSites (encode script) =
      (if inside.isEmpty then none else some ⟨inside, span, form⟩ : Option Site).toList := by
  have site (field : Option Tree.Field) (form : Form) :=
    literalSite?_nodeAt marks spells field form comments
  have literal (field : Option Tree.Field) :=
    statementSites_literal field span (encode script) (encode script) comments
  -- The node tells the literal, and nothing under it tells any more.
  have told {t l : Tree} (literals : t.literals = [(form, l)])
      (below : t.children.flatMap (Tree.statementSites (encode script)) = []) :
      t.statementSites (encode script) = (l.literalSite? (encode script) form).toList := by
    rw [Tree.statementSites_eq, literals, below, List.append_nil, List.filterMap_cons]
    dsimp only
    cases l.literalSite? (encode script) form <;> rfl
  have below {c : Tree} (nothing : c.statementSites (encode script) = []) :
      [c].flatMap (Tree.statementSites (encode script)) = [] := by
    rw [List.flatMap_singleton, nothing]
  cases form with
  | reference | typesHint => exact absurd statement Bool.false_ne_true
  | importFrom => exact (told rfl (below (literal _))).trans (congrArg _ (site _ _))
  | exportFrom => exact (told rfl (below (literal _))).trans (congrArg _ (site _ _))
  | importRequire => exact (told rfl (below (literal _))).trans (congrArg _ (site _ _))
  | dynamicImport =>
    have list : (nodeAt (encode script) .arguments (some .arguments) span
        [nodeAt (encode script) .string none span (comments.map fun (start, text) =>
          commentNode (encode script) start text)]).statementSites (encode script) = [] := by
      rw [Tree.statementSites_eq]
      exact below (literal none)
    exact (told rfl (below list)).trans (congrArg _ (site _ _))

/-- What is a token in the outline tells the token's site. -/
theorem statementSites_nodeOf? {t : Token} {sites : List Site}
    (marks : t.span.Marks script.toList part) (spells : t.kind.Spells part)
    (statements : ∀ site ∈ sites, isOfStatement site.form = true) :
    (nodeOf? (encode script) sites t).toList.flatMap (Tree.statementSites (encode script)) =
      (t.site? sites).toList := by
  obtain ⟨kind, span⟩ := t
  cases kind with
  | comment text => rfl
  | fragment text =>
    have nothing := statementSites_commentNodes (encode script) (encode script)
      (Token.comments ⟨.fragment text, span⟩)
    rw [nodeOf?, Option.toList_some, List.flatMap_singleton, Tree.statementSites_eq]
    exact nothing
  | string text =>
    rw [nodeOf?, Token.site?]
    cases found : sites.find? (·.span = span) with
    | none =>
      dsimp only
      exact (List.flatMap_singleton ..).trans (statementSites_literal none _ _ _ _)
    | some site =>
      dsimp only
      exact (List.flatMap_singleton ..).trans
        (statementSites_nodeAround marks spells (statements site (List.mem_of_find?_eq_some found)))
  | _ => rfl

/-- Of comments that stand in the script those that are directives tell their sites. -/
theorem directiveSites_commentNodes (held : Held outer script comments) :
    (comments.map fun (start, text) => commentNode (encode script) start text).flatMap
        (Tree.directiveSites (encode script)) =
      comments.filterMap fun (start, text) => directiveSite? start (String.ofList text) := by
  rw [List.flatMap_map, List.filterMap_eq_flatMap_toList]
  refine List.flatMap_congr fun c member => ?_
  have read := (marks_nodeAt (held.marks c member) .comment none []).text?
  rw [String.ofList_toList] at read
  have given : (commentNode (encode script) c.1 c.2).directive? (encode script) =
      directiveSite? c.1 (String.ofList c.2) := Tree.directive?_of_text rfl read
  rw [Tree.directiveSites_eq, given]
  exact List.append_nil _

/-- A node that is no comment tells the directives that are under it. -/
theorem directiveSites_nodeAt {kind : Tree.Kind} (source : List UInt8) (field : Option Tree.Field)
    (span : Span) (children : List Tree) (noComment : kind ≠ .comment) :
    (nodeAt source kind field span children).directiveSites source =
      children.flatMap (Tree.directiveSites source) := by
  rw [Tree.directiveSites_eq, Tree.directive?]
  exact congrArg (Option.toList · ++ _) (if_neg noComment)

theorem directiveSites_nodeAround (source : List UInt8) (form : Form) (span : Span)
    (comments : List Tree) :
    (nodeAround source form span comments).directiveSites source =
      comments.flatMap (Tree.directiveSites source) := by
  have one (c : Tree) :
      [c].flatMap (Tree.directiveSites source) = c.directiveSites source :=
    List.flatMap_singleton ..
  cases form with
  | dynamicImport =>
    rw [nodeAround, directiveSites_nodeAt, List.flatMap_cons, directiveSites_nodeAt,
      List.flatMap_nil, List.nil_append, one, directiveSites_nodeAt, one, directiveSites_nodeAt]
    all_goals nofun
  | _ =>
    rw [nodeAround, directiveSites_nodeAt, one, directiveSites_nodeAt]
    all_goals nofun

theorem directiveSites_nodeOf? {t : Token} (marks : t.span.Marks script.toList part)
    (spells : t.kind.Spells part) (sites : List Site) :
    (nodeOf? (encode script) sites t).toList.flatMap (Tree.directiveSites (encode script)) =
      t.directives := by
  have told := directiveSites_commentNodes (held_comments marks spells)
  have one (c : Tree) : (some c).toList.flatMap (Tree.directiveSites (encode script)) =
      c.directiveSites (encode script) := List.flatMap_singleton ..
  obtain ⟨kind, span⟩ := t
  cases kind with
  | comment text => exact told
  | fragment text =>
    rw [nodeOf?, one, directiveSites_nodeAt]
    · exact told
    · nofun
  | string text =>
    rw [nodeOf?]
    dsimp only
    cases sites.find? (·.span = span) with
    | none =>
      rw [one, directiveSites_nodeAt]
      · exact told
      · nofun
    | some site =>
      rw [one, directiveSites_nodeAround]
      exact told
  | _ => rfl

/-- What the tokens are in the outline, one after the other, each by what stands there. -/
theorem flatMap_children_outline {α : Type} {f : Tree → List α} {g : Token → List α}
    (script : String)
    (same : ∀ t ∈ tokensOf script.toList, ∀ part, t.span.Marks script.toList part →
      t.kind.Spells part →
        (nodeOf? (encode script) (statementSites (tokensOf script.toList)) t).toList.flatMap f =
          g t) :
    (outline script).children.flatMap f = (tokensOf script.toList).flatMap g := by
  have marks : ∀ t ∈ tokensOf script.toList,
      ∃ part, t.span.Marks script.toList part ∧ t.kind.Spells part := by
    simpa only [List.mem_reverse] using (lays_tokensOf script.toList).marks
  have children : (outline script).children = (tokensOf script.toList).flatMap fun t =>
      (nodeOf? (encode script) (statementSites (tokensOf script.toList)) t).toList :=
    List.filterMap_eq_flatMap_toList ..
  rw [children, List.flatMap_assoc]
  refine List.flatMap_congr fun t member => ?_
  obtain ⟨part, stands, spells⟩ := marks t member
  exact same t member part stands spells

/-- The site with the form that the node around its literal has in the outline. -/
def inStatement (site : Site) : Site :=
  { site with form := if isOfStatement site.form then site.form else .importRequire }

theorem isOfStatement_inStatement (site : Site) :
    isOfStatement (inStatement site).form = true := by
  rw [inStatement]
  split
  · assumption
  · rfl

theorem map_inStatement {sites : List Site}
    (statements : ∀ site ∈ sites, isOfStatement site.form = true) :
    sites.map inStatement = sites := by
  refine (List.map_congr_left fun site member => ?_).trans (List.map_id sites)
  rw [inStatement, if_pos (statements site member), id]

theorem nodeOf?_map_inStatement (source : List UInt8) (sites : List Site) (t : Token) :
    nodeOf? source (sites.map inStatement) t = nodeOf? source sites t := by
  have around (site : Site) (comments : List Tree) :
      nodeAround source (inStatement site).form t.span comments =
        nodeAround source site.form t.span comments := by
    obtain ⟨text, span, form⟩ := site
    cases form <;> rfl
  rw [nodeOf?, nodeOf?]
  cases t.kind with
  | string text =>
    have found : (sites.map inStatement).find? (·.span = t.span) =
        (sites.find? (·.span = t.span)).map inStatement := List.find?_map
    dsimp only
    rw [found]
    cases sites.find? (·.span = t.span) with
    | none => rfl
    | some site => exact congrArg some (around site _)
  | _ => rfl

/-- The sites in statements that an outline has are those of its tokens, as the reader has found
them. -/
theorem statementSites_outline (script : String) :
    (outline script).statementSites (encode script) = (tokensOf script.toList).filterMap
      (Token.site? ((statementSites (tokensOf script.toList)).map inStatement)) := by
  rw [Tree.statementSites_eq, List.filterMap_eq_flatMap_toList (l := tokensOf _)]
  refine flatMap_children_outline script fun t _ part marks spells => ?_
  rw [← nodeOf?_map_inStatement]
  exact statementSites_nodeOf? marks spells
    (List.forall_mem_map.mpr fun site _ => isOfStatement_inStatement site)

/-- The directives that an outline has are those in its tokens. -/
theorem directiveSites_outline (script : String) :
    (outline script).directiveSites (encode script) =
      (tokensOf script.toList).flatMap Token.directives := by
  rw [Tree.directiveSites_eq]
  exact flatMap_children_outline script fun t _ part marks spells =>
    directiveSites_nodeOf? marks spells _

end RemoteIndex.Script
