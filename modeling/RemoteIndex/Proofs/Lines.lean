import RemoteIndex.Proofs.Elsewhere
import RemoteIndex.Proofs.Trees

/-!
# Scripts further down

Line feeds before a script move all that is found in it further down and change nothing else, if
they do no more than that to the tree that the parser makes of it (`SkipsLineFeeds`). The search
itself nowhere asks in which line something stands, and sites further down are in the same order.

The parser of outlines is one that does no more to its trees.
-/

namespace RemoteIndex

/-- The specifier, so many lines further down. -/
def RawSpecifier.lower (n : Nat) : RawSpecifier → RawSpecifier
  | .remote site => .remote (site.lower n)
  | .internal site => .internal (site.lower n)

variable {n : Nat}

theorem RawSpecifier.classify_lower (site : Site) :
    classify (site.lower n) = (classify site).lower n := by
  rw [classify, classify, apply_ite (lower n)]
  rfl

theorem Position.atMost_lower (p q : Position) : (p.lower n).atMost (q.lower n) = p.atMost q := by
  rw [Bool.eq_iff_iff, atMost_iff, atMost_iff]
  dsimp only [lower]
  omega

namespace Script

/-! ## Trees -/

theorem directiveSite?_lower (p : Position) (comment : String) :
    directiveSite? (p.lower n) comment = (directiveSite? p comment).map (Site.lower n) := by
  rw [directiveSite?, directiveSite?]
  cases Directive.find? comment.toList with
  | none => rfl
  | some d =>
    simp only [Option.bind_eq_bind, Option.bind_some]
    split <;> rfl

namespace Tree

mutual

/-- The node with all nodes under it, so many lines further down, each of them a line feed. -/
def lower (n : Nat) : Tree → Tree
  | ⟨kind, field, missing, first, last, span, children⟩ =>
    ⟨kind, field, missing, first + n, last + n, span.lower n, lowerAll n children⟩

/-- The nodes, so many lines further down. -/
def lowerAll (n : Nat) : List Tree → List Tree
  | [] => []
  | t :: ts => t.lower n :: lowerAll n ts

end

variable {t : Tree} {source : List UInt8} {form : Form}

theorem lowerAll_eq (ts : List Tree) : lowerAll n ts = ts.map (lower n) := by
  induction ts with
  | nil => rfl
  | cons t ts ih => rw [lowerAll, ih, List.map_cons]

theorem lower_eq (t : Tree) :
    t.lower n = ⟨t.kind, t.field, t.missing, t.first + n, t.last + n, t.span.lower n,
      t.children.map (lower n)⟩ := by
  cases t with
  | mk kind field missing first last span children => rw [lower, lowerAll_eq]

@[simp]
theorem kind_lower : (t.lower n).kind = t.kind := by rw [lower_eq]

@[simp]
theorem field_lower : (t.lower n).field = t.field := by rw [lower_eq]

@[simp]
theorem missing_lower : (t.lower n).missing = t.missing := by rw [lower_eq]

@[simp]
theorem span_lower : (t.lower n).span = t.span.lower n := by rw [lower_eq]

@[simp]
theorem children_lower : (t.lower n).children = t.children.map (lower n) := by rw [lower_eq]

theorem nodes_lower (t : Tree) : (t.lower n).nodes = t.nodes.map (lower n) := by
  induction t using induct with
  | step t ih =>
    rw [nodes_eq, nodes_eq, children_lower, List.map_cons, List.map_flatMap, List.flatMap_map]
    congr 1
    exact List.flatMap_congr ih

theorem hasError_lower : (t.lower n).hasError = t.hasError := by
  simp only [hasError, nodes_lower, List.any_map, Function.comp_def, kind_lower, missing_lower]

theorem strings_lower : (t.lower n).strings = t.strings.map (lower n) := by
  simp only [strings, children_lower, List.filter_map, Function.comp_def, kind_lower]

theorem literals_lower :
    (t.lower n).literals = t.literals.map fun (form, l) => (form, l.lower n) := by
  simp only [literals, kind_lower, strings_lower, children_lower]
  split
  all_goals
    simp only [List.filter_map, List.map_map, List.any_map, List.flatMap_map, strings_lower,
      Function.comp_def, kind_lower, field_lower, List.map_nil]
  split
  · simp only [List.map_flatMap, List.map_map, Function.comp_def]
  · rfl

theorem text?_lower (t : Tree) (source : List UInt8) :
    (t.lower n).text? (List.replicate n Position.lineFeed ++ source) = t.text? source := by
  have skipped : (List.replicate n Position.lineFeed ++ source).drop (t.first + n) =
      source.drop t.first := by
    rw [Nat.add_comm, ← List.drop_drop, List.drop_left' List.length_replicate]
  rw [text?, text?, lower_eq]
  simp only [skipped, Nat.add_sub_add_right]

theorem literalSite?_lower :
    (t.lower n).literalSite? (List.replicate n Position.lineFeed ++ source) form =
      (t.literalSite? source form).map (Site.lower n) := by
  rw [literalSite?, literalSite?, hasError_lower, missing_lower, text?_lower, span_lower]
  split
  · rfl
  · cases t.text? source with
    | none => rfl
    | some literal =>
      simp only [Option.bind_eq_bind, Option.bind_some]
      cases unquote? literal with
      | none => rfl
      | some text =>
        simp only [Option.bind_some]
        split <;> rfl

theorem statementSites_lower :
    (t.lower n).statementSites (List.replicate n Position.lineFeed ++ source) =
      (t.statementSites source).map (Site.lower n) := by
  simp only [statementSites, nodes_lower, literals_lower, List.flatMap_map, List.filterMap_map,
    List.map_flatMap, List.map_filterMap, Function.comp_def, literalSite?_lower]

theorem directive?_lower :
    (t.lower n).directive? (List.replicate n Position.lineFeed ++ source) =
      (t.directive? source).map (Site.lower n) := by
  rw [directive?, directive?, kind_lower, text?_lower, span_lower]
  split
  · cases t.text? source with
    | none => rfl
    | some comment => exact directiveSite?_lower t.span.start comment
  · rfl

theorem directiveSites_lower :
    (t.lower n).directiveSites (List.replicate n Position.lineFeed ++ source) =
      (t.directiveSites source).map (Site.lower n) := by
  simp only [directiveSites, nodes_lower, List.filterMap_map, List.map_filterMap,
    Function.comp_def, directive?_lower]

theorem sites_lower :
    (t.lower n).sites (List.replicate n Position.lineFeed ++ source) =
      (t.sites source).map (Site.lower n) := by
  have sorted (sites : List Site) :
      (sites.mergeSort fun a b => a.span.start.atMost b.span.start).map (Site.lower n) =
        (sites.map (Site.lower n)).mergeSort fun a b => a.span.start.atMost b.span.start :=
    List.map_mergeSort fun a _ b _ => (Position.atMost_lower a.span.start b.span.start).symm
  rw [sites, sites, statementSites_lower, directiveSites_lower, ← List.map_append, sorted]

end Tree

/-! ## Parsers -/

/-- Line feeds before a script move the tree of it further down. A byte order mark and the line of an
interpreter are what they are at the very beginning only. -/
def SkipsLineFeeds (parse : String → Option Tree) : Prop :=
  ∀ n script, script.toList.head? ≠ some '\ufeff' → ¬"#!".toList <+: script.toList →
    parse (String.ofList (List.replicate n '\n' ++ script.toList)) =
      (parse script).map (Tree.lower n)

theorem encode_newlines (n : Nat) (script : String) :
    Text.Utf8.encode (String.ofList (List.replicate n '\n' ++ script.toList)) =
      List.replicate n Position.lineFeed ++ Text.Utf8.encode script := by
  have feeds : (List.replicate n '\n').flatMap String.utf8EncodeChar =
      List.replicate n Position.lineFeed := by
    induction n with
    | zero => rfl
    | succ n ih =>
      rw [List.replicate_succ, List.flatMap_cons, ih, Position.utf8EncodeChar_newline]
      rfl
  rw [Text.Utf8.encode_ofList, List.flatMap_append, feeds, ← Text.Utf8.encode_ofList,
    String.ofList_toList]

theorem comments_lower (t : Token) :
    (t.lower n).comments = t.comments.map fun (start, text) => (start.lower n, text) := by
  obtain ⟨kind, span⟩ := t
  cases kind with
  | string inside | fragment inside =>
    simp only [Token.comments, Token.lower, Span.lower, Position.advance_lower,
      Position.advanceBy_lower, List.map_map]
    rfl
  | _ => rfl

theorem lineStart_newlines (n : Nat) (bytes : List UInt8) (line : Nat) :
    Position.lineStart (List.replicate n Position.lineFeed ++ bytes) (line + n) =
      Position.lineStart bytes line + n := by
  induction n with
  | zero => rfl
  | succ n ih =>
    rw [List.replicate_succ, List.cons_append, ← Nat.add_assoc, Position.lineStart, if_pos rfl, ih,
      Nat.add_assoc]

section

variable {source : List UInt8}

theorem lower_nodeAt (kind : Tree.Kind) (field : Option Tree.Field) (span : Span)
    (children : List Tree) :
    (nodeAt source kind field span children).lower n =
      nodeAt (List.replicate n Position.lineFeed ++ source) kind field (span.lower n)
        (children.map (Tree.lower n)) := by
  have offset (p : Position) :
      (p.lower n).offset (List.replicate n Position.lineFeed ++ source) = p.offset source + n := by
    rw [Position.offset, Position.offset, Position.lower, lineStart_newlines, Nat.add_right_comm]
  rw [Tree.lower_eq, nodeAt, nodeAt, Span.lower, offset, offset]

theorem lower_commentNode (start : Position) (text : List Char) :
    (commentNode source start text).lower n =
      commentNode (List.replicate n Position.lineFeed ++ source) (start.lower n) text := by
  rw [commentNode, commentNode, Position.advanceBy_lower, lower_nodeAt]
  rfl

theorem lower_nodeAround (form : Form) (span : Span) (comments : List Tree) :
    (nodeAround source form span comments).lower n =
      nodeAround (List.replicate n Position.lineFeed ++ source) form (span.lower n)
        (comments.map (Tree.lower n)) := by
  cases form with
  | dynamicImport =>
    simp only [nodeAround, lower_nodeAt, List.map_cons, List.map_nil]
    rfl
  | _ => simp only [nodeAround, lower_nodeAt, List.map_cons, List.map_nil]

/-- The site of a literal is found by its span, and no other one has come to that. -/
theorem find?_lower (sites : List Site) (span : Span) :
    (sites.map (Site.lower n)).find? (·.span = span.lower n) =
      (sites.find? (·.span = span)).map (Site.lower n) := by
  have moved (a b : Position) : a.lower n = b.lower n ↔ a = b := by
    obtain ⟨line, column⟩ := a
    obtain ⟨line', column'⟩ := b
    simp [Position.lower]
  have same (site : Site) : (site.lower n).span = span.lower n ↔ site.span = span := by
    obtain ⟨text, ⟨start, stop⟩, form⟩ := site
    obtain ⟨start', stop'⟩ := span
    simp [Site.lower, Span.lower, moved]
  rw [List.find?_map]
  simp only [Function.comp_def, same]

theorem lower_nodeOf? (sites : List Site) (t : Token) :
    (nodeOf? source sites t).map (Tree.lower n) =
      nodeOf? (List.replicate n Position.lineFeed ++ source) (sites.map (Site.lower n))
        (t.lower n) := by
  have comments : (t.comments.map fun (start, text) => commentNode source start text).map
        (Tree.lower n) =
      (t.lower n).comments.map fun (start, text) =>
        commentNode (List.replicate n Position.lineFeed ++ source) start text := by
    simp only [comments_lower, List.map_map, Function.comp_def, lower_commentNode]
  rw [nodeOf?, nodeOf?, ← comments]
  obtain ⟨kind, span⟩ := t
  cases kind with
  | comment text => exact congrArg some (lower_commentNode span.start text.toList)
  | fragment text => exact congrArg some (lower_nodeAt .error none span _)
  | string text =>
    have found : (sites.map (Site.lower n)).find?
        (·.span = (Token.lower n ⟨.string text, span⟩).span) = _ := find?_lower sites span
    dsimp only
    rw [show (Token.lower n ⟨.string text, span⟩).kind = .string text from rfl, found]
    cases sites.find? (·.span = span) with
    | none => exact congrArg some (lower_nodeAt .string none span _)
    | some site => exact congrArg some (lower_nodeAround site.form span _)
  | _ => rfl

end

/-- Line feeds before a script move its outline. -/
theorem outline_newlines (n : Nat) (script : String) :
    outline (String.ofList (List.replicate n '\n' ++ script.toList)) = (outline script).lower n := by
  have stop : Position.origin.advanceBy (List.replicate n '\n' ++ script.toList) =
      (Position.origin.advanceBy script.toList).lower n := by
    have feeds : Position.origin.advanceBy (List.replicate n '\n') = Position.origin.lower n := by
      induction n with
      | zero => rfl
      | succ n ih =>
        rw [List.replicate_succ', Position.advanceBy_concat, ih]
        rfl
    rw [Position.advanceBy_append, feeds, Position.advanceBy_lower]
  rw [outline, outline, lower_nodeAt, encode_newlines, String.toList_ofList, tokensOf_newlines,
    statementSites_lower, stop, List.head?_map, List.map_filterMap, List.filterMap_map]
  simp only [Function.comp_def, lower_nodeOf?]
  congr 1
  cases (tokensOf script.toList).head? <;> rfl

theorem skipsLineFeeds_outline? : SkipsLineFeeds outline? :=
  fun n script _ _ => congrArg some (outline_newlines n script)

/-- A literal that goes on behind a line end, and a directive in the next line. -/
def brokenScript : String := "import 'a\\\nb';\n// @deno-types=\"http://[::1]/x\""

end Script

end RemoteIndex
