import Mathlib.Data.List.Forall2
import RemoteIndex.Proofs.Fragments
import RemoteIndex.Proofs.Outline
import RemoteIndex.Proofs.Spans

/-!
# Texts that are no code

The inside of a comment and the text of a template (`Enclosure`) can be replaced by another text that
stays inside, takes up as many bytes and has its line terminators at the same places. A parser that
does not look at such texts (`IsBlind`) makes the same tree of the script, pieces of texts apart. So
the specifiers keep their places and forms, and all but those in whose literal a comment stands keep
their texts. Of the outline, `outline_eq_of_lexes` says where it does not look.
-/

namespace RemoteIndex.Script

open Position (origin advanceBy_append isPrefix_of_le)
open Text.Utf8 (encode width width_append width_eq_zero)

/-! ## Layout -/

/-- The characters that a line ends with. -/
def isTerminator (c : Char) : Bool :=
  c = '\n' || c = '\r' || c.toNat = 0x2028 || c.toNat = 0x2029

/-- The line terminators of a text, with their offsets from where it begins. -/
def terminators (offset : Nat) : List Char → List (Nat × Char)
  | [] => []
  | c :: cs =>
    if isTerminator c then (offset, c) :: terminators (offset + c.utf8Size) cs
    else terminators (offset + c.utf8Size) cs

/-- The texts take up as many bytes, and their line terminators stand at the same offsets. -/
def SameLayout (cs ds : List Char) : Prop :=
  width cs = width ds ∧ terminators 0 cs = terminators 0 ds

instance (cs ds : List Char) : Decidable (SameLayout cs ds) := inferInstanceAs (Decidable (_ ∧ _))

/-! ## Enclosures -/

/-- What a text that is no code may be the inside of. -/
inductive Enclosure where
  | blockComment
  | lineComment
  /-- The text of a template, up to the end or the next substitution. -/
  | template
deriving DecidableEq, Repr

namespace Enclosure

/-- In the tree of the three texts in a row, the second is the inside: of a comment, between its
slashes and stars or behind its slashes; of a template, between two neighbours of the nodes under it
that are no pieces of its text. -/
def Encloses (tree : Tree) (p c s : List Char) : Enclosure → Prop
  | .blockComment => ∃ n ∈ tree.nodes, n.kind = .comment ∧
      ∃ before after, p = before ++ ['/', '*'] ∧ s = ['*', '/'] ++ after ∧
        n.first = width before ∧ n.last = width (p ++ c ++ ['*', '/'])
  | .lineComment => ∃ n ∈ tree.nodes, n.kind = .comment ∧
      ∃ before, p = before ++ ['/', '/'] ∧ n.first = width before ∧ n.last = width (p ++ c)
  | .template => ∃ n ∈ tree.nodes, n.kind = .other "template_string" ∧
      (∃ m ∈ n.children, m.isFragment = false ∧ m.last = width p) ∧
      (∃ m ∈ n.children, m.isFragment = false ∧ m.first = width (p ++ c)) ∧
      ∀ m ∈ n.children, m.isFragment = true ∨ m.last ≤ width p ∨ width (p ++ c) ≤ m.first

/-- The text stays inside. -/
def Admits : Enclosure → List Char → Prop
  | .blockComment, cs => ¬['*', '/'] <:+: cs ∧ '\x00' ∉ cs
  | .lineComment, cs => ∀ c ∈ cs, endsLine c = false
  | .template, cs => '\x60' ∉ cs ∧ '\\' ∉ cs ∧ ¬['$', '\x7b'] <:+: cs ∧ '\x00' ∉ cs

/-- The text is no directive, where it is that of a line comment. -/
def Silent : Enclosure → List Char → Prop
  | .lineComment, cs => Directive.find? ('/' :: '/' :: cs) = none
  | _, _ => True

instance : (k : Enclosure) → (cs : List Char) → Decidable (k.Admits cs)
  | .blockComment, cs => inferInstanceAs (Decidable (¬['*', '/'] <:+: cs ∧ '\x00' ∉ cs))
  | .lineComment, cs => List.decidableBAll (endsLine · = false) cs
  | .template, cs => inferInstanceAs
      (Decidable ('\x60' ∉ cs ∧ '\\' ∉ cs ∧ ¬['$', '\x7b'] <:+: cs ∧ '\x00' ∉ cs))

instance : (k : Enclosure) → (cs : List Char) → Decidable (k.Silent cs)
  | .lineComment, cs => inferInstanceAs (Decidable (Directive.find? ('/' :: '/' :: cs) = none))
  | .blockComment, _ => inferInstanceAs (Decidable True)
  | .template, _ => inferInstanceAs (Decidable True)

end Enclosure

/-- The parser does not look at texts that are no code: whatever stands there, if only it stays
inside and does not move what is behind, the tree is the same but for the pieces of texts. -/
def IsBlind (parse : String → Option Tree) : Prop :=
  ∀ (k : Enclosure) (p c d s : List Char) (tree : Tree),
    parse (String.ofList (p ++ c ++ s)) = some tree → k.Encloses tree p c s → k.Admits d →
      SameLayout c d →
        (parse (String.ofList (p ++ d ++ s))).map Tree.bare = some tree.bare

/-! ## Nodes beside and around a text -/

section

variable {p c d s part : List Char} {tree n l : Tree} {k : Enclosure}

/-- The node does not reach into the second of the three texts. -/
def Tree.IsBeside (p c : List Char) (n : Tree) : Prop := n.last ≤ width p ∨ width (p ++ c) ≤ n.first

/-- The node begins before the second text and ends behind it. -/
def Tree.IsAround (p c : List Char) (n : Tree) : Prop := n.first < width p ∧ width (p ++ c) < n.last

/-- The text of a node is the same whatever stands beside it. -/
theorem Tree.IsBeside.text?_eq (h : n.IsBeside p c) (same : width c = width d) :
    n.text? (encode (String.ofList (p ++ d ++ s))) =
      n.text? (encode (String.ofList (p ++ c ++ s))) := by
  have bytes (cs : List Char) : encode (String.ofList (p ++ cs ++ s)) =
      encode (String.ofList p) ++ encode (String.ofList cs) ++ encode (String.ofList s) := by
    simp only [String.ofList_append, Text.Utf8.encode_append]
  rw [Tree.text?, Tree.text?, bytes, bytes]
  congr 1
  rcases h with before | behind
  · rw [← List.drop_take, ← List.drop_take, List.append_assoc, List.append_assoc,
      List.take_append_of_le_length before, List.take_append_of_le_length before]
  · have passed (cs : List Char) (reach : width (p ++ cs) ≤ n.first) :
        (encode (String.ofList p) ++ encode (String.ofList cs) ++ encode (String.ofList s)).drop
          n.first = (encode (String.ofList s)).drop (n.first - width (p ++ cs)) := by
      have length : (encode (String.ofList p) ++ encode (String.ofList cs)).length =
          width (p ++ cs) := by
        rw [width_append, List.length_append, width, width]
      rw [List.drop_append, length, List.drop_of_length_le (length ▸ reach), List.nil_append]
    have reach : width (p ++ d) ≤ n.first := by
      rw [width_append] at behind ⊢
      omega
    rw [passed c behind, passed d reach, width_append, width_append, same]

/-- A node around a text has something before it and behind it, and these stay if the text is
replaced. -/
theorem Tree.IsAround.exists_text? (h : n.IsAround p c) (marks : n.Marks (p ++ c ++ s) part)
    (same : width c = width d) : ∃ x y, x ≠ [] ∧ y ≠ [] ∧ part = x ++ c ++ y ∧
      n.text? (encode (String.ofList (p ++ d ++ s))) = some (String.ofList (x ++ d ++ y)) ∧
      n.span.start ≤ origin.advanceBy p ∧ origin.advanceBy (p ++ c) ≤ n.span.stop := by
  obtain ⟨before, after, whole, first, last, span⟩ := marks
  have inside : before ++ part <+: p ++ c ++ s := whole ▸ List.prefix_append _ _
  have begins : before <+: p := by
    refine Tree.isPrefix_of_width_le ((List.prefix_append before part).trans inside)
      ((List.prefix_append p c).trans (List.prefix_append _ s)) ?_
    exact Nat.le_of_lt (first ▸ h.1)
  obtain ⟨x, rfl⟩ := begins
  obtain ⟨y, ends⟩ : before ++ x ++ c <+: before ++ part :=
    Tree.isPrefix_of_width_le (List.prefix_append _ s) inside (Nat.le_of_lt (last ▸ h.2))
  obtain rfl : x ++ c ++ y = part := by simpa using ends
  obtain rfl : s = y ++ after := by simpa using whole
  have last' : n.last = width (before ++ (x ++ d ++ y)) := by
    rw [last]
    simp only [width_append, same]
  refine ⟨x, y, ?_, ?_, rfl, ?_, ?_, ?_⟩
  · rintro rfl
    rw [Tree.IsAround, first, List.append_nil] at h
    exact Nat.lt_irrefl _ h.1
  · rintro rfl
    rw [Tree.IsAround, last, List.append_nil, List.append_assoc] at h
    exact Nat.lt_irrefl _ h.2
  · have text := Tree.text?_of_offsets first last' after
    simpa using text
  · rw [span]
    exact Position.le_of_isPrefix (List.prefix_append _ _) _
  · rw [span]
    exact Position.le_of_isPrefix ⟨y, by simp⟩ _

/-! ## Literals and comments by an enclosure -/

/-- The comment whose inside the second text is begins before it and does not end in it. -/
theorem Enclosure.Encloses.exists_comment (h : k.Encloses tree p c s) (noTemplate : k ≠ .template) :
    ∃ n ∈ tree.nodes, n.kind = .comment ∧ n.first < width p ∧ width (p ++ c) ≤ n.last := by
  have slash (cs : List Char) (cs' : List Char) (more : cs' ≠ []) :
      width cs < width (cs ++ cs') := by
    rw [width_append]
    exact Nat.lt_add_of_pos_right (Text.Utf8.width_pos more)
  cases k with
  | blockComment =>
    obtain ⟨n, member, kind, before, after, rfl, -, first, last⟩ := h
    refine ⟨n, member, kind, first ▸ slash _ _ (List.cons_ne_nil _ _), ?_⟩
    rw [last, width_append (before ++ ['/', '*'] ++ c)]
    exact Nat.le_add_right _ _
  | lineComment =>
    obtain ⟨n, member, kind, before, rfl, first, last⟩ := h
    exact ⟨n, member, kind, first ▸ slash _ _ (List.cons_ne_nil _ _), Nat.le_of_eq last.symm⟩
  | template => exact absurd rfl noTemplate

/-- What shares nothing with a node around the text is beside the text. -/
theorem isBeside_of_apart {m : Tree} (fits : tree.Fits (String.ofList (p ++ c ++ s)))
    (member : n ∈ tree.nodes) (member' : m ∈ tree.nodes) (first : m.first ≤ width p)
    (last : width (p ++ c) ≤ m.last) (apart : n.span.Apart m.span) : n.IsBeside p c := by
  rcases apart with before | behind
  · exact .inl (Nat.le_trans (fits.last_le_first member member' before) first)
  · exact .inr (Nat.le_trans last (fits.last_le_first member' member behind))

/-- What is under a template, but no piece of its text, is beside the text, and so is what shares
nothing with it. -/
theorem isBeside_of_template (fits : tree.Fits (String.ofList (p ++ c ++ s)))
    (encloses : Enclosure.template.Encloses tree p c s) (member : n ∈ tree.nodes)
    (kind : n.kind = .string ∨ n.kind = .comment)
    (leaves : ∀ c ∈ n.children, c.children = []) : n.IsBeside p c := by
  obtain ⟨t, member', template, ⟨m, child, -, before⟩, ⟨m', child', -, behind⟩, others⟩ := encloses
  have inside {m : Tree} (child : m ∈ t.children) :
      m ∈ tree.nodes ∧ t.first ≤ m.first ∧ m.last ≤ t.last := by
    have node := Tree.mem_nodes_trans member' (Tree.mem_nodes_of_mem_children child)
    exact ⟨node, fits.offsets_within member' node (fits.within t member' m child)⟩
  have other {name : String} (named : n.kind = .other name) : False := by
    rcases kind with kind | kind <;> exact absurd (kind.symm.trans named) (by simp)
  rcases fits.laminar member member' with above | below | apart
  · -- A template has nodes under it, and so it is not one of the leaves.
    rcases Tree.mem_nodes.mp above with rfl | ⟨leaf, under, above⟩
    · exact (other template).elim
    · rw [Tree.nodes_of_leaf (leaves leaf under), List.mem_singleton] at above
      subst above
      exact absurd child (by simp [leaves t under])
  · rcases Tree.mem_nodes.mp below with rfl | ⟨m, child, below⟩
    · exact (other template).elim
    rcases others m child with fragment | beside
    · obtain ⟨-, -, leaf⟩ := Tree.isFragment_iff.mp fragment
      obtain ⟨name, named⟩ := Tree.kind_of_isFragment fragment
      rw [Tree.nodes_of_leaf leaf, List.mem_singleton] at below
      exact (other (below ▸ named)).elim
    · obtain ⟨node, -⟩ := inside child
      have within := fits.offsets_within node member ((fits.toNests.of_mem node).span_within below)
      exact beside.imp (Nat.le_trans within.2) (Nat.le_trans · within.1)
  · have first := (inside child).2.1
    have last := (inside child').2.2
    have proper := fits.first_le_last (inside child).1
    have proper' := fits.first_le_last (inside child').1
    exact isBeside_of_apart fits member member' (by omega) (by omega) apart

/-- A literal is beside the text, or it is around a comment with the text. -/
theorem Enclosure.Encloses.literal (fits : tree.Fits (String.ofList (p ++ c ++ s)))
    (h : k.Encloses tree p c s) (member : l ∈ tree.nodes) (kind : l.kind = .string)
    (sound : l.hasError = false) : l.IsBeside p c ∨ k ≠ .template ∧ l.IsAround p c := by
  have pieces := fits.pieces l member kind sound
  by_cases template : k = .template
  · subst template
    exact .inl (isBeside_of_template fits h member (.inl kind) fun c child => (pieces c child).1)
  obtain ⟨n, member', comment, first, last⟩ := h.exists_comment template
  have others : n ≠ l := by
    rintro rfl
    exact absurd (kind.symm.trans comment) (by simp)
  rcases fits.laminar member member' with below | above | apart
  · obtain ⟨m, child, below⟩ := (Tree.mem_nodes.mp below).resolve_left others
    rw [Tree.nodes_of_leaf (pieces m child).1, List.mem_singleton] at below
    subst below
    have within := fits.offsets_within member member' (fits.within l member n child)
    have ends := fits.last_lt_last member' member ((pieces n child).2 comment)
    exact .inr ⟨template, by omega, by omega⟩
  · rw [Tree.nodes_of_leaf (fits.comments n member' comment), List.mem_singleton] at above
    exact absurd above.symm others
  · exact .inl (isBeside_of_apart fits member member' (Nat.le_of_lt first) last apart)

/-- A comment is the one whose inside the text is, or it is beside the text. -/
theorem eq_or_isBeside_of_comment {m : Tree} (fits : tree.Fits (String.ofList (p ++ c ++ s)))
    (member : n ∈ tree.nodes) (kind : n.kind = .comment) (member' : m ∈ tree.nodes)
    (kind' : m.kind = .comment) (first : m.first ≤ width p) (last : width (p ++ c) ≤ m.last) :
    n = m ∨ n.IsBeside p c := by
  rcases fits.laminar member member' with below | above | apart
  · rw [Tree.nodes_of_leaf (fits.comments n member kind), List.mem_singleton] at below
    exact .inl below.symm
  · rw [Tree.nodes_of_leaf (fits.comments m member' kind'), List.mem_singleton] at above
    exact .inl above
  · exact .inr (isBeside_of_apart fits member member' first last apart)

theorem directive?_of_isBeside (h : n.IsBeside p c) (same : width c = width d) :
    n.directive? (encode (String.ofList (p ++ d ++ s))) =
      n.directive? (encode (String.ofList (p ++ c ++ s))) := by
  rw [Tree.directive?, Tree.directive?, h.text?_eq same]

theorem directive?_of_find? {source : List UInt8} {text : List Char} (kind : n.kind = .comment)
    (read : n.text? source = some (String.ofList text)) (silent : Directive.find? text = none) :
    n.directive? source = none := by
  rw [Tree.directive?_of_text kind read, directiveSite?, String.toList_ofList, silent]
  rfl

/-- No block comment is a directive. -/
theorem find?_blockComment (cs : List Char) : Directive.find? ('/' :: '*' :: cs) = none := by
  cases found : Directive.find? ('/' :: '*' :: cs) with
  | none => rfl
  | some directive =>
    obtain ⟨opening, v, ⟨rest, whole⟩, -⟩ := Directive.find?_eq_some.mp found
    obtain ⟨behind, written⟩ := opening.exists_written
    exact absurd whole (by simp [written])

/-- A comment is the same directive as before, or none. -/
theorem Enclosure.Encloses.directive? (fits : tree.Fits (String.ofList (p ++ c ++ s)))
    (h : k.Encloses tree p c s) (member : n ∈ tree.nodes) (kind : n.kind = .comment)
    (same : width c = width d) (silent : k.Silent c) (silent' : k.Silent d) :
    n.directive? (encode (String.ofList (p ++ d ++ s))) =
      n.directive? (encode (String.ofList (p ++ c ++ s))) := by
  cases k with
  | template =>
    have leaf := fits.comments n member kind
    exact directive?_of_isBeside
      (isBeside_of_template fits h member (.inr kind) (by simp [leaf])) same
  | lineComment =>
    obtain ⟨m, member', kind', before, rfl, first, last⟩ := h
    have known := eq_or_isBeside_of_comment fits member kind member' kind'
      (by rw [first, width_append]; exact Nat.le_add_right _ _) (Nat.le_of_eq last.symm)
    rcases known with rfl | beside
    · have text (cs : List Char) (wide : width c = width cs) :
          n.text? (encode (String.ofList (before ++ ['/', '/'] ++ cs ++ s))) =
            some (String.ofList ('/' :: '/' :: cs)) := by
        rw [List.append_assoc before]
        refine Tree.text?_of_offsets first ?_ s
        simp only [last, width_append, wide, Nat.add_assoc]
      rw [directive?_of_find? kind (text c rfl) silent,
        directive?_of_find? kind (text d same) silent']
    · exact directive?_of_isBeside beside same
  | blockComment =>
    obtain ⟨m, member', kind', before, after, rfl, rfl, first, last⟩ := h
    have known := eq_or_isBeside_of_comment fits member kind member' kind'
      (by rw [first, width_append]; exact Nat.le_add_right _ _)
      (by rw [last, width_append _ ['*', '/']]; exact Nat.le_add_right _ _)
    rcases known with rfl | beside
    · have text (cs : List Char) (wide : width c = width cs) :
          n.text? (encode (String.ofList (before ++ ['/', '*'] ++ cs ++ (['*', '/'] ++ after)))) =
            some (String.ofList ('/' :: '*' :: (cs ++ ['*', '/']))) := by
        have whole : before ++ ['/', '*'] ++ cs ++ (['*', '/'] ++ after) =
            before ++ ('/' :: '*' :: (cs ++ ['*', '/'])) ++ after := by simp
        rw [whole]
        refine Tree.text?_of_offsets first ?_ after
        have upTo : before ++ ('/' :: '*' :: (cs ++ ['*', '/'])) =
            before ++ ['/', '*'] ++ cs ++ ['*', '/'] := by simp
        rw [upTo, last]
        simp only [width_append, wide]
      rw [directive?_of_find? kind (text c rfl) (find?_blockComment _),
        directive?_of_find? kind (text d same) (find?_blockComment _)]
    · exact directive?_of_isBeside beside same

/-! ## Sites -/

/-- The site `b` is `a` with the second text in it replaced. -/
def Recasts (c d : List Char) (a b : Site) : Prop :=
  b.span = a.span ∧ b.form = a.form ∧
    ∃ x y, a.text.toList = x ++ c ++ y ∧ b.text.toList = x ++ d ++ y

/-- The site `b` is `a`, or the text behind `p` stands in a comment in the literal of `a` and it is
replaced there. -/
def Enclosure.Alters (k : Enclosure) (p c d : List Char) (a b : Site) : Prop :=
  b = a ∨ k ≠ .template ∧ a.span.start ≤ origin.advanceBy p ∧
    origin.advanceBy (p ++ c) ≤ a.span.stop ∧ Recasts c d a b

variable {a b : Site} {form : Form}

theorem Enclosure.Alters.span_eq (h : k.Alters p c d a b) : b.span = a.span := by
  rcases h with rfl | ⟨-, -, -, span, -⟩
  · rfl
  · exact span

/-- Between the quotes a text is replaced as it is with them. -/
theorem unquote?_replace {x y : List Char} (first : x ≠ []) (last : y ≠ []) :
    (unquote? (String.ofList (x ++ c ++ y)) = none ∧
      unquote? (String.ofList (x ++ d ++ y)) = none) ∨
    ∃ x' y', unquote? (String.ofList (x ++ c ++ y)) = some (String.ofList (x' ++ c ++ y')) ∧
      unquote? (String.ofList (x ++ d ++ y)) = some (String.ofList (x' ++ d ++ y')) := by
  obtain ⟨quote, x, rfl⟩ := List.exists_cons_of_ne_nil first
  obtain ⟨y, close, rfl⟩ : ∃ y' close, y = y' ++ [close] :=
    ⟨y.dropLast, y.getLast last, (List.dropLast_append_getLast last).symm⟩
  have read (cs : List Char) : unquote? (String.ofList (quote :: x ++ cs ++ (y ++ [close]))) =
      if (quote = '"' ∨ quote = '\'') ∧ close = quote then some (String.ofList (x ++ cs ++ y))
      else none := by
    rw [← Tree.unquote?_enclosed]
    simp
  rw [read c, read d]
  by_cases quotes : (quote = '"' ∨ quote = '\'') ∧ close = quote
  · exact .inr ⟨x, y, if_pos quotes, if_pos quotes⟩
  · exact .inl ⟨if_neg quotes, if_neg quotes⟩

/-- The site of a literal is as before, or the text is replaced in it. -/
theorem literalSite?_alters (fits : tree.Fits (String.ofList (p ++ c ++ s)))
    (h : k.Encloses tree p c s) (member : l ∈ tree.nodes) (kind : l.kind = .string)
    (same : width c = width d) (form : Form) :
    Option.Rel (k.Alters p c d)
      (l.literalSite? (encode (String.ofList (p ++ c ++ s))) form)
      (l.literalSite? (encode (String.ofList (p ++ d ++ s))) form) := by
  have refl (site : Option Site) : Option.Rel (k.Alters p c d) site site := by
    cases site with
    | none => exact .none
    | some site => exact .some (.inl rfl)
  cases sound : l.hasError with
  | true =>
    have none (source : List UInt8) : l.literalSite? source form = none := by
      rw [Tree.literalSite?, sound]
      rfl
    rw [none, none]
    exact .none
  | false =>
    rcases h.literal fits member kind sound with beside | ⟨template, around⟩
    · rw [Tree.literalSite?, Tree.literalSite?, beside.text?_eq same]
      exact refl _
    · obtain ⟨part, marks, text⟩ := fits.exists_text? member
      rw [String.toList_ofList] at marks
      obtain ⟨x, y, first, last, rfl, text', start, stop⟩ := around.exists_text? marks same
      rw [Tree.literalSite?_of_text sound text, Tree.literalSite?_of_text sound text']
      rcases unquote?_replace first last with ⟨none, none'⟩ | ⟨x, y, some, some'⟩
      · rw [none, none']
        exact .none
      · rw [some, some', Option.bind_some, Option.bind_some]
        have empty : c = [] ↔ d = [] := by
          rw [← width_eq_zero, same, width_eq_zero]
        by_cases nothing : (x = [] ∧ c = []) ∧ y = []
        · obtain ⟨⟨rfl, rfl⟩, rfl⟩ := nothing
          obtain rfl := empty.mp rfl
          exact refl _
        · have nothing' : ¬((x = [] ∧ d = []) ∧ y = []) := by rwa [← empty]
          have nonempty {cs : List Char} (h : ¬((x = [] ∧ cs = []) ∧ y = [])) :
              (String.ofList (x ++ cs ++ y)).isEmpty = false := by
            simpa using h
          rw [nonempty nothing, nonempty nothing']
          exact .some (.inr ⟨template, start, stop, rfl, rfl, x, y, by simp, by simp⟩)

theorem statementSites_alters (fits : tree.Fits (String.ofList (p ++ c ++ s)))
    (h : k.Encloses tree p c s) (same : width c = width d) :
    List.Forall₂ (k.Alters p c d)
      (tree.statementSites (encode (String.ofList (p ++ c ++ s))))
      (tree.statementSites (encode (String.ofList (p ++ d ++ s)))) := by
  have nodes : List.Forall₂ (fun n n' => n = n' ∧ n ∈ tree.nodes) tree.nodes tree.nodes :=
    List.forall₂_same.mpr fun n member => ⟨rfl, member⟩
  refine List.rel_flatMap nodes ?_
  rintro n _ ⟨rfl, member⟩
  have literals : List.Forall₂ (fun l l' => l = l' ∧ l ∈ n.literals) n.literals n.literals :=
    List.forall₂_same.mpr fun l literal => ⟨rfl, literal⟩
  refine List.rel_filterMap ?_ literals
  rintro ⟨form, l⟩ _ ⟨rfl, literal⟩
  have member' := Tree.mem_nodes_trans member (Tree.mem_nodes_of_mem_literals literal)
  exact literalSite?_alters fits h member' (Tree.of_mem_literals literal).1 same form

theorem directiveSites_eq_of_encloses (fits : tree.Fits (String.ofList (p ++ c ++ s)))
    (h : k.Encloses tree p c s) (same : width c = width d) (silent : k.Silent c)
    (silent' : k.Silent d) :
    tree.directiveSites (encode (String.ofList (p ++ d ++ s))) =
      tree.directiveSites (encode (String.ofList (p ++ c ++ s))) := by
  refine List.filterMap_congr fun n member => ?_
  by_cases kind : n.kind = .comment
  · exact h.directive? fits member kind same silent silent'
  · rw [Tree.directive?, Tree.directive?, if_neg kind, if_neg kind]

/-- Sites that are altered keep their spans, and so their order. -/
theorem alters_mergeSort {sites sites' : List Site}
    (h : List.Forall₂ (k.Alters p c d) sites sites') :
    List.Forall₂ (k.Alters p c d)
      (sites.mergeSort fun a b => a.span.start.atMost b.span.start)
      (sites'.mergeSort fun a b => a.span.start.atMost b.span.start) := by
  have pairs : ∀ z ∈ sites.zip sites', k.Alters p c d z.1 z.2 := fun z => List.forall₂_zip h
  have first : (sites.zip sites').map Prod.fst = sites := List.map_fst_zip (Nat.le_of_eq h.length_eq)
  have second : (sites.zip sites').map Prod.snd = sites' :=
    List.map_snd_zip (Nat.le_of_eq h.length_eq.symm)
  have sorted : ((sites.zip sites').mergeSort fun z z' => z.1.span.start.atMost z'.1.span.start).map
      Prod.fst = sites.mergeSort fun a b => a.span.start.atMost b.span.start := by
    conv_rhs => rw [← first]
    exact List.map_mergeSort fun _ _ _ _ => rfl
  have sorted' :
      ((sites.zip sites').mergeSort fun z z' => z.1.span.start.atMost z'.1.span.start).map
        Prod.snd = sites'.mergeSort fun a b => a.span.start.atMost b.span.start := by
    conv_rhs => rw [← second]
    refine List.map_mergeSort fun z member z' member' => ?_
    rw [(pairs z member).span_eq, (pairs z' member').span_eq]
  rw [← sorted, ← sorted', List.forall₂_map_left_iff, List.forall₂_map_right_iff,
    List.forall₂_same]
  exact fun z member => pairs z (List.mem_mergeSort.mp member)

end

/-! ## A comment in a literal -/

/-- A literal with a comment in it, whose text is given, and a statement behind it. -/
def remarkScript (remark : String) : String :=
  String.ofList ("import \"a\n//".toList ++ remark.toList ++ "\n\"; export * from 'c';".toList)

theorem sites_remarkScript :
    (outline (remarkScript "AAAA")).sites (encode (remarkScript "AAAA")) =
      [⟨"a\n//AAAA\n", ⟨⟨0, 7⟩, ⟨2, 1⟩⟩, .importFrom⟩,
        ⟨"c", ⟨⟨2, 17⟩, ⟨2, 20⟩⟩, .exportFrom⟩] ++ [] ∧
    (outline (remarkScript "BBBB")).sites (encode (remarkScript "BBBB")) =
      [⟨"a\n//BBBB\n", ⟨⟨0, 7⟩, ⟨2, 1⟩⟩, .importFrom⟩,
        ⟨"c", ⟨⟨2, 17⟩, ⟨2, 20⟩⟩, .exportFrom⟩] ++ [] := by
  constructor
  · exact Tree.sites_eq_of_pairwise (by decide +kernel) (by decide +kernel) (by decide +kernel)
  · exact Tree.sites_eq_of_pairwise (by decide +kernel) (by decide +kernel) (by decide +kernel)

theorem encloses_remarkScript : Enclosure.lineComment.Encloses (outline (remarkScript "AAAA"))
    "import \"a\n//".toList "AAAA".toList "\n\"; export * from 'c';".toList :=
  ⟨commentNode (encode (remarkScript "AAAA")) ⟨1, 0⟩ "//AAAA".toList, by decide +kernel, rfl,
    "import \"a\n".toList, by decide +kernel, by decide +kernel, by decide +kernel⟩

end RemoteIndex.Script
