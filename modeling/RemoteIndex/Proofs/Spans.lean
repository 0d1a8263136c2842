import RemoteIndex.Proofs.Directives
import RemoteIndex.Proofs.Outline

/-!
# Spans in a text

The span of a specifier marks the literal that the specifier was taken from, quotes and all: a
literal of the script, or one in a directive comment. In bytes, it reaches from one character
boundary to a later one, and the literal is what stands between them.
-/

namespace RemoteIndex

open Position (origin offset? offset?_advanceBy advanceBy_append advanceBy_of_notMem)
open Text.Utf8 (encode encode_ofList encode_append length_encode)

/-- A literal with its quotes. -/
def quoted (quote : Char) (text : String) : List Char := quote :: (text.toList ++ [quote])

theorem ofList_quoted (quote : Char) (text : String) :
    String.ofList (quoted quote text) =
      String.singleton quote ++ text ++ String.singleton quote := by
  apply String.toList_injective
  simp [quoted]

/-- The site's span marks a literal with the site's text. -/
def Site.Stands (site : Site) (text : List Char) : Prop :=
  ∃ quote, (quote = '"' ∨ quote = '\'') ∧ site.span.Marks text (quoted quote site.text)

namespace Script

/-! ## Literals -/

/-- What is left without quotes stood between two that are equal. -/
theorem exists_quote_of_unquote? {literal : List Char} {text : String}
    (h : unquote? (String.ofList literal) = some text) :
    ∃ quote, (quote = '"' ∨ quote = '\'') ∧ literal = quoted quote text := by
  rw [unquote?, String.toList_ofList] at h
  cases literal with
  | nil => exact absurd h (by simp)
  | cons quote rest =>
    dsimp only at h
    split at h
    · next quotes =>
      obtain rfl := Option.some.inj h
      obtain ⟨before, rfl⟩ := List.getLast?_eq_some_iff.mp quotes.2
      exact ⟨quote, quotes.1, by simp [quoted]⟩
    · exact absurd h (by simp)

theorem Tree.stands_of_literalSite? {tree n : Tree} {script : String} {form : Form} {site : Site}
    (fits : tree.Fits script) (member : n ∈ tree.nodes)
    (h : n.literalSite? (encode script) form = some site) : site.Stands script.toList := by
  obtain ⟨-, -, span, -, literal, text, unquoted⟩ := of_literalSite? h
  obtain ⟨part, marks, cut⟩ := fits.exists_text? member
  obtain rfl := Option.some.inj (cut.symm.trans text)
  obtain ⟨quote, isQuote, rfl⟩ := exists_quote_of_unquote? unquoted
  exact ⟨quote, isQuote, span ▸ marks.span⟩

/-! ## Directives -/

theorem Directive.Opening.exists_written (opening : Directive.Opening) :
    ∃ rest, opening.written = '/' :: '/' :: rest := by
  cases opening with
  | reference => exact ⟨_, rfl⟩
  | typesHint => exact ⟨_, rfl⟩

/-- The site of a directive in a comment of one line is where the comment's text has come to its
value. -/
theorem Directive.span_siteAt {opening : Directive.Opening} {v : Directive.Value}
    (inLine : '\n' ∉ opening.written ++ v.written) (p : Position) :
    (Directive.siteAt opening v p).span =
      ⟨p.advanceBy opening.written, p.advanceBy (opening.written ++ v.written)⟩ := by
  have first : '\n' ∉ opening.written := fun member => inLine (List.mem_append_left _ member)
  rw [advanceBy_of_notMem first, advanceBy_of_notMem inLine, Position.along, Position.along,
    Text.Utf8.width_append, ← Nat.add_assoc]
  rfl

/-- What a directive is read from, in the script that its comment stands in. -/
theorem Tree.exists_of_directive?_of_fits {tree n : Tree} {script : String} {site : Site}
    (fits : tree.Fits script) (member : n ∈ tree.nodes)
    (h : n.directive? (encode script) = some site) :
    ∃ (opening : Directive.Opening) (v : Directive.Value) (rest : List Char),
      n.Marks script.toList (opening.written ++ v.written ++ rest) ∧
      '\n' ∉ opening.written ++ v.written ∧ v.text ≠ [] ∧
      site = Directive.siteAt opening v n.span.start := by
  obtain ⟨kind, comment, text, given⟩ := exists_of_directive? h
  obtain ⟨part, marks, cut⟩ := fits.exists_text? member
  obtain rfl := Option.some.inj (cut.symm.trans text)
  obtain ⟨opening, v, ⟨rest, whole⟩, nonempty, rfl⟩ := directiveSite?_eq_some.mp given
  rw [String.toList_ofList] at whole
  obtain ⟨behind, slashes⟩ := opening.exists_written
  have line : '\n' ∉ behind ++ v.written ++ rest := by
    refine fits.inLine n member kind _ ?_
    rwa [← whole, slashes] at marks
  refine ⟨opening, v, rest, whole ▸ marks, ?_, nonempty, rfl⟩
  rw [List.mem_append, not_or] at line
  simpa [slashes] using line.1

theorem Tree.stands_of_directive? {tree n : Tree} {script : String} {site : Site}
    (fits : tree.Fits script) (member : n ∈ tree.nodes)
    (h : n.directive? (encode script) = some site) :
    site.text ≠ "" ∧ site.Stands script.toList := by
  obtain ⟨opening, v, rest, marks, line, nonempty, rfl⟩ :=
    exists_of_directive?_of_fits fits member h
  obtain ⟨before, after, whole, start, -⟩ := marks.span
  refine ⟨?_, v.quote, v.isQuote, before ++ opening.written, rest ++ after, ?_, ?_, ?_⟩
  · intro empty
    exact nonempty (String.ofList_eq_empty_iff.mp empty)
  · simp [whole, quoted, Directive.siteAt, Directive.Value.written]
  · rw [Directive.span_siteAt line, start, ← advanceBy_append]
  · rw [Directive.span_siteAt line, start]
    simp [advanceBy_append, quoted, Directive.siteAt, Directive.Value.written]

/-! ## Specifiers -/

/-- Every site of a tree stands in the script, and none is empty. -/
theorem Tree.Fits.stands {tree : Tree} {script : String} {site : Site} (fits : tree.Fits script)
    (member : site ∈ tree.sites (encode script)) :
    site.text ≠ "" ∧ site.Stands script.toList := by
  rcases mem_sites.mp member with statement | directive
  · obtain ⟨n, node, form, l, literal, given⟩ := mem_statementSites.mp statement
    have node' := mem_nodes_trans node (mem_nodes_of_mem_literals literal)
    exact ⟨(of_literalSite? given).2.2.2.1, stands_of_literalSite? fits node' given⟩
  · obtain ⟨n, node, given⟩ := mem_directiveSites.mp directive
    exact stands_of_directive? fits node given

end Script

/-- A span that marks a stretch of a text marks it in bytes as well. -/
theorem Span.Marks.bytes {span : Span} {text part : List Char} (h : span.Marks text part) :
    ∃ a b, offset? (encode (String.ofList text)) span.start = some a ∧
      offset? (encode (String.ofList text)) span.stop = some b ∧
      b = a + (encode (String.ofList part)).length ∧ b ≤ (encode (String.ofList text)).length ∧
      (⟨a⟩ : String.Pos.Raw).IsValid (String.ofList text) ∧
      (⟨b⟩ : String.Pos.Raw).IsValid (String.ofList text) ∧
      ((encode (String.ofList text)).drop a).take (b - a) = encode (String.ofList part) := by
  obtain ⟨before, after, rfl, start, stop⟩ := h
  refine ⟨(encode (String.ofList before)).length, (encode (String.ofList (before ++ part))).length,
    ?_, ?_, ?_, ?_, ?_, ?_, ?_⟩
  · rw [start, List.append_assoc]
    exact offset?_advanceBy before (part ++ after)
  · rw [stop]
    exact offset?_advanceBy (before ++ part) after
  · rw [String.ofList_append, encode_append, List.length_append]
  · simp only [String.ofList_append, encode_append, List.length_append]
    exact Nat.le_add_right _ _
  · refine String.Pos.Raw.isValid_iff_exists_append.mpr
      ⟨String.ofList before, String.ofList (part ++ after), ?_, ?_⟩
    · rw [← String.ofList_append, List.append_assoc]
    · rw [length_encode]
      rfl
  · refine String.Pos.Raw.isValid_iff_exists_append.mpr
      ⟨String.ofList (before ++ part), String.ofList after, ?_, ?_⟩
    · rw [← String.ofList_append]
    · rw [length_encode]
      rfl
  · simp [String.ofList_append, encode_append]

/-- In the bytes of the script, the site's span reaches from one character boundary to a later one,
and what stands between the two is the site's text in quotes. -/
def Site.IsCutFrom (site : Site) (script : String) : Prop :=
  ∃ quote a b, (quote = '"' ∨ quote = '\'') ∧
    offset? (encode script) site.span.start = some a ∧
    offset? (encode script) site.span.stop = some b ∧
    a < b ∧ b ≤ (encode script).length ∧
    (⟨a⟩ : String.Pos.Raw).IsValid script ∧ (⟨b⟩ : String.Pos.Raw).IsValid script ∧
    ((encode script).drop a).take (b - a) =
      encode (String.singleton quote ++ site.text ++ String.singleton quote)

theorem Site.Stands.isCutFrom {site : Site} {script : String} (h : site.Stands script.toList) :
    site.IsCutFrom script := by
  obtain ⟨quote, isQuote, marks⟩ := h
  obtain ⟨a, b, start, stop, length, inside, first, last, cut⟩ := marks.bytes
  rw [String.ofList_toList] at start stop inside first last cut
  have written : 0 < (encode (String.ofList (quoted quote site.text))).length := by
    rw [encode_ofList, quoted, List.flatMap_cons, List.length_append, String.length_utf8EncodeChar]
    exact Nat.add_pos_left quote.utf8Size_pos _
  rw [ofList_quoted] at cut
  exact ⟨quote, a, b, isQuote, start, stop, by omega, inside, first, last, cut⟩

namespace Script

/-- Whatever tree the parser makes of a script, if only it fits the script: every specifier has a
text, and its span cuts the text in its quotes out of the script. -/
theorem isCutFrom_of_mem_specifiers {parse : String → Option Tree} {script : String} {tree : Tree}
    (parsed : parse script = some tree) (fits : tree.Fits script) :
    ∃ specifiers, extract parse script = .ok specifiers ∧
      ∀ raw ∈ specifiers, raw.site.text ≠ "" ∧ raw.site.IsCutFrom script := by
  refine ⟨(tree.sites (encode script)).map .classify, extract_of_parse parsed, ?_⟩
  intro raw member
  obtain ⟨site, found, rfl⟩ := List.mem_map.mp member
  rw [RawSpecifier.site_classify]
  exact (fits.stands found).imp_right Site.Stands.isCutFrom

/-- A literal that goes on behind a line end, with a byte order mark and wide characters before it
and line ends among these that begin no line, and a directive behind it. -/
def continuedScript : String := "\ufeff/*é\r\u2028*/ import 'a\\\nb'; // @deno-types=\"é\""

theorem isCutFrom_continuedScript :
    extract outline? continuedScript =
      .ok [.internal ⟨"a\\\nb", ⟨⟨0, 21⟩, ⟨1, 2⟩⟩, .importFrom⟩,
        .internal ⟨"é", ⟨⟨1, 19⟩, ⟨1, 23⟩⟩, .typesHint⟩] ∧
    (⟨"a\\\nb", ⟨⟨0, 21⟩, ⟨1, 2⟩⟩, .importFrom⟩ : Site).IsCutFrom continuedScript ∧
    (⟨"é", ⟨⟨1, 19⟩, ⟨1, 23⟩⟩, .typesHint⟩ : Site).IsCutFrom continuedScript := by
  have parsed : outline? continuedScript = some (outline continuedScript) := rfl
  have sites : (outline continuedScript).sites (encode continuedScript) =
      [⟨"a\\\nb", ⟨⟨0, 21⟩, ⟨1, 2⟩⟩, .importFrom⟩] ++
        [⟨"é", ⟨⟨1, 19⟩, ⟨1, 23⟩⟩, .typesHint⟩] :=
    Tree.sites_eq_of_pairwise (by decide +kernel) (by decide +kernel) (by decide +kernel)
  have found := extract_of_parse parsed
  rw [sites] at found
  obtain ⟨specifiers, same, cut⟩ :=
    isCutFrom_of_mem_specifiers parsed (fits_outline continuedScript)
  obtain rfl := Except.ok.inj (same.symm.trans found)
  have first := (cut _ List.mem_cons_self).2
  have second := (cut _ (List.mem_cons_of_mem _ List.mem_cons_self)).2
  rw [RawSpecifier.site_classify] at first second
  exact ⟨found.trans (by decide +kernel), first, second⟩

end Script

end RemoteIndex
