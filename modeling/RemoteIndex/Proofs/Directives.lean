import Mathlib.Data.List.TakeWhile
import RemoteIndex.Script.Extract

/-!
# How directives are written

A comment is a directive if it begins with one of two openings (`Directive.Opening`) and a value in
quotes behind it (`Directive.Value`). The recognisers find an opening and a value wherever there are
some, and there are never two ways to read them; so what a comment contributes can be told from how
it is written.
-/

namespace RemoteIndex.Script

/-- Blank characters, in any number. -/
@[ext]
structure Blanks where
  chars : List Char
  blank : ∀ c ∈ chars, Text.isBlank c = true

/-- No blanks. -/
def Blanks.none : Blanks := ⟨[], fun _ member => absurd member List.not_mem_nil⟩

/-- One blank. -/
def Blanks.one (c : Char) (blank : Text.isBlank c = true) : Blanks :=
  ⟨[c], fun _ member => List.mem_singleton.mp member ▸ blank⟩

theorem Blanks.one_ne_nil {c : Char} {blank : Text.isBlank c = true} :
    (one c blank).chars ≠ [] := List.cons_ne_nil c []

namespace Directive

/-- The attribute of a reference directive that names a module. -/
inductive Key where
  | path
  | types

/-- The name of the attribute. -/
def Key.name : Key → List Char
  | .path => "path".toList
  | .types => "types".toList

/-- What is written before the value of a directive. Blanks stand between its parts, and one of them
at least behind the name of a tag. -/
inductive Opening where
  /-- `/// <reference path =`, or the same with `types` -/
  | reference (beforeTag behindTag : Blanks) (parted : behindTag.chars ≠ []) (key : Key)
    (beforeSign behindSign : Blanks)
  /-- `// @deno-types =` -/
  | typesHint (beforeName beforeSign behindSign : Blanks)

namespace Opening

/-- The form of the directive. -/
def form : Opening → Form
  | .reference .. => .reference
  | .typesHint .. => .typesHint

/-- The text of the opening. -/
def written : Opening → List Char
  | .reference beforeTag behindTag _ key beforeSign behindSign =>
    "///".toList ++ (beforeTag.chars ++ ("<reference".toList ++ (behindTag.chars ++
      (key.name ++ (beforeSign.chars ++ ('=' :: behindSign.chars))))))
  | .typesHint beforeName beforeSign behindSign =>
    "//".toList ++ (beforeName.chars ++ ("@deno-types".toList ++ (beforeSign.chars ++
      ('=' :: behindSign.chars))))

end Opening

/-- What a directive gives as its value: a text between two equal quotes, the first of which it is
that end it. -/
@[ext]
structure Value where
  quote : Char
  text : List Char
  isQuote : quote = '"' ∨ quote = '\''
  free : quote ∉ text

/-- The value with its quotes. -/
def Value.written (v : Value) : List Char := v.quote :: (v.text ++ [v.quote])

end Directive

open Directive (Key Opening Value)
open Text.Utf8 (encode width)

variable {cs comment tail rest text : List Char} {quote : Char}

/-! ## Reading on behind what is expected -/

theorem dropExact?_eq_some {expected : List Char} :
    dropExact? expected cs = some rest ↔ cs = expected ++ rest := by
  induction expected generalizing cs with
  | nil => simp [dropExact?]
  | cons e expected ih =>
    cases cs with
    | nil => simp [dropExact?]
    | cons c cs =>
      rw [dropExact?]
      split
      · next same => simp [ih, same]
      · next other => simp [Ne.symm other]

/-- The first character, if there is one, is no blank. -/
def Unblanked (cs : List Char) : Prop := ∀ c ∈ cs.head?, Text.isBlank c = false

theorem unblanked_cons (c : Char) (visible : Text.isBlank c = false) : Unblanked (c :: rest) := by
  simpa [Unblanked] using visible

theorem unblanked_sign : Unblanked ('=' :: rest) := unblanked_cons '=' (by decide)

theorem dropBlank_append (blanks : Blanks) (ends : Unblanked rest) :
    Text.dropBlank (blanks.chars ++ rest) = rest := by
  rw [Text.dropBlank, List.dropWhile_append_of_pos blanks.blank]
  cases rest with
  | nil => rfl
  | cons c rest => exact List.dropWhile_cons_of_neg (by simp [ends c rfl])

theorem exists_blanks (cs : List Char) :
    ∃ blanks : Blanks, cs = blanks.chars ++ Text.dropBlank cs :=
  ⟨⟨cs.takeWhile Text.isBlank, fun _ member => List.mem_takeWhile_imp member⟩,
    List.takeWhile_append_dropWhile.symm⟩

theorem dropBlanks1?_append (blanks : Blanks) (parted : blanks.chars ≠ []) (ends : Unblanked rest) :
    dropBlanks1? (blanks.chars ++ rest) = some rest := by
  obtain ⟨_ | ⟨c, cs⟩, blank⟩ := blanks
  · exact absurd rfl parted
  · have others : ∀ d ∈ cs, Text.isBlank d = true :=
      fun d member => blank d (List.mem_cons_of_mem c member)
    have behind := dropBlank_append ⟨cs, others⟩ ends
    simp [dropBlanks1?, blank c List.mem_cons_self, behind]

theorem exists_of_dropBlanks1? (h : dropBlanks1? cs = some rest) :
    ∃ blanks : Blanks, blanks.chars ≠ [] ∧ cs = blanks.chars ++ rest := by
  cases cs with
  | nil => exact absurd h (by simp [dropBlanks1?])
  | cons c cs =>
    rw [dropBlanks1?] at h
    split at h
    · next blank =>
      obtain rfl := Option.some.inj h
      obtain ⟨⟨chars, blanks⟩, split⟩ := exists_blanks cs
      refine ⟨⟨c :: chars, ?_⟩, by simp, congrArg (c :: ·) split⟩
      simpa [blank] using blanks
    · exact absurd h (by simp)

theorem behindEquals?_append (before behind : Blanks) (ends : Unblanked rest) :
    behindEquals? (before.chars ++ ('=' :: (behind.chars ++ rest))) = some rest := by
  rw [behindEquals?, dropBlank_append before unblanked_sign, dropExact?, if_pos rfl, dropExact?,
    Option.map_some, dropBlank_append behind ends]

theorem exists_of_behindEquals? (h : behindEquals? cs = some rest) :
    ∃ before behind : Blanks, cs = before.chars ++ ('=' :: (behind.chars ++ rest)) := by
  obtain ⟨signed, dropped, rfl⟩ := Option.map_eq_some_iff.mp h
  obtain ⟨before, split⟩ := exists_blanks cs
  obtain ⟨behind, split'⟩ := exists_blanks signed
  refine ⟨before, behind, split.trans ?_⟩
  rw [dropExact?_eq_some.mp dropped, List.singleton_append, ← split']

/-! ## Openings and values -/

theorem exists_of_referenceTail? (h : referenceTail? comment = some tail) :
    ∃ opening : Opening, opening.form = .reference ∧ comment = opening.written ++ tail := by
  simp only [referenceTail?, Option.bind_eq_bind, Option.bind_eq_some_iff, dropExact?_eq_some] at h
  obtain ⟨slashed, rfl, tagged, tag, keyed, parted, signed, chosen, ends⟩ := h
  obtain ⟨beforeTag, split⟩ := exists_blanks slashed
  obtain ⟨behindTag, nonempty, rfl⟩ := exists_of_dropBlanks1? parted
  obtain ⟨beforeSign, behindSign, rfl⟩ := exists_of_behindEquals? ends
  have named : ∃ key : Key, keyed =
      key.name ++ (beforeSign.chars ++ ('=' :: (behindSign.chars ++ tail))) := by
    rcases Option.or_eq_some_iff.mp chosen with path | ⟨-, types⟩
    · exact ⟨.path, dropExact?_eq_some.mp path⟩
    · exact ⟨.types, dropExact?_eq_some.mp types⟩
  obtain ⟨key, rfl⟩ := named
  refine ⟨.reference beforeTag behindTag nonempty key beforeSign behindSign, rfl, ?_⟩
  rw [split, tag]
  simp [Opening.written]

theorem dropExact?_append (expected rest : List Char) :
    dropExact? expected (expected ++ rest) = some rest :=
  dropExact?_eq_some.mpr rfl

theorem dropExact?_key (key : Key) (rest : List Char) :
    (dropExact? "path".toList (key.name ++ rest)).or
      (dropExact? "types".toList (key.name ++ rest)) = some rest := by
  cases key with
  | path => rw [Key.name, dropExact?_append, Option.some_or]
  | types =>
    have other : dropExact? "path".toList ("types".toList ++ rest) = none := by simp [dropExact?]
    rw [Key.name, other, Option.none_or, dropExact?_append]

theorem unblanked_tag : Unblanked ("<reference".toList ++ rest) := unblanked_cons '<' (by decide)

theorem unblanked_name : Unblanked ("@deno-types".toList ++ rest) := unblanked_cons '@' (by decide)

theorem Directive.Key.unblanked (key : Key) : Unblanked (key.name ++ rest) := by
  cases key with
  | path => exact unblanked_cons 'p' (by decide)
  | types => exact unblanked_cons 't' (by decide)

theorem Directive.Value.unblanked (v : Value) (rest : List Char) :
    Unblanked (v.written ++ rest) := by
  obtain ⟨quote, text, rfl | rfl, free⟩ := v
  · exact unblanked_cons '"' (by decide)
  · exact unblanked_cons '\'' (by decide)

theorem referenceTail?_written {opening : Opening} (form : opening.form = .reference)
    (ends : Unblanked tail) : referenceTail? (opening.written ++ tail) = some tail := by
  cases opening with
  | typesHint => exact absurd form (by simp [Opening.form])
  | reference beforeTag behindTag parted key beforeSign behindSign =>
    simp only [referenceTail?, Opening.written, List.append_assoc, List.cons_append,
      Option.bind_eq_bind, dropExact?_append, Option.bind_some, dropBlank_append _ unblanked_tag,
      dropBlanks1?_append _ parted key.unblanked, dropExact?_key]
    exact behindEquals?_append beforeSign behindSign ends

theorem exists_of_typesTail? (h : typesTail? comment = some tail) :
    ∃ opening : Opening, opening.form = .typesHint ∧ comment = opening.written ++ tail := by
  simp only [typesTail?, Option.bind_eq_bind, Option.bind_eq_some_iff, dropExact?_eq_some] at h
  obtain ⟨slashed, rfl, signed, name, ends⟩ := h
  obtain ⟨beforeName, split⟩ := exists_blanks slashed
  obtain ⟨beforeSign, behindSign, rfl⟩ := exists_of_behindEquals? ends
  refine ⟨.typesHint beforeName beforeSign behindSign, rfl, ?_⟩
  rw [split, name]
  simp [Opening.written]

theorem typesTail?_written {opening : Opening} (form : opening.form = .typesHint)
    (ends : Unblanked tail) : typesTail? (opening.written ++ tail) = some tail := by
  cases opening with
  | reference => exact absurd form (by simp [Opening.form])
  | typesHint beforeName beforeSign behindSign =>
    simp only [typesTail?, Opening.written, List.append_assoc, List.cons_append,
      Option.bind_eq_bind, dropExact?_append, Option.bind_some, dropBlank_append _ unblanked_name]
    exact behindEquals?_append beforeSign behindSign ends

/-- Behind the two slashes of a hint comes a blank or a name, not a third slash. -/
theorem referenceTail?_of_typesHint {opening : Opening} (form : opening.form = .typesHint) :
    referenceTail? (opening.written ++ tail) = none := by
  cases opening with
  | reference => exact absurd form (by simp [Opening.form])
  | typesHint beforeName beforeSign behindSign =>
    obtain ⟨_ | ⟨c, cs⟩, blank⟩ := beforeName
    · simp [referenceTail?, Opening.written, dropExact?]
    · have other : '/' ≠ c := by
        rintro rfl
        exact absurd (blank '/' List.mem_cons_self) (by decide)
      simp [referenceTail?, Opening.written, dropExact?, other]

theorem exists_of_literalAt? (h : literalAt? tail = some (quote, text)) :
    ∃ v : Value, v.quote = quote ∧ v.text = text ∧ v.written <+: tail := by
  cases tail with
  | nil => exact absurd h (by simp [literalAt?])
  | cons first cs =>
    rw [literalAt?] at h
    split at h
    · next isQuote =>
      dsimp only at h
      split at h
      · next closed =>
        obtain ⟨rfl, rfl⟩ : first = quote ∧ cs.takeWhile (· ≠ first) = text := by simpa using h
        have free : first ∉ cs.takeWhile (· ≠ first) := by
          intro member
          simpa using List.mem_takeWhile_imp member
        have whole := List.takeWhile_append_dropWhile (p := fun c => decide (c ≠ first)) (l := cs)
        have ends := List.head?_dropWhile_not (fun c => decide (c ≠ first)) cs
        cases behind : cs.dropWhile (fun c => decide (c ≠ first)) with
        | nil =>
          rw [behind, List.append_nil] at whole
          rw [whole] at closed
          exact absurd closed (Nat.lt_irrefl _)
        | cons last rest =>
          rw [behind] at whole ends
          obtain rfl : last = first := by simpa using ends
          refine ⟨⟨last, _, isQuote, free⟩, rfl, rfl, rest, ?_⟩
          simpa [Value.written] using whole
      · exact absurd h (by simp)
    · exact absurd h (by simp)

theorem literalAt?_written (v : Value) (rest : List Char) :
    literalAt? (v.written ++ rest) = some (v.quote, v.text) := by
  have inner : (v.text ++ v.quote :: rest).takeWhile (· ≠ v.quote) = v.text := by
    rw [List.takeWhile_append_of_pos]
    · simp
    · intro c member
      have other : c ≠ v.quote := fun same => v.free (same ▸ member)
      simpa using other
  have written : v.written ++ rest = v.quote :: (v.text ++ v.quote :: rest) := by
    simp [Value.written]
  rw [written, literalAt?, if_pos v.isQuote]
  simp only [inner]
  rw [if_pos (by simp)]

/-! ## Directives -/

namespace Directive

variable {opening opening' : Opening} {v v' : Value} {d : Directive}

/-- The comment begins with the opening and the value. -/
def Begins (opening : Opening) (v : Value) (comment : List Char) : Prop :=
  opening.written ++ v.written <+: comment

theorem find?_of_begins (h : Begins opening v comment) :
    find? comment = some ⟨opening.form, opening.written, v.quote, v.text⟩ := by
  obtain ⟨rest, rfl⟩ := h
  have found (form : Form) : ofTail? form (opening.written ++ (v.written ++ rest))
      (v.written ++ rest) = some ⟨form, opening.written, v.quote, v.text⟩ := by
    simp [ofTail?, literalAt?_written]
  rw [List.append_assoc, find?]
  cases form : opening.form with
  | reference =>
    rw [referenceTail?_written form (v.unblanked rest), Option.bind_some, found, Option.some_or]
  | typesHint =>
    rw [referenceTail?_of_typesHint form, typesTail?_written form (v.unblanked rest),
      Option.bind_none, Option.none_or, Option.bind_some, found]
  | _ => cases opening <;> exact absurd form (by simp [Opening.form])

theorem begins_of_ofTail? {form : Form} (is : opening.form = form)
    (h : ofTail? form (opening.written ++ tail) tail = some d) :
    ∃ v, Begins opening v (opening.written ++ tail) ∧
      d = ⟨opening.form, opening.written, v.quote, v.text⟩ := by
  obtain ⟨⟨quote, text⟩, literal, rfl⟩ := Option.map_eq_some_iff.mp h
  obtain ⟨v, rfl, rfl, begins⟩ := exists_of_literalAt? literal
  exact ⟨v, (List.prefix_append_right_inj _).mpr begins, by simp [is]⟩

/-- A directive is found in the comments that begin with an opening and a value. -/
theorem find?_eq_some :
    find? comment = some d ↔ ∃ opening v, Begins opening v comment ∧
      d = ⟨opening.form, opening.written, v.quote, v.text⟩ := by
  constructor
  · intro h
    rcases Option.or_eq_some_iff.mp h with reference | ⟨-, types⟩
    · obtain ⟨tail, found, directive⟩ := Option.bind_eq_some_iff.mp reference
      obtain ⟨opening, form, rfl⟩ := exists_of_referenceTail? found
      exact ⟨opening, begins_of_ofTail? form directive⟩
    · obtain ⟨tail, found, directive⟩ := Option.bind_eq_some_iff.mp types
      obtain ⟨opening, form, rfl⟩ := exists_of_typesTail? found
      exact ⟨opening, begins_of_ofTail? form directive⟩
  · rintro ⟨opening, v, begins, rfl⟩
    exact find?_of_begins begins

end Directive

theorem Blanks.append_inj {blanks blanks' : Blanks} {rest rest' : List Char}
    (same : blanks.chars ++ rest = blanks'.chars ++ rest') (ends : Unblanked rest)
    (ends' : Unblanked rest') : blanks = blanks' ∧ rest = rest' := by
  have behind : rest = rest' := by
    rw [← dropBlank_append blanks ends, same, dropBlank_append blanks' ends']
  subst behind
  exact ⟨Blanks.ext (List.append_cancel_right same), rfl⟩

namespace Directive

variable {opening opening' : Opening} {v v' : Value}

theorem Key.append_inj {key key' : Key} {rest rest' : List Char}
    (same : key.name ++ rest = key'.name ++ rest') : key = key' ∧ rest = rest' := by
  cases key <;> cases key' <;> simp_all [Key.name]

/-- An opening can be read in one way only. -/
theorem Opening.eq_of_written (forms : opening.form = opening'.form)
    (same : opening.written = opening'.written) : opening = opening' := by
  cases opening with
  | reference beforeTag behindTag parted key beforeSign behindSign =>
    cases opening' with
    | typesHint => exact absurd forms (by simp [form])
    | reference beforeTag' behindTag' parted' key' beforeSign' behindSign' =>
      have behindSlashes := List.append_cancel_left same
      obtain ⟨rfl, tagged⟩ := Blanks.append_inj behindSlashes unblanked_tag unblanked_tag
      have behindName := List.append_cancel_left tagged
      obtain ⟨rfl, keyed⟩ := Blanks.append_inj behindName key.unblanked key'.unblanked
      obtain ⟨rfl, signed⟩ := Key.append_inj keyed
      obtain ⟨rfl, ends⟩ := Blanks.append_inj signed unblanked_sign unblanked_sign
      obtain rfl : behindSign = behindSign' := Blanks.ext (List.cons.inj ends).2
      rfl
  | typesHint beforeName beforeSign behindSign =>
    cases opening' with
    | reference => exact absurd forms (by simp [form])
    | typesHint beforeName' beforeSign' behindSign' =>
      have behindSlashes := List.append_cancel_left same
      obtain ⟨rfl, named⟩ := Blanks.append_inj behindSlashes unblanked_name unblanked_name
      have signed := List.append_cancel_left named
      obtain ⟨rfl, ends⟩ := Blanks.append_inj signed unblanked_sign unblanked_sign
      obtain rfl : behindSign = behindSign' := Blanks.ext (List.cons.inj ends).2
      rfl

/-- A comment begins with one opening and one value at most, of whatever form. -/
theorem Begins.unique (h : Begins opening v comment) (h' : Begins opening' v' comment) :
    opening = opening' ∧ v = v' := by
  have same := Option.some.inj ((find?_of_begins h).symm.trans (find?_of_begins h'))
  obtain ⟨forms, openings, quotes, texts⟩ := Directive.mk.inj same
  exact ⟨Opening.eq_of_written forms openings, Value.ext quotes texts⟩

end Directive

/-! ## Comments -/

/-- The site of a directive in a comment that begins at a position. -/
def Directive.siteAt (opening : Opening) (v : Value) (p : Position) : Site where
  text := String.ofList v.text
  span := ⟨⟨p.line, p.column + width opening.written⟩,
    ⟨p.line, p.column + width opening.written + width v.written⟩⟩
  form := opening.form

open Directive (Begins siteAt)

theorem directiveSite?_of_begins {opening : Opening} {v : Value} {comment : String}
    (h : Begins opening v comment.toList) (p : Position) :
    directiveSite? p comment = if v.text = [] then none else some (siteAt opening v p) := by
  rw [directiveSite?, Directive.find?_of_begins h, Option.bind_eq_bind, Option.bind_some]
  simp only [List.isEmpty_iff]
  rfl

theorem directiveSite?_eq_some {comment : String} {site : Site} {p : Position} :
    directiveSite? p comment = some site ↔
      ∃ opening v, Begins opening v comment.toList ∧ v.text ≠ [] ∧ site = siteAt opening v p := by
  constructor
  · intro h
    obtain ⟨d, found, -⟩ := Option.bind_eq_some_iff.mp (directiveSite?.eq_1 p comment ▸ h)
    obtain ⟨opening, v, begins, -⟩ := Directive.find?_eq_some.mp found
    rw [directiveSite?_of_begins begins] at h
    split at h
    · exact absurd h (by simp)
    · next nonempty => exact ⟨opening, v, begins, nonempty, (Option.some.inj h).symm⟩
  · rintro ⟨opening, v, begins, nonempty, rfl⟩
    rw [directiveSite?_of_begins begins, if_neg nonempty]

namespace Tree

variable {source : List UInt8} {n tree : Tree} {comment : String} {site : Site}

theorem directive?_of_text (kind : n.kind = .comment) (text : n.text? source = some comment) :
    n.directive? source = directiveSite? n.span.start comment := by
  rw [directive?, if_pos kind, text, Option.bind_some]

/-- What is in a directive comes from a comment and its text. -/
theorem exists_of_directive? (h : n.directive? source = some site) :
    n.kind = .comment ∧ ∃ comment, n.text? source = some comment ∧
      directiveSite? n.span.start comment = some site := by
  rw [directive?] at h
  split at h
  · next kind => exact ⟨kind, Option.bind_eq_some_iff.mp h⟩
  · exact absurd h (by simp)

theorem mem_sites : site ∈ tree.sites source ↔
    site ∈ tree.statementSites source ∨ site ∈ tree.directiveSites source := by
  rw [sites, List.mem_mergeSort, List.mem_append]

theorem mem_directiveSites :
    site ∈ tree.directiveSites source ↔ ∃ n ∈ tree.nodes, n.directive? source = some site :=
  List.mem_filterMap

end Tree

/-- A comment is a directive if and only if it begins with an opening and a value that is not empty.
It can be read so in one way at most, and whatever else is written in it counts for nothing: the one
specifier that it may have is that of this value, and if the value is empty there is none. -/
theorem directive?_iff_begins {parse : String → Option Tree} {script comment : String}
    {tree n : Tree} (parsed : parse script = some tree) (member : n ∈ tree.nodes)
    (kind : n.kind = .comment) (text : n.text? (encode script) = some comment) :
    (∀ site, n.directive? (encode script) = some site ↔ ∃ opening v,
        Begins opening v comment.toList ∧ v.text ≠ [] ∧ site = siteAt opening v n.span.start) ∧
      (∀ opening opening' v v', Begins opening v comment.toList →
        Begins opening' v' comment.toList → opening = opening' ∧ v = v') ∧
      (∀ opening v, Begins opening v comment.toList → v.text = [] →
        n.directive? (encode script) = none) ∧
      ∃ specifiers, extract parse script = .ok specifiers ∧
        ∀ site, n.directive? (encode script) = some site →
          RawSpecifier.classify site ∈ specifiers := by
  have reads := Tree.directive?_of_text kind text
  refine ⟨fun site => ?_, fun _ _ _ _ => Directive.Begins.unique, ?_, ?_⟩
  · rw [reads]
    exact directiveSite?_eq_some
  · intro opening v begins empty
    rw [reads, directiveSite?_of_begins begins, if_pos empty]
  · refine ⟨(tree.sites (encode script)).map .classify, by rw [extract, parsed], ?_⟩
    intro site given
    have found := Tree.mem_directiveSites.mpr ⟨n, member, given⟩
    exact List.mem_map_of_mem (Tree.mem_sites.mpr (.inr found))

/-- A directive with blanks of more bytes than one, with a quote in its value that is not the one
around it, and with another attribute behind it. -/
def wideComment : String := "///\u00a0<reference\u3000types\t= '\"é' path=\"x\" />"

theorem directive?_wideComment :
    ∃ n ∈ (outline ("é; " ++ wideComment)).nodes, n.span.start = ⟨0, 4⟩ ∧
      n.directive? (encode ("é; " ++ wideComment)) =
        some ⟨"\"é", ⟨⟨0, 30⟩, ⟨0, 35⟩⟩, .reference⟩ := by
  let n : Tree := commentNode (encode ("é; " ++ wideComment)) ⟨0, 4⟩ wideComment.toList
  have member : n ∈ (outline ("é; " ++ wideComment)).nodes := by decide +kernel
  have text : n.text? (encode ("é; " ++ wideComment)) = some wideComment := by decide +kernel
  let opening : Opening := .reference (.one '\u00a0' (by decide)) (.one '\u3000' (by decide))
    Blanks.one_ne_nil .types (.one '\t' (by decide)) (.one ' ' (by decide))
  let v : Value := ⟨'\'', ['"', 'é'], .inr rfl, by decide⟩
  have begins : Begins opening v wideComment.toList :=
    ⟨" path=\"x\" />".toList, by decide +kernel⟩
  have parsed : outline? ("é; " ++ wideComment) = some (outline ("é; " ++ wideComment)) := rfl
  have exact := directive?_iff_begins parsed member rfl text
  exact ⟨n, member, rfl, (exact.1 _).mpr ⟨opening, v, begins, by simp [v], by decide +kernel⟩⟩

end RemoteIndex.Script
