import RemoteIndex.Proofs.Elsewhere
import RemoteIndex.Proofs.Enclosure
import RemoteIndex.Proofs.Pieces

/-!
# The outline and texts that are no code

Where the lexer takes a text as the inside of a comment or as the text of a template
(`Enclosure.Lexes`), any other text of the same layout that stays inside can stand in its place. The
lexer comes out of it in the same state and with the same tokens, but for the text of a line comment;
so the outline of the script is the same, and so are its specifiers, unless a line comment is a
directive.
-/

namespace RemoteIndex.Script

open Position (lineFeed advanceBy_append offset)
open Text.Utf8 (encode encode_ofList encode_append width width_cons)

/-! ## Layout -/

/-- Which bytes are line feeds. -/
def feeds (bytes : List UInt8) : List Bool := bytes.map (· == lineFeed)

theorem feeds_append (bytes more : List UInt8) :
    feeds (bytes ++ more) = feeds bytes ++ feeds more := List.map_append

/-- Of the bytes of a text it only counts for its lines which are line feeds. -/
theorem lineStart_congr {bytes bytes' : List UInt8} (h : feeds bytes = feeds bytes') (line : Nat) :
    Position.lineStart bytes line = Position.lineStart bytes' line := by
  induction bytes generalizing bytes' line with
  | nil =>
    obtain rfl : bytes' = [] := List.map_eq_nil_iff.mp h.symm
    rfl
  | cons b bytes ih =>
    obtain ⟨b', rest, rfl, same, behind⟩ := List.map_eq_cons_iff.mp h.symm
    cases line with
    | zero => rfl
    | succ line =>
      have feed : (b = lineFeed) = (b' = lineFeed) := by
        rw [beq_eq_beq] at same
        exact propext same.symm
      simp only [Position.lineStart, feed]
      rw [ih behind.symm]

theorem offset_congr {bytes bytes' : List UInt8} (h : feeds bytes = feeds bytes') (p : Position) :
    p.offset bytes = p.offset bytes' := by rw [offset, offset, lineStart_congr h]

theorem foldl_advanceByte (bytes : List UInt8) (p : Position) :
    bytes.foldl Position.advanceByte p = (feeds bytes).foldl
      (fun p feed => if feed then ⟨p.line + 1, 0⟩ else ⟨p.line, p.column + 1⟩) p := by
  rw [feeds, List.foldl_map]
  congr 1
  funext p b
  simp [Position.advanceByte]

theorem le_of_mem_terminators {cs : List Char} {here offset : Nat} {c : Char}
    (h : (offset, c) ∈ terminators here cs) : here ≤ offset := by
  induction cs generalizing here with
  | nil => exact absurd h List.not_mem_nil
  | cons d cs ih =>
    rw [terminators] at h
    split at h
    · rcases List.mem_cons.mp h with same | behind
      · exact Nat.le_of_eq (congrArg Prod.fst same).symm
      · exact Nat.le_trans (Nat.le_add_right _ _) (ih behind)
    · exact Nat.le_trans (Nat.le_add_right _ _) (ih h)

/-- A byte of a text is a line feed if one of its terminators stands there and is one. -/
theorem feeds_encode (cs : List Char) (here : Nat) :
    feeds (encode (String.ofList cs)) =
      (List.range' here (width cs)).map fun i => decide ((i, '\n') ∈ terminators here cs) := by
  induction cs generalizing here with
  | nil => rfl
  | cons c cs ih =>
    have behind (i : Nat) (far : here + c.utf8Size ≤ i) :
        (i, '\n') ∈ terminators here (c :: cs) ↔
          (i, '\n') ∈ terminators (here + c.utf8Size) cs := by
      have positive := c.utf8Size_pos
      have other : i ≠ here := by omega
      rw [terminators]
      split <;> simp [other]
    have first (i : Nat) (near : i < here + c.utf8Size) :
        (i, '\n') ∈ terminators here (c :: cs) ↔ i = here ∧ c = '\n' := by
      have none : (i, '\n') ∉ terminators (here + c.utf8Size) cs := fun member =>
        absurd (le_of_mem_terminators member) (by omega)
      rw [terminators]
      split
      · simp [none, eq_comm]
      · next other =>
        have noFeed : c ≠ '\n' := by
          rintro rfl
          exact other (by decide)
        simp [none, noFeed]
    have here' : feeds (String.utf8EncodeChar c) = (List.range' here c.utf8Size).map fun i =>
        decide ((i, '\n') ∈ terminators here (c :: cs)) := by
      by_cases newline : c = '\n'
      · subst newline
        have holds := (first here (Nat.lt_succ_self _)).mpr ⟨rfl, rfl⟩
        change [true] = [decide _]
        rw [decide_eq_true holds]
      · have noFeed : ∀ b ∈ String.utf8EncodeChar c, (b == lineFeed) = false := by
          rintro b member
          refine beq_eq_false_iff_ne.mpr ?_
          rintro rfl
          exact Position.lineFeed_notMem newline member
        rw [feeds, List.map_eq_replicate_iff.mpr noFeed, String.length_utf8EncodeChar, eq_comm,
          List.map_eq_replicate_iff.mpr, List.length_range']
        intro i member
        have near := (List.mem_range'_1.mp member).2
        exact decide_eq_false fun holds => newline ((first i near).mp holds).2
    rw [encode_ofList, List.flatMap_cons, ← encode_ofList, feeds_append, here',
      ih (here + c.utf8Size), width_cons, ← List.range'_append_1, List.map_append]
    congr 1
    refine List.map_congr_left fun i member => ?_
    have far := (List.mem_range'_1.mp member).1
    simp only [behind i far]

namespace SameLayout

variable {p c d s : List Char}

theorem feeds_eq (h : SameLayout c d) :
    feeds (encode (String.ofList c)) = feeds (encode (String.ofList d)) := by
  rw [feeds_encode c 0, feeds_encode d 0, h.1, h.2]

theorem advanceBy_eq (h : SameLayout c d) (p : Position) : p.advanceBy c = p.advanceBy d := by
  rw [Position.advanceBy_eq_foldl, Position.advanceBy_eq_foldl, foldl_advanceByte,
    foldl_advanceByte, h.feeds_eq]

/-- A text of the same layout moves nothing in the script that it stands in. -/
theorem feeds_script (h : SameLayout c d) (p s : List Char) :
    feeds (encode (String.ofList (p ++ c ++ s))) =
      feeds (encode (String.ofList (p ++ d ++ s))) := by
  simp only [String.ofList_append, encode_append, feeds_append, h.feeds_eq]

end SameLayout

/-! ## Where the lexer is inside -/

/-- The text neither ends a template nor begins a substitution in it, and is no incomplete escape
sequence at its end. -/
def isTemplateText : List Char → Bool
  | [] => true
  | ['\\'] => false
  | '\\' :: _ :: cs => isTemplateText cs
  | '\x60' :: _ => false
  | '$' :: '\x7b' :: _ => false
  | _ :: cs => isTemplateText cs

namespace Enclosure

/-- The lexer is inside, and not behind a character that the next one may go together with. -/
def Opened : Enclosure → Lexer → Prop
  | .blockComment, l => l.lexeme = .blockComment false
  | .lineComment, l => l.lexeme = .lineComment ['/', '/']
  | .template, l => l.lexeme = .gap ∧ l.frames.head? = some .template

/-- The text does not lead out. -/
def Interior : Enclosure → List Char → Prop
  | .blockComment, cs => ¬['*', '/'] <:+: cs
  | .lineComment, cs => ∀ c ∈ cs, endsLine c = false
  | .template, cs => isTemplateText cs = true

/-- What follows leads out. -/
def Closed : Enclosure → List Char → Prop
  | .blockComment, cs => ['*', '/'] <+: cs
  | .lineComment, cs => ∀ c ∈ cs.head?, endsLine c = true
  | .template, cs => ['\x60'] <+: cs ∨ ['$', '\x7b'] <+: cs

/-- Of the three texts in a row, the lexer takes the second as the inside. -/
structure Lexes (k : Enclosure) (p c s : List Char) : Prop where
  opened : k.Opened (Lexer.initial.run p)
  interior : k.Interior c
  closed : k.Closed s

end Enclosure

theorem isTemplateText_of_plain {cs : List Char} (backtick : '\x60' ∉ cs) (escape : '\\' ∉ cs)
    (substitution : ¬['$', '\x7b'] <:+: cs) : isTemplateText cs = true := by
  induction cs using isTemplateText.induct with
  | case1 => rfl
  | case2 => exact absurd List.mem_cons_self escape
  | case3 d cs ih => exact absurd List.mem_cons_self escape
  | case4 cs => exact absurd List.mem_cons_self backtick
  | case5 cs => exact absurd ⟨[], cs, rfl⟩ substitution
  | case6 d cs lone escaping closing opening ih =>
    rw [List.mem_cons, not_or] at backtick escape
    rw [List.infix_cons_iff, not_or] at substitution
    rw [isTemplateText.eq_6 d cs lone escaping closing opening]
    exact ih backtick.2 escape.2 substitution.2

theorem Enclosure.Admits.interior {k : Enclosure} {cs : List Char} (h : k.Admits cs) :
    k.Interior cs := by
  cases k with
  | blockComment => exact h.1
  | lineComment => exact h
  | template => exact isTemplateText_of_plain h.1 h.2.1 h.2.2.1

namespace Lexer

variable {l : Lexer} {star : Bool} {cs ds s : List Char} {c : Char}

/-! ## Through a block comment -/

theorem step_blockComment (inside : l.lexeme = .blockComment star)
    (stays : ¬(star = true ∧ c = '/')) :
    l.step c = { l with here := l.here.advance c, lexeme := .blockComment (c = '*') } := by
  have goesOn : (star && decide (c = '/')) = false := by
    rw [Bool.eq_false_iff]
    simpa using stays
  rw [step, act, inside]
  simp only [goesOn]
  rfl

theorem run_blockComment (inside : l.lexeme = .blockComment star)
    (first : star = true → cs.head? ≠ some '/') (within : ¬['*', '/'] <:+: cs) :
    l.run (cs ++ '*' :: '/' :: s) =
      { l with here := l.here.advanceBy (cs ++ ['*', '/']), lexeme := .gap }.run s := by
  induction cs generalizing l star with
  | nil =>
    have begun := step_blockComment (c := '*') inside (by simp)
    rw [List.nil_append, run, List.foldl_cons, begun]
    rfl
  | cons c cs ih =>
    have stays : ¬(star = true ∧ c = '/') := by
      rintro ⟨starred, rfl⟩
      exact first starred rfl
    rw [List.infix_cons_iff, not_or] at within
    have next : decide (c = '*') = true → cs.head? ≠ some '/' := by
      intro starred slash
      obtain ⟨rest, rfl⟩ := List.head?_eq_some_iff.mp slash
      exact within.1 ⟨rest, by simp [of_decide_eq_true starred]⟩
    rw [List.cons_append, run, List.foldl_cons, step_blockComment inside stays]
    exact ih rfl next within.2

/-! ## Through the text of a template -/

/-- The lexer at a position in the text of a template. -/
def settledAt (p : Position) (l : Lexer) : Lexer := { l with here := p, start := p, lexeme := .gap }

theorem stepGap_template {rest : List Frame} (inside : l.frames = .template :: rest) :
    stepGap c l = stepTemplate c l := by
  rw [stepGap, inside]

theorem step_template (inside : l.frames.head? = some .template)
    (ready : l.lexeme = .gap ∨ l.lexeme = .templateDollar ∧ c ≠ '\x7b') :
    l.step c = { stepTemplate c l with here := l.here.advance c } := by
  obtain ⟨rest, frames⟩ := List.head?_eq_some_iff.mp inside
  rcases ready with gap | ⟨dollar, other⟩
  · rw [step, act, gap]
    simp only [stepGap_template frames]
  · rw [step, act, dollar]
    simp only [if_neg other]

/-- Where the last lexeme began plays no role. -/
theorem step_settledAt (inside : l.frames.head? = some .template)
    (ready : l.lexeme = .gap ∨ l.lexeme = .templateDollar ∧ c ≠ '\x7b') :
    l.step c = (l.settledAt l.here).step c := by
  rw [step_template inside ready, step_template (l := l.settledAt l.here) inside (.inl rfl)]
  rfl

theorem run_template (inside : l.frames.head? = some .template)
    (ready : l.lexeme = .gap ∨ l.lexeme = .templateDollar ∧ (cs ++ c :: s).head? ≠ some '\x7b')
    (within : isTemplateText cs = true) (closes : c = '\x60' ∨ c = '$') :
    l.run (cs ++ c :: s) = (l.settledAt (l.here.advanceBy cs)).run (c :: s) := by
  induction cs using isTemplateText.induct generalizing l with
  | case1 =>
    rw [List.nil_append, List.head?_cons] at ready
    have same := step_settledAt (c := c) inside (by simpa using ready)
    rw [List.nil_append, run, run, List.foldl_cons, List.foldl_cons, same]
    rfl
  | case2 => exact absurd within (by simp [isTemplateText])
  | case3 d cs ih =>
    have escape := step_template (c := '\\') inside (ready.imp_right fun h => ⟨h.1, by decide⟩)
    have behind := ih
      (l := { l with here := (l.here.advance '\\').advance d, start := l.here, lexeme := .gap })
      inside (.inl rfl) (by simpa [isTemplateText] using within)
    rw [List.cons_append, List.cons_append, run, List.foldl_cons, List.foldl_cons, escape]
    exact behind
  | case4 cs => exact absurd within (by simp [isTemplateText])
  | case5 cs => exact absurd within (by simp [isTemplateText])
  | case6 d cs lone escaping backtick substitution ih =>
    have step := step_template (c := d) inside (ready.imp_right fun h => ⟨h.1, by simpa using h.2⟩)
    have rest : isTemplateText cs = true := by
      rwa [isTemplateText.eq_6 d cs lone escaping backtick substitution] at within
    rw [List.cons_append, run, List.foldl_cons, step]
    by_cases dollar : d = '$'
    · subst dollar
      have apart : (cs ++ c :: s).head? ≠ some '\x7b' := by
        cases cs with
        | nil => rcases closes with rfl | rfl <;> simp
        | cons e cs =>
          intro brace
          exact substitution cs rfl (by rw [show e = '\x7b' by simpa using brace])
      exact ih
        (l := { l with here := l.here.advance '$', start := l.here, lexeme := .templateDollar })
        inside (.inr ⟨rfl, apart⟩) rest
    · have plain : stepTemplate d l = l.begin .gap := by
        have notEscape : d ≠ '\\' := by
          rintro rfl
          cases cs with
          | nil => exact lone rfl rfl
          | cons e cs => exact escaping e cs rfl rfl
        rw [stepTemplate.eq_def]
        dsimp only
        split
        · exact absurd rfl backtick
        · exact absurd rfl notEscape
        · exact absurd rfl dollar
        · rfl
      rw [plain]
      exact ih (l := { l with here := l.here.advance d, start := l.here, lexeme := .gap }) inside
        (.inl rfl) rest

/-! ## Out of an enclosure -/

/-- Behind a block comment or the text of a template, nothing of it is left. -/
theorem run_interior {k : Enclosure} (other : k ≠ .lineComment) (opened : k.Opened l)
    (closed : k.Closed s) (within : k.Interior cs) (within' : k.Interior ds)
    (layout : SameLayout cs ds) : l.run (cs ++ s) = l.run (ds ++ s) := by
  have here := layout.advanceBy_eq l.here
  cases k with
  | lineComment => exact absurd rfl other
  | blockComment =>
    obtain ⟨rest, rfl⟩ := closed
    have out := run_blockComment (s := rest) opened (by simp) within
    have out' := run_blockComment (s := rest) opened (by simp) within'
    rw [advanceBy_append, here, ← advanceBy_append, ← out'] at out
    exact out
  | template =>
    obtain ⟨gap, inside⟩ := opened
    obtain ⟨c, rest, rfl, closes⟩ : ∃ c rest, s = c :: rest ∧ (c = '\x60' ∨ c = '$') := by
      rcases closed with ⟨rest, rfl⟩ | ⟨rest, rfl⟩
      · exact ⟨_, rest, rfl, .inl rfl⟩
      · exact ⟨_, _ :: rest, rfl, .inr rfl⟩
    rw [run_template inside (.inl gap) within closes, here,
      ← run_template inside (.inl gap) within' closes]

/-- A line comment is a token where its line or the script ends. -/
theorem finish_run_lineComment {text : List Char} (inside : l.lexeme = .lineComment text)
    (closed : Enclosure.lineComment.Closed s) :
    (l.run s).finish = ((l.endComment text).run s).finish := by
  cases s with
  | nil =>
    change l.finish = (l.endComment text).finish
    rw [finish, inside]
    rfl
  | cons c s =>
    rw [run, run, List.foldl_cons, List.foldl_cons, step_lineComment inside (closed c rfl)]

/-- What has been found earlier stands before what is found later. -/
theorem tokens_run_over (cs : List Char) (ts : List Token) :
    ({ l with tokens := l.tokens ++ ts }.run cs).finish.tokens =
      (l.run cs).finish.tokens ++ ts := by
  have unmoved (found : List Token) : found.map (Token.lower 0) = found := List.map_id found
  have here : ((l.below 0 ts).run cs).finish.tokens = _ := tokens_run_below cs
  rwa [below, unmoved, unmoved] at here

/-- Behind a line comment, nothing of it is left but its text in a token. -/
theorem tokens_run_lineComment (opened : Enclosure.lineComment.Opened l)
    (closed : Enclosure.lineComment.Closed s) (within : Enclosure.lineComment.Interior cs) :
    (l.run (cs ++ s)).finish.tokens =
      ({ l with here := l.here.advanceBy cs, lexeme := .gap, tokens := [] }.run s).finish.tokens ++
        ⟨.comment (String.ofList ('/' :: '/' :: cs)), ⟨l.start, l.here.advanceBy cs⟩⟩ ::
          l.tokens := by
  have through := run_lineComment opened within
  have text : (cs.reverse ++ ['/', '/']).reverse = '/' :: '/' :: cs := by simp
  rw [run_append, through, finish_run_lineComment rfl closed, ← tokens_run_over, endComment, text]
  rfl

end Lexer

/-! ## The outline -/

variable {k : Enclosure} {p c d s : List Char}

/-- The token of a line comment. -/
def lineToken (span : Span) (cs : List Char) : Token :=
  ⟨.comment (String.ofList ('/' :: '/' :: cs)), span⟩

/-- The tokens are the same, or they are but for the text of one line comment. -/
def SameTokens (k : Enclosure) (c d : List Char) (ts us : List Token) : Prop :=
  ts = us ∨ k = .lineComment ∧ ∃ before after span,
    ts = before ++ lineToken span c :: after ∧ us = before ++ lineToken span d :: after

theorem sameTokens_of_lexes (h : k.Lexes p c s) (within : k.Interior d) (layout : SameLayout c d) :
    SameTokens k c d (tokensOf (p ++ c ++ s)) (tokensOf (p ++ d ++ s)) := by
  obtain ⟨opened, interior, closed⟩ := h
  rw [List.append_assoc, List.append_assoc, tokensOf, tokensOf, Lexer.run_append p (c ++ s),
    Lexer.run_append p (d ++ s)]
  by_cases line : k = .lineComment
  · subst line
    refine .inr ⟨rfl, ?_⟩
    rw [Lexer.tokens_run_lineComment opened closed interior,
      Lexer.tokens_run_lineComment opened closed within, layout.advanceBy_eq]
    simp only [List.reverse_append, List.reverse_cons, List.append_assoc, List.singleton_append]
    exact ⟨_, _, _, rfl, rfl⟩
  · rw [Lexer.run_interior line opened closed interior within layout]
    exact .inl rfl

namespace SameTokens

variable {ts us : List Token}

theorem statementSites_eq (h : SameTokens k c d ts us) : statementSites ts = statementSites us := by
  obtain rfl | ⟨-, before, after, span, rfl, rfl⟩ := h
  · rfl
  · rw [statementSites, statementSites, List.foldl_append, List.foldl_append, List.foldl_cons,
      List.foldl_cons]
    rfl

theorem start_eq (h : SameTokens k c d ts us) :
    ts.head?.map (·.span.start) = us.head?.map (·.span.start) := by
  obtain rfl | ⟨-, before, after, span, rfl, rfl⟩ := h
  · rfl
  · cases before <;> rfl

/-- What is told of a token without the text of a comment is told of both alike. -/
theorem filterMap_eq {α : Type} {f : Token → Option α} (h : SameTokens k c d ts us)
    (same : ∀ span, f (lineToken span c) = f (lineToken span d)) :
    ts.filterMap f = us.filterMap f := by
  obtain rfl | ⟨-, before, after, span, rfl, rfl⟩ := h
  · rfl
  · rw [List.filterMap_append, List.filterMap_append, List.filterMap_cons, List.filterMap_cons,
      same]

/-- The directives are the same unless the comment is one. -/
theorem directives_eq (h : SameTokens k c d ts us) (silent : k.Silent c) (silent' : k.Silent d) :
    ts.flatMap Token.directives = us.flatMap Token.directives := by
  obtain rfl | ⟨rfl, before, after, span, rfl, rfl⟩ := h
  · rfl
  · have none (cs : List Char) (silent : Enclosure.lineComment.Silent cs) :
        (lineToken span cs).directives = [] := by
      have unread : Directive.find? ('/' :: '/' :: cs) = none := silent
      simp [lineToken, Token.directives, Token.comments, directiveSite?, unread]
    rw [List.flatMap_append, List.flatMap_append, List.flatMap_cons, List.flatMap_cons,
      none c silent, none d silent']

end SameTokens

section

variable {source source' : List UInt8}

theorem nodeAt_congr (h : feeds source = feeds source') : nodeAt source = nodeAt source' := by
  funext kind field span children
  rw [nodeAt, nodeAt, offset_congr h, offset_congr h]

theorem nodeOf?_congr (h : feeds source = feeds source') (sites : List Site) (t : Token) :
    nodeOf? source sites t = nodeOf? source' sites t := by
  have around (form : Form) (span : Span) (comments : List Tree) :
      nodeAround source form span comments = nodeAround source' form span comments := by
    rw [nodeAround.eq_def, nodeAround.eq_def, nodeAt_congr h]
  simp only [nodeOf?, commentNode, around, nodeAt_congr h]

end

/-- The outline of a script does not tell what stands in a text that is no code. -/
theorem outline_eq_of_lexes (h : k.Lexes p c s) (admits : k.Admits d) (layout : SameLayout c d) :
    outline (String.ofList (p ++ d ++ s)) = outline (String.ofList (p ++ c ++ s)) := by
  have tokens := sameTokens_of_lexes h admits.interior layout
  have feeds := layout.feeds_script p s
  have stop : Position.origin.advanceBy (p ++ c ++ s) =
      Position.origin.advanceBy (p ++ d ++ s) := by
    simp only [advanceBy_append, layout.advanceBy_eq]
  have comment (span : Span) (sites : List Site) (source : List UInt8) :
      nodeOf? source sites (lineToken span c) = nodeOf? source sites (lineToken span d) := by
    have behind : span.start.advanceBy ('/' :: '/' :: c) =
        span.start.advanceBy ('/' :: '/' :: d) := layout.advanceBy_eq _
    simp only [nodeOf?, lineToken, String.toList_ofList, commentNode, behind]
  have children := tokens.filterMap_eq fun span =>
    comment span (statementSites (tokensOf (p ++ c ++ s))) (encode (String.ofList (p ++ c ++ s)))
  rw [outline, outline]
  simp only [String.toList_ofList]
  rw [← nodeAt_congr feeds, ← tokens.start_eq, ← stop, ← tokens.statementSites_eq, children]
  simp only [nodeOf?_congr feeds]

/-- And so the specifiers of a script do not depend on a text in it that is no code, unless it is that
of a directive. -/
theorem extract_eq_of_lexes (h : k.Lexes p c s) (admits : k.Admits d) (layout : SameLayout c d)
    (silent : k.Silent c) (silent' : k.Silent d) :
    extract outline? (String.ofList (p ++ d ++ s)) =
      extract outline? (String.ofList (p ++ c ++ s)) := by
  have tokens := sameTokens_of_lexes h admits.interior layout
  have statements (script : List Char) := statementSites_outline (String.ofList script)
  have directives (script : List Char) := directiveSites_outline (String.ofList script)
  simp only [String.toList_ofList] at statements directives
  have read (script : String) : extract outline? script =
      .ok (((outline script).sites (encode script)).map .classify) := extract_of_parse rfl
  rw [read, read, Tree.sites, Tree.sites, statements, statements, directives, directives,
    ← tokens.statementSites_eq, tokens.directives_eq silent silent', tokens.filterMap_eq]
  exact fun span => rfl

/-- The text of a template up to a substitution, with what looks like a comment in it. -/
example : Enclosure.template.Lexes "f(\x60".toList "\"//*/".toList
    "$\x7bimport('b')\x7d\x60)".toList :=
  ⟨⟨by decide +kernel, by decide +kernel⟩, rfl, .inr ⟨_, rfl⟩⟩

end RemoteIndex.Script
