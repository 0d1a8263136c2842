import Mathlib.Tactic.SplitIfs
import RemoteIndex.Proofs.Layout

/-!
# Pieces of statements

A statement on a line of its own is written in pieces: a name and a blank, a mark and a blank, a
literal, a name with a literal in parentheses, a semicolon. Between two pieces a lexer is in code of
the script that is not inside of anything (`Lexer.Stands`), and behind a piece it has found the
tokens of the piece.
-/

namespace RemoteIndex.Script

open Position (advanceBy_append)

/-- The region is the script itself, and what it knows of the present statement does not outlast
it. -/
structure Region.Tame (r : Region) : Prop where
  opener : r.opener = .script
  typing : r.typing ≠ .only

namespace Region.Tame

variable {r : Region} {c : Char}

theorem leaveType (h : r.Tame) : r.leaveType.Tame where
  opener := h.opener
  typing := by simp [Region.leaveType, h.typing]

theorem restart (h : r.Tame) : r.restart.Tame := ⟨h.opener, h.leaveType.typing⟩

theorem meetWord (h : r.Tame) (name : String) (afterOperand : Bool) (last : Option Token.Kind) :
    (r.meetWord name afterOperand last).Tame where
  opener := by
    refine Eq.trans ?_ h.opener
    unfold Region.meetWord
    split_ifs <;> rfl
  typing := by
    unfold Region.meetWord
    split_ifs <;> first | exact h.typing | exact h.leaveType.typing

theorem meetMark (h : r.Tame) (known : c = '*' ∨ c = '=' ∨ c = ';') (last : Option Token.Kind) :
    (r.meetMark c last).Tame := by
  rcases known with rfl | rfl | rfl
  · exact h
  · refine ⟨Eq.trans ?_ h.opener, ?_⟩
    · unfold Region.meetMark
      dsimp only
      split_ifs <;> rfl
    · unfold Region.meetMark
      dsimp only
      split_ifs <;> first | exact h.typing | simp
  · exact h.restart

end Region.Tame

/-- The letters of a name, no digit the first of them. -/
def isName : List Char → Bool
  | [] => false
  | c :: cs => isWordChar c && !c.isDigit && c ≠ '#' && cs.all isWordChar

/-- The characters that a literal may hold: no quotes, no backslashes, no control characters and no
line terminators. -/
def isPrintable (c : Char) : Bool :=
  c ≠ '"' && c ≠ '\'' && c ≠ '\\' && 0x20 ≤ c.toNat && !(0x7F ≤ c.toNat && c.toNat ≤ 0x9F) &&
    c.toNat ≠ 0x2028 && c.toNat ≠ 0x2029

/-- A string literal. It is not empty. -/
structure Quoted where
  quote : Char
  text : List Char
  isQuote : quote = '"' ∨ quote = '\''
  nonempty : text ≠ []
  printable : ∀ c ∈ text, isPrintable c = true

/-- The literal with its quotes. -/
def Quoted.written (q : Quoted) : List Char := q.quote :: q.text ++ [q.quote]

/-- What holds of both quotes holds of the one the literal has. -/
theorem Quoted.of_quotes (q : Quoted) (P : Char → Prop) (double : P '"') (single : P '\'') :
    P q.quote := by
  rcases q.isQuote with quote | quote
  · exact quote ▸ double
  · exact quote ▸ single

theorem Quoted.plain (q : Quoted) : ∀ c ∈ q.text, c ≠ q.quote ∧ isPrintable c = true := by
  intro c member
  have printable := q.printable c member
  refine ⟨?_, printable⟩
  rintro rfl
  have unprintable := q.of_quotes (¬isPrintable · = true) (by decide) (by decide)
  exact unprintable printable

namespace Lexer

variable {l : Lexer} {p : Position} {ts : List Token} {c d : Char} {cs letters text : List Char}
  {q : Quoted}

theorem run_append (cs ds : List Char) : l.run (cs ++ ds) = (l.run cs).run ds := List.foldl_append

/-- A lexeme that takes up every character of a text, one by one, takes up the text. -/
theorem run_grows {P : Char → Prop} (lexeme : List Char → Lexeme)
    (grows : ∀ (l : Lexer) (text : List Char) (c : Char), l.lexeme = lexeme text → P c →
      l.step c = { l with here := l.here.advance c, lexeme := lexeme (c :: text) })
    (inside : l.lexeme = lexeme text) (all : ∀ c ∈ cs, P c) :
    l.run cs =
      { l with here := l.here.advanceBy cs, lexeme := lexeme (cs.reverse ++ text) } := by
  induction cs generalizing l text with
  | nil => rw [List.reverse_nil, List.nil_append, ← inside]; rfl
  | cons c cs ih =>
    have behind : ∀ d ∈ cs, P d := fun d member => all d (List.mem_cons_of_mem c member)
    rw [run, List.foldl_cons, grows l text c inside (all c List.mem_cons_self)]
    refine (ih rfl behind).trans ?_
    simp

/-- The lexer is at a position of the script, between two tokens, and not inside of anything. A name
that comes next is no member of what was before. -/
structure Stands (l : Lexer) (p : Position) (ts : List Token) : Prop where
  here : l.here = p
  lexeme : l.lexeme = .gap
  frames : ∃ r : Region, r.Tame ∧ l.frames = [.code r]
  free : l.last ≠ some (.mark '.') ∧ l.last ≠ some .chain
  tokens : l.tokens = ts

theorem stands_initial : initial.Stands .origin [] where
  here := rfl
  lexeme := rfl
  frames := ⟨.script, ⟨rfl, by decide⟩, rfl⟩
  free := ⟨nofun, nofun⟩
  tokens := rfl

/-! ## In code -/

theorem step_code {r : Region} {fs : List Frame} (gap : l.lexeme = .gap)
    (code : l.frames = .code r :: fs) :
    l.step c = { stepCode c l with here := l.here.advance c } := by
  rw [step, act, gap]
  simp only [stepGap, code]

/-- A blank in code is passed over. -/
theorem Stands.blank (h : l.Stands p ts) (blank : Text.isGap c = true) :
    (l.step c).Stands (p.advance c) ts := by
  obtain ⟨here, gap, ⟨r, tame, frames⟩, free, tokens⟩ := h
  have passed : stepCode c l = l.begin .gap := by
    rw [stepCode]
    simp only [blank, if_true]
  rw [step_code gap frames, passed]
  exact ⟨by rw [here], rfl, ⟨r, tame, frames⟩, free, tokens⟩

/-! ## Names -/

theorem run_word (inside : l.lexeme = .word letters false) (word : ∀ c ∈ cs, isWordChar c = true) :
    l.run cs =
      { l with here := l.here.advanceBy cs, lexeme := .word (cs.reverse ++ letters) false } := by
  refine run_grows (.word · false) ?_ inside word
  intro l letters c inside letter
  rw [step, act, inside]
  simp only [stepWord, letter]
  rfl

/-- A character that ends a name. -/
def EndsName (c : Char) : Prop := isWordChar c = false ∧ c ≠ '\x7b'

/-- A name is a token where it ends. -/
theorem step_word (inside : l.lexeme = .word letters false) (ends : EndsName c) :
    l.step c = (l.endWord letters).step c := by
  have gap : (l.endWord letters).lexeme = .gap := (settles_endWord letters l).lexeme
  have here : (l.endWord letters).here = l.here := (settles_endWord letters l).here
  rw [step, step, act, act, inside, gap, here]
  simp [stepWord, ends.1, ends.2]

theorem stands_endWord (letters : List Char) {r : Region} (tame : r.Tame)
    (frames : l.frames = [.code r]) (free : l.last ≠ some (.mark '.') ∧ l.last ≠ some .chain) :
    (l.endWord letters).Stands l.here
        (⟨.word (String.ofList letters.reverse), ⟨l.start, l.here⟩⟩ :: l.tokens) ∧
      (String.ofList letters.reverse ≠ "await" →
        (l.endWord letters).last = some (.word (String.ofList letters.reverse))) := by
  have outer (f : Region → Region) : l.mapRegion f = { l with frames := [.code (f r)] } := by
    rw [mapRegion, frames]
  have noMember : ¬(l.last = some (.mark '.') ∨ l.last = some .chain) := not_or.mpr free
  rw [endWord, if_neg noMember, outer]
  refine ⟨⟨rfl, rfl, ⟨_, tame.meetWord _ _ _, rfl⟩, ?_, rfl⟩,
    fun other => if_neg fun loop => other loop.1⟩
  dsimp only
  by_cases loop : String.ofList letters.reverse = "await" ∧ l.last = some (.word "for")
  · rw [if_pos loop]
    exact free
  · rw [if_neg loop]
    simp

theorem step_nameStart {r : Region} {fs : List Frame} (gap : l.lexeme = .gap)
    (code : l.frames = .code r :: fs) (letter : isWordChar c = true) (notDigit : c.isDigit = false)
    (notHash : c ≠ '#') :
    l.step c =
      { l with here := l.here.advance c, start := l.here, lexeme := .word [c] false } := by
  have notGap : Text.isGap c = false := by
    simp only [isWordChar, Bool.and_eq_true, Bool.not_eq_true'] at letter
    exact letter.1.1
  rw [step_code gap code, stepCode]
  simp only [notGap, notDigit, notHash, letter, if_true, if_false, false_and, Bool.false_eq_true]
  rfl

/-- Behind the letters of a name that ends there, the name is a token. -/
theorem Stands.name (h : l.Stands p ts) (name : isName cs = true) :
    ∃ l' : Lexer,
      l'.Stands (p.advanceBy cs) (⟨.word (String.ofList cs), ⟨p, p.advanceBy cs⟩⟩ :: ts) ∧
      (String.ofList cs ≠ "await" → l'.last = some (.word (String.ofList cs))) ∧
      ∀ c rest, EndsName c → l.run (cs ++ c :: rest) = l'.run (c :: rest) := by
  obtain ⟨rfl, gap, ⟨r, tame, frames⟩, free, rfl⟩ := h
  cases cs with
  | nil => exact absurd name (by simp [isName])
  | cons first cs =>
    simp only [isName, Bool.and_eq_true, Bool.not_eq_true', decide_eq_true_eq, List.all_eq_true,
      ne_eq] at name
    obtain ⟨⟨⟨letter, notDigit⟩, notHash⟩, letters⟩ := name
    have started := step_nameStart gap frames letter notDigit notHash
    have read : l.run (first :: cs) =
        { l with here := l.here.advanceBy (first :: cs), start := l.here,
                 lexeme := .word (first :: cs).reverse false } := by
      rw [run, List.foldl_cons, started]
      refine (run_word rfl letters).trans ?_
      simp
    obtain ⟨stands, last⟩ := stands_endWord (first :: cs).reverse (l := l.run (first :: cs)) tame
      (by rw [read]; exact frames) (by rw [read]; exact free)
    refine ⟨(l.run (first :: cs)).endWord (first :: cs).reverse, ?_, ?_, ?_⟩
    · rw [List.reverse_reverse] at stands
      rw [read] at stands ⊢
      exact stands
    · rw [List.reverse_reverse] at last
      exact last
    · intro c rest ends
      have step := step_word (l := l.run (first :: cs)) (by rw [read]) ends
      rw [run_append, run, List.foldl_cons, step]
      rfl

/-! ## Marks -/

theorem stands_emitMark {r : Region} (tame : r.Tame) (frames : l.frames = [.code r])
    (known : c = '*' ∨ c = '=' ∨ c = ';') (stop : Position) :
    (l.emitMark c stop).Stands l.here (⟨.mark c, ⟨l.start, stop⟩⟩ :: l.tokens) := by
  have outer (f : Region → Region) : l.mapRegion f = { l with frames := [.code (f r)] } := by
    rw [mapRegion, frames]
  have notDot : some (Token.Kind.mark c) ≠ some (.mark '.') := by
    rcases known with rfl | rfl | rfl <;> simp
  rw [emitMark, outer]
  exact ⟨rfl, rfl, ⟨_, tame.meetMark known _, rfl⟩, ⟨notDot, by simp [emit]⟩, rfl⟩

/-- A mark that is known by its one character. -/
theorem Stands.mark (h : l.Stands p ts) (known : c = '*' ∨ c = ';') :
    (l.step c).Stands (p.advance c) (⟨.mark c, ⟨p, p.advance c⟩⟩ :: ts) := by
  obtain ⟨rfl, gap, ⟨r, tame, frames⟩, free, rfl⟩ := h
  have emitted : stepCode c l = (l.begin .gap).emitMark c (l.here.advance c) := by
    rcases known with rfl | rfl <;> rfl
  have stands := stands_emitMark (l := l.begin .gap) tame frames
    (known.imp_right .inr) (l.here.advance c)
  rw [step_code gap frames, emitted]
  exact ⟨rfl, stands.lexeme, stands.frames, stands.free, stands.tokens⟩

/-- An equals sign that a blank follows. -/
theorem Stands.equals (h : l.Stands p ts) :
    (l.run ['=', ' ']).Stands (p.advanceBy ['=', ' '])
      (⟨.mark '=', ⟨p, p.advance '='⟩⟩ :: ts) := by
  obtain ⟨rfl, gap, ⟨r, tame, frames⟩, free, rfl⟩ := h
  let l' : Lexer := { l with here := l.here.advance '=', start := l.here, lexeme := .equals }
  have begun : l.step '=' = l' := by
    rw [step_code gap frames]
    rfl
  have stands : (l'.emitMark '=' l'.here).Stands (l.here.advance '=')
      (⟨.mark '=', ⟨l.here, l.here.advance '='⟩⟩ :: l.tokens) :=
    stands_emitMark (l := l') tame frames (.inr (.inl rfl)) l'.here
  have ended : l'.step ' ' = (l'.emitMark '=' l'.here).step ' ' := by
    rw [step, step, act, act, stands.lexeme, stands.here]
    rfl
  change ((l.step '=').step ' ').Stands _ _
  rw [begun, ended]
  exact stands.blank (by decide)

/-! ## Literals -/

/-- A printable character is text of a literal, and so is what comes next. -/
theorem next_of_isPrintable (printable : isPrintable c = true) :
    Passage.text.next c = some .text ∧ Passage.text.isSpoiledBy c = false := by
  simp only [isPrintable, Bool.and_eq_true, decide_eq_true_eq, ne_eq] at printable
  obtain ⟨⟨⟨⟨⟨-, escape⟩, visible⟩, -⟩, -⟩, -⟩ := printable
  have inLine : ¬(c = '\n' ∨ c = '\r') := by
    rintro (rfl | rfl) <;> exact absurd visible (by decide)
  have nonzero : c.toNat ≠ 0 := by omega
  constructor
  · simp only [Passage.next, Passage.settle, if_neg inLine, if_neg escape]
  · simp [Passage.isSpoiledBy, nonzero]

theorem stepString_of_isPrintable {quote : Char} (other : c ≠ quote)
    (printable : isPrintable c = true) :
    l.stepString quote text .text true c = l.become (.string quote (c :: text) .text true) := by
  obtain ⟨goesOn, sound⟩ := next_of_isPrintable printable
  rw [stepString, goesOn, sound]
  simp [other]

theorem run_string {quote : Char} (inside : l.lexeme = .string quote text .text true)
    (plain : ∀ c ∈ cs, c ≠ quote ∧ isPrintable c = true) :
    l.run cs = { l with here := l.here.advanceBy cs,
                        lexeme := .string quote (cs.reverse ++ text) .text true } := by
  refine run_grows (.string quote · .text true) ?_ inside plain
  intro l text c inside plain
  have goesOn : l.stepString quote text .text true c = _ :=
    stepString_of_isPrintable plain.1 plain.2
  rw [step, act, inside]
  simp only [goesOn]
  rfl

theorem step_quote {r : Region} {fs : List Frame} (gap : l.lexeme = .gap)
    (code : l.frames = .code r :: fs) (isQuote : c = '"' ∨ c = '\'') :
    l.step c =
      { l with here := l.here.advance c, start := l.here, lexeme := .string c [] .text true } := by
  rw [step_code gap code]
  rcases isQuote with rfl | rfl <;> rfl

/-- A literal in code is a token. -/
theorem run_written {r : Region} {fs : List Frame} (gap : l.lexeme = .gap)
    (code : l.frames = .code r :: fs) :
    l.run q.written =
      { l with
        here := l.here.advanceBy q.written
        start := l.here
        last := some (.string (String.ofList q.text))
        operand := true
        tokens := ⟨.string (String.ofList q.text), ⟨l.here, l.here.advanceBy q.written⟩⟩ ::
          l.tokens } := by
  have opened : (l.step q.quote).lexeme = .string q.quote [] .text true := by
    rw [step_quote gap code q.isQuote]
  have through := run_string opened q.plain
  rw [step_quote gap code q.isQuote] at through
  have closed (l' : Lexer) (inside : l'.lexeme = .string q.quote q.text.reverse .text true) :
      l'.step q.quote =
        { l'.emit (.string (String.ofList q.text)) true (l'.here.advance q.quote) with
          here := l'.here.advance q.quote } := by
    have nonzero : q.quote.toNat ≠ 0 := q.of_quotes (·.toNat ≠ 0) (by decide) (by decide)
    rw [step, act, inside]
    simp [stepString, Passage.isSpoiledBy, Passage.endsBefore, Passage.settle, nonzero]
  rw [Quoted.written, List.cons_append, run, List.foldl_cons, step_quote gap code q.isQuote,
    ← run, run_append, through, List.append_nil, run, List.foldl_cons, closed _ rfl]
  simp [emit, record, Position.advanceBy_append, gap]

theorem Stands.literal (h : l.Stands p ts) (q : Quoted) :
    (l.run q.written).Stands (p.advanceBy q.written)
      (⟨.string (String.ofList q.text), ⟨p, p.advanceBy q.written⟩⟩ :: ts) := by
  obtain ⟨rfl, gap, ⟨r, tame, frames⟩, -, rfl⟩ := h
  rw [run_written gap frames]
  exact ⟨rfl, gap, ⟨r, tame, frames⟩, ⟨nofun, nofun⟩, rfl⟩

/-! ## Literals in parentheses -/

/-- A parenthesis behind a name. -/
theorem step_opening {r : Region} {fs : List Frame} {name : String} (gap : l.lexeme = .gap)
    (code : l.frames = .code r :: fs) (last : l.last = some (.word name)) :
    l.step '(' =
      { l with
        here := l.here.advance '('
        start := l.here
        frames := .code (r.inside (.round (isControlWord name))) :: l.frames
        last := some (.opening .round)
        operand := false
        tokens := ⟨.opening .round, ⟨l.here, l.here.advance '('⟩⟩ :: l.tokens } := by
  have opened : stepCode '(' l =
      (l.begin .gap).openBracket (.round (isControlWord name)) (l.here.advance '(') := by
    change (l.begin .gap).stepPunctuation '(' (l.here.advance '(') = _
    have last' : (l.begin .gap).last = some (.word name) := last
    simp only [stepPunctuation, last']
  have region : (l.begin .gap).region = r := by
    simp only [region, begin, code]
  have outer : (l.begin .gap).mapRegion (Region.meetOpening (.round (isControlWord name))) =
      l.begin .gap := by
    simp only [mapRegion, begin, code]
    rfl
  rw [step_code gap code, opened, openBracket, region, outer]
  simp [emit, record, begin, gap, Opener.bracket]

theorem step_closing {inner r : Region} {control : Bool} {fs : List Frame} (gap : l.lexeme = .gap)
    (code : l.frames = .code inner :: .code r :: fs) (round : inner.opener = .round control) :
    l.step ')' =
      { l with
        here := l.here.advance ')'
        start := l.here
        frames := .code r :: fs
        last := some (.closing .round)
        operand := !control
        tokens := ⟨.closing .round, ⟨l.here, l.here.advance ')'⟩⟩ :: l.tokens } := by
  have closed : stepCode ')' l = (l.begin .gap).closeBracket .round (l.here.advance ')') := rfl
  have found : Frame.close? .round l.frames = some (.round control, .code r :: fs) := by
    simp [code, Frame.close?, round, Opener.bracket]
  have found' : Frame.close? .round (l.begin .gap).frames = some (.round control, .code r :: fs) :=
    found
  rw [step_code gap code, closed, closeBracket, found']
  simp [emit, record, begin, gap, Opener.endsOperand]

/-- A name with a literal in parentheses behind it. -/
theorem Stands.call (h : l.Stands p ts) (name : isName cs = true)
    (other : String.ofList cs ≠ "await") (q : Quoted) :
    let opening := p.advanceBy cs
    let start := opening.advance '('
    let closing := start.advanceBy q.written
    (l.run (cs ++ '(' :: (q.written ++ [')']))).Stands (closing.advance ')')
      (⟨.closing .round, ⟨closing, closing.advance ')'⟩⟩ ::
        ⟨.string (String.ofList q.text), ⟨start, closing⟩⟩ ::
        ⟨.opening .round, ⟨opening, start⟩⟩ ::
        ⟨.word (String.ofList cs), ⟨p, opening⟩⟩ :: ts) := by
  intro opening start closing
  obtain ⟨l', ⟨here, gap, ⟨r, tame, frames⟩, -, tokens⟩, last, run⟩ := h.name name
  rw [run '(' _ ⟨by decide, by decide⟩, Lexer.run, List.foldl_cons,
    step_opening gap frames (last other), ← Lexer.run, run_append,
    run_written (by exact gap) rfl, Lexer.run, List.foldl_cons,
    step_closing (by exact gap) (by rw [frames]) rfl]
  simp only [List.foldl_nil, here, tokens]
  exact ⟨rfl, gap, ⟨r, tame, rfl⟩, ⟨by simp, by simp⟩, rfl⟩

/-! ## Line comments -/

theorem run_lineComment (inside : l.lexeme = .lineComment text)
    (within : ∀ c ∈ cs, endsLine c = false) :
    l.run cs =
      { l with here := l.here.advanceBy cs, lexeme := .lineComment (cs.reverse ++ text) } := by
  refine run_grows .lineComment ?_ inside within
  intro l text c inside stays
  rw [step, act, inside]
  simp only [stays]
  rfl

/-- The lexer behind a line comment. -/
def endComment (text : List Char) (l : Lexer) : Lexer :=
  l.record (.comment (String.ofList text.reverse)) l.here

/-- A line comment is a token where its line ends. -/
theorem step_lineComment (inside : l.lexeme = .lineComment text) (ends : endsLine c = true) :
    l.step c = (l.endComment text).step c := by
  rw [step, act, inside]
  simp only [ends, if_true]
  rfl

/-- The lexer behind a line comment that is the first thing on its line. -/
theorem Stands.comment (h : l.Stands p ts) (inLine : ∀ c ∈ cs, endsLine c = false) :
    ∃ l' : Lexer,
      l'.Stands (p.advanceBy ('/' :: '/' :: cs))
        (⟨.comment (String.ofList ('/' :: '/' :: cs)),
          ⟨p, p.advanceBy ('/' :: '/' :: cs)⟩⟩ :: ts) ∧
      (l.run ('/' :: '/' :: cs)).finish = l' ∧
      ∀ c, endsLine c = true → (l.run ('/' :: '/' :: cs)).step c = l'.step c := by
  obtain ⟨rfl, gap, ⟨r, tame, frames⟩, free, rfl⟩ := h
  have slash : l.step '/' =
      { l with here := l.here.advance '/', start := l.here, lexeme := .slash } := by
    rw [step_code gap frames]
    rfl
  have begun : (l.step '/').step '/' =
      { l with here := (l.here.advance '/').advance '/', start := l.here,
               lexeme := .lineComment ['/', '/'] } := by
    rw [slash]
    rfl
  have read : l.run ('/' :: '/' :: cs) =
      { l with here := l.here.advanceBy ('/' :: '/' :: cs), start := l.here,
               lexeme := .lineComment (cs.reverse ++ ['/', '/']) } := by
    rw [run, List.foldl_cons, List.foldl_cons, begun]
    exact run_lineComment rfl inLine
  refine ⟨(l.run ('/' :: '/' :: cs)).endComment (cs.reverse ++ ['/', '/']), ?_, ?_, ?_⟩
  · have text : (cs.reverse ++ ['/', '/']).reverse = '/' :: '/' :: cs := by simp
    rw [read, endComment, text]
    exact ⟨rfl, rfl, ⟨r, tame, frames⟩, free, rfl⟩
  · rw [read]
    rfl
  · intro c ends
    exact step_lineComment (by rw [read]) ends

end Lexer

/-! ## Pieces -/

/-- A piece of a statement. -/
inductive Piece where
  /-- A name and a blank. -/
  | word (name : String)
  /-- A star and a blank. -/
  | star
  /-- An equals sign and a blank. -/
  | equals
  | literal (q : Quoted)
  /-- A name with a literal in parentheses. -/
  | call (name : String) (q : Quoted)
  /-- A semicolon. -/
  | stop

namespace Piece

/-- How the piece is written. -/
def text : Piece → List Char
  | .word name => name.toList ++ [' ']
  | .star => ['*', ' ']
  | .equals => ['=', ' ']
  | .literal q => q.written
  | .call name q => name.toList ++ '(' :: (q.written ++ [')'])
  | .stop => [';']

/-- The tokens of a piece that begins at a position, in order. -/
def tokens (p : Position) : Piece → List Token
  | .word name => [⟨.word name, ⟨p, p.advanceBy name.toList⟩⟩]
  | .star => [⟨.mark '*', ⟨p, p.advance '*'⟩⟩]
  | .equals => [⟨.mark '=', ⟨p, p.advance '='⟩⟩]
  | .literal q => [⟨.string (String.ofList q.text), ⟨p, p.advanceBy q.written⟩⟩]
  | .call name q =>
    let opening := p.advanceBy name.toList
    let start := opening.advance '('
    let closing := start.advanceBy q.written
    [⟨.word name, ⟨p, opening⟩⟩, ⟨.opening .round, ⟨opening, start⟩⟩,
      ⟨.string (String.ofList q.text), ⟨start, closing⟩⟩,
      ⟨.closing .round, ⟨closing, closing.advance ')'⟩⟩]
  | .stop => [⟨.mark ';', ⟨p, p.advance ';'⟩⟩]

/-- Names have the letters of names. `await` is not called. -/
def Sound : Piece → Prop
  | .word name => isName name.toList = true
  | .call name _ => isName name.toList = true ∧ name ≠ "await"
  | _ => True

end Piece

theorem Lexer.Stands.piece {l : Lexer} {p : Position} {ts : List Token} (h : l.Stands p ts)
    {piece : Piece} (sound : piece.Sound) :
    (l.run piece.text).Stands (p.advanceBy piece.text) ((piece.tokens p).reverse ++ ts) := by
  cases piece with
  | word name =>
    obtain ⟨l', stands, -, run⟩ := h.name sound
    rw [String.ofList_toList] at stands
    have behind : l.run (name.toList ++ [' ']) = l'.step ' ' := run ' ' [] ⟨by decide, by decide⟩
    rw [Piece.text, behind, Position.advanceBy_append]
    exact stands.blank (by decide)
  | star => exact (h.mark (.inl rfl)).blank (by decide)
  | equals => exact h.equals
  | literal q => exact h.literal q
  | call name q =>
    have called := h.call sound.1 (by rw [String.ofList_toList]; exact sound.2) q
    rw [String.ofList_toList] at called
    rw [Piece.text, Position.advanceBy_append, Position.advanceBy_cons, Position.advanceBy_append]
    exact called
  | stop => exact h.mark (.inr rfl)

/-! ## Lines -/

/-- What stands on a line of its own: a statement in its pieces, or a comment behind its two
slashes. -/
inductive Line where
  | statement (pieces : List Piece)
  | comment (text : List Char)

/-- The tokens of pieces of which the first begins at a position. -/
def tokensOfPieces (p : Position) : List Piece → List Token
  | [] => []
  | piece :: pieces => piece.tokens p ++ tokensOfPieces (p.advanceBy piece.text) pieces

theorem tokensOfPieces_append (p : Position) (front back : List Piece) :
    tokensOfPieces p (front ++ back) =
      tokensOfPieces p front ++ tokensOfPieces (p.advanceBy (front.flatMap Piece.text)) back := by
  induction front generalizing p with
  | nil => rfl
  | cons piece front ih =>
    rw [List.cons_append, tokensOfPieces, ih, tokensOfPieces, List.append_assoc, List.flatMap_cons,
      Position.advanceBy_append]

namespace Line

/-- How the line is written. -/
def text : Line → List Char
  | .statement pieces => pieces.flatMap Piece.text
  | .comment text => '/' :: '/' :: text

/-- The tokens of a line that begins at a position, in order. -/
def tokens (p : Position) : Line → List Token
  | .statement pieces => tokensOfPieces p pieces
  | .comment text =>
    [⟨.comment (String.ofList ('/' :: '/' :: text)), ⟨p, p.advanceBy ('/' :: '/' :: text)⟩⟩]

def Sound : Line → Prop
  | .statement pieces => ∀ piece ∈ pieces, piece.Sound
  | .comment text => ∀ c ∈ text, endsLine c = false

end Line

/-- Lines with a line feed behind each. -/
def textOfLines (lines : List Line) : List Char := lines.flatMap fun line => line.text ++ ['\n']

/-- The tokens of lines of which the first begins at a position. -/
def tokensOfLines (p : Position) : List Line → List Token
  | [] => []
  | line :: lines =>
    line.tokens p ++ tokensOfLines (p.advanceBy (line.text ++ ['\n'])) lines

namespace Lexer

variable {l : Lexer} {p : Position} {ts : List Token}

theorem Stands.pieces (h : l.Stands p ts) {pieces : List Piece}
    (sound : ∀ piece ∈ pieces, piece.Sound) :
    (l.run (pieces.flatMap Piece.text)).Stands (p.advanceBy (pieces.flatMap Piece.text))
      ((tokensOfPieces p pieces).reverse ++ ts) := by
  induction pieces generalizing l p ts with
  | nil => exact h
  | cons piece pieces ih =>
    have first := h.piece (sound piece List.mem_cons_self)
    have rest := ih first fun other member => sound other (List.mem_cons_of_mem piece member)
    rw [List.flatMap_cons, run_append, Position.advanceBy_append, tokensOfPieces,
      List.reverse_append, List.append_assoc]
    exact rest

theorem Stands.finish (h : l.Stands p ts) : l.finish = l := by
  rw [Lexer.finish, h.lexeme]

/-- At the end of a line its tokens have been found, be it the last line or not. -/
theorem Stands.line (h : l.Stands p ts) {line : Line} (sound : line.Sound) :
    (l.run line.text).finish.tokens = (line.tokens p).reverse ++ ts ∧
      (l.run (line.text ++ ['\n'])).Stands (p.advanceBy (line.text ++ ['\n']))
        ((line.tokens p).reverse ++ ts) := by
  rw [run_append, Position.advanceBy_append]
  cases line with
  | statement pieces =>
    have stands := h.pieces sound
    refine ⟨?_, stands.blank (by decide)⟩
    rw [Line.text, stands.finish]
    exact stands.tokens
  | comment text =>
    obtain ⟨l', stands, finish, step⟩ := h.comment sound
    refine ⟨finish ▸ stands.tokens, ?_⟩
    change ((l.run ('/' :: '/' :: text)).step '\n').Stands _ _
    rw [step '\n' (by decide)]
    exact stands.blank (by decide)

theorem Stands.lines (h : l.Stands p ts) {lines : List Line} (sound : ∀ line ∈ lines, line.Sound) :
    (l.run (textOfLines lines)).finish.tokens = (tokensOfLines p lines).reverse ++ ts ∧
      (l.run (textOfLines lines).dropLast).finish.tokens =
        (tokensOfLines p lines).reverse ++ ts := by
  induction lines generalizing l p ts with
  | nil =>
    have finish := h.finish ▸ h.tokens
    exact ⟨finish, finish⟩
  | cons line lines ih =>
    obtain ⟨last, behind⟩ := h.line (sound line List.mem_cons_self)
    have sound' : ∀ other ∈ lines, other.Sound :=
      fun other member => sound other (List.mem_cons_of_mem line member)
    obtain ⟨ended, unended⟩ := ih behind sound'
    have text : textOfLines (line :: lines) = (line.text ++ ['\n']) ++ textOfLines lines :=
      List.flatMap_cons
    have tokens : (tokensOfLines p (line :: lines)).reverse ++ ts =
        (tokensOfLines (p.advanceBy (line.text ++ ['\n'])) lines).reverse ++
          ((line.tokens p).reverse ++ ts) := by
      rw [tokensOfLines, List.reverse_append, List.append_assoc]
    rw [tokens, text]
    refine ⟨by rw [run_append _ (textOfLines lines), ended], ?_⟩
    cases lines with
    | nil =>
      rw [textOfLines, List.flatMap_nil, List.append_nil, List.dropLast_concat]
      exact last
    | cons next lines =>
      have more : textOfLines (next :: lines) ≠ [] := by simp [textOfLines]
      rw [List.dropLast_append_of_ne_nil more, run_append _ (textOfLines _).dropLast, unended]

end Lexer

/-- The tokens of a script that is written in lines, whether or not a line feed ends it. -/
theorem tokensOf_lines {lines : List Line} (sound : ∀ line ∈ lines, line.Sound) :
    tokensOf (textOfLines lines) = tokensOfLines .origin lines ∧
      tokensOf (textOfLines lines).dropLast = tokensOfLines .origin lines := by
  obtain ⟨ended, unended⟩ := Lexer.stands_initial.lines sound
  rw [tokensOf, tokensOf, ended, unended]
  simp

end RemoteIndex.Script
