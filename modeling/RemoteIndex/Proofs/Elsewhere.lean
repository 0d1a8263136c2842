import RemoteIndex.Script.Lexer
import RemoteIndex.Script.Statement

/-!
# Lexers and readers elsewhere

A lexer adds to the tokens it has found and does not look at them, nor does it look at the number of
the line it is in. So it reads on in the same way further down in a script and over whatever was
found earlier (`Lexer.below`), and what it finds has moved with it. A reader of statements only asks
whether two tokens stand in the same line, so that the sites it finds move with the tokens
(`Reader.lower`).
-/

namespace RemoteIndex

/-- The position, so many lines further down. -/
def Position.lower (n : Nat) (p : Position) : Position := ⟨p.line + n, p.column⟩

/-- The span, so many lines further down. -/
def Span.lower (n : Nat) (span : Span) : Span := ⟨span.start.lower n, span.stop.lower n⟩

/-- The site, so many lines further down. -/
def Site.lower (n : Nat) (site : Site) : Site := { site with span := site.span.lower n }

@[simp]
theorem Position.advance_lower (n : Nat) (p : Position) (c : Char) :
    (p.lower n).advance c = (p.advance c).lower n := by
  unfold advance
  split
  · exact congrArg (Position.mk · 0) (Nat.add_right_comm _ _ _)
  · rfl

theorem Position.advanceBy_lower (n : Nat) (p : Position) (cs : List Char) :
    (p.lower n).advanceBy cs = (p.advanceBy cs).lower n := by
  induction cs generalizing p with
  | nil => rfl
  | cons c cs ih => rw [advanceBy_cons, advanceBy_cons, advance_lower, ih]

namespace Script

/-- The token, so many lines further down. -/
def Token.lower (n : Nat) (t : Token) : Token := ⟨t.kind, t.span.lower n⟩

namespace Lexer

/-- The lexer, so many lines further down and with these tokens found before its own. -/
def below (n : Nat) (ts : List Token) (l : Lexer) : Lexer :=
  { l with
    here := l.here.lower n, start := l.start.lower n, tokens := l.tokens.map (Token.lower n) ++ ts }

variable {l : Lexer} {n : Nat} {ts : List Token} {c : Char} {stop : Position}

@[simp]
theorem here_below : (l.below n ts).here = l.here.lower n := rfl

@[simp]
theorem lexeme_below : (l.below n ts).lexeme = l.lexeme := rfl

@[simp]
theorem frames_below : (l.below n ts).frames = l.frames := rfl

@[simp]
theorem last_below : (l.below n ts).last = l.last := rfl

@[simp]
theorem operand_below : (l.below n ts).operand = l.operand := rfl

@[simp]
theorem region_below : (l.below n ts).region = l.region := rfl

@[simp]
theorem expectsType_below : (l.below n ts).expectsType = l.expectsType := rfl

@[simp]
theorem begin_below (lexeme : Lexeme) :
    (l.below n ts).begin lexeme = (l.begin lexeme).below n ts := rfl

@[simp]
theorem become_below (lexeme : Lexeme) :
    (l.below n ts).become lexeme = (l.become lexeme).below n ts := rfl

@[simp]
theorem record_below (kind : Token.Kind) :
    (l.below n ts).record kind (stop.lower n) = (l.record kind stop).below n ts := rfl

@[simp]
theorem emit_below (kind : Token.Kind) (operand : Bool) :
    (l.below n ts).emit kind operand (stop.lower n) = (l.emit kind operand stop).below n ts := rfl

@[simp]
theorem setTag_below (t : Tag) : (l.below n ts).setTag t = (l.setTag t).below n ts := rfl

@[simp]
theorem openTag_below (closing : Bool) :
    (l.below n ts).openTag closing = (l.openTag closing).below n ts := rfl

@[simp]
theorem mapRegion_below (f : Region → Region) :
    (l.below n ts).mapRegion f = (l.mapRegion f).below n ts := by
  simp only [mapRegion, frames_below]
  split <;> rfl

@[simp]
theorem endWord_below (letters : List Char) :
    (l.below n ts).endWord letters = (l.endWord letters).below n ts := by
  simp only [endWord, last_below, operand_below, here_below, mapRegion_below, emit_below]
  split <;> rfl

@[simp]
theorem emitMark_below :
    (l.below n ts).emitMark c (stop.lower n) = (l.emitMark c stop).below n ts := by
  simp only [emitMark, last_below, operand_below, mapRegion_below, emit_below]

@[simp]
theorem emitArrow_below :
    (l.below n ts).emitArrow (stop.lower n) = (l.emitArrow stop).below n ts := by
  simp only [emitArrow, mapRegion_below, emit_below]

@[simp]
theorem openBracket_below (opener : Opener) :
    (l.below n ts).openBracket opener (stop.lower n) = (l.openBracket opener stop).below n ts := by
  simp only [openBracket, region_below, mapRegion_below, emit_below]
  rfl

@[simp]
theorem closeBracket_below (b : Bracket) :
    (l.below n ts).closeBracket b (stop.lower n) = (l.closeBracket b stop).below n ts := by
  simp only [closeBracket, frames_below, emit_below]
  split <;> rfl

@[simp]
theorem endElement_below (rest : List Frame) :
    (l.below n ts).endElement rest (stop.lower n) = (l.endElement rest stop).below n ts := by
  unfold endElement
  split <;> rfl

@[simp]
theorem stepPunctuation_below :
    (l.below n ts).stepPunctuation c (stop.lower n) = (l.stepPunctuation c stop).below n ts := by
  unfold stepPunctuation
  split
  all_goals simp only [become_below, emit_below, last_below, operand_below, region_below,
    expectsType_below, frames_below, emitMark_below, mapRegion_below, openBracket_below,
    closeBracket_below]
  · rfl
  · split <;> rfl
  · split
    · rfl
    · split <;> rfl
    · rfl
  · split <;> rfl

@[simp]
theorem stepCode_below : stepCode c (l.below n ts) = (stepCode c l).below n ts := by
  simp only [stepCode, begin_below, here_below, Position.advance_lower, last_below, become_below,
    stepPunctuation_below]
  split
  · rfl
  · split
    · rfl
    · split
      · rfl
      · split <;> rfl

@[simp]
theorem stepTemplate_below : stepTemplate c (l.below n ts) = (stepTemplate c l).below n ts := by
  unfold stepTemplate
  dsimp only
  split <;> rfl

@[simp]
theorem stepInTag_below (t : Tag) :
    (l.below n ts).stepInTag t c = (l.stepInTag t c).below n ts := by
  unfold stepInTag
  simp only [begin_below, here_below, Position.advance_lower, frames_below, setTag_below,
    become_below, openBracket_below, openTag_below, endElement_below]
  split
  · rfl
  · split
    · rfl
    · split
      all_goals try rfl
      · split <;> rfl
      · split
        · rfl
        · split <;> rfl

@[simp]
theorem stepTag_below (t : Tag) : (l.below n ts).stepTag t c = (l.stepTag t c).below n ts := by
  unfold stepTag
  simp only [frames_below, stepInTag_below]
  split
  · next r rest _ =>
    split
    · exact stepCode_below (l := { l with frames := .code r :: rest, operand := true })
    · split
      · exact stepCode_below (l := { l with frames := .code r :: rest, operand := false })
      · rfl
  · rfl

@[simp]
theorem stepChildren_below : stepChildren c (l.below n ts) = (stepChildren c l).below n ts := by
  unfold stepChildren
  simp only [begin_below, here_below, Position.advance_lower, become_below, openBracket_below]
  split <;> rfl

@[simp]
theorem stepGap_below : stepGap c (l.below n ts) = (stepGap c l).below n ts := by
  unfold stepGap
  simp only [frames_below, stepTemplate_below, stepTag_below, stepChildren_below, stepCode_below]
  split <;> rfl

@[simp]
theorem stepWord_below (letters : List Char) (braced : Bool) :
    (l.below n ts).stepWord letters braced c = (l.stepWord letters braced c).below n ts := by
  simp only [stepWord, become_below, endWord_below, stepGap_below]
  split
  · rfl
  · split
    · rfl
    · split
      · rfl
      · split <;> rfl

@[simp]
theorem stepString_below (quote : Char) (inside : List Char) (passage : Passage) (sound : Bool) :
    (l.below n ts).stepString quote inside passage sound c =
      (l.stepString quote inside passage sound c).below n ts := by
  unfold stepString
  simp only [here_below, Position.advance_lower, emit_below, stepGap_below, become_below]
  split
  · rfl
  · split <;> rfl

@[simp]
theorem stepRegex_below (inClass escaped : Bool) :
    (l.below n ts).stepRegex inClass escaped c = (l.stepRegex inClass escaped c).below n ts := by
  simp only [stepRegex, here_below, Position.advance_lower, emit_below, stepGap_below, become_below]
  split
  · rfl
  · split
    · rfl
    · split
      · rfl
      · split
        · rfl
        · split
          · rfl
          · split <;> rfl

theorem act_below : (l.below n ts).act c = (l.act c).below n ts := by
  unfold act
  simp only [lexeme_below, here_below, Position.advance_lower, operand_below, frames_below,
    become_below, record_below, emit_below, emitMark_below, emitArrow_below, openTag_below,
    openBracket_below, endElement_below, beginComment, stepGap_below, stepWord_below,
    stepString_below, stepRegex_below, stepTemplate_below]
  cases l.lexeme with
  | number => dsimp only; split <;> rfl
  | lineComment text => dsimp only; split <;> rfl
  | blockComment star => dsimp only; split <;> rfl
  | silentComment interpreter => dsimp only; split <;> rfl
  | slash =>
    dsimp only
    split
    · rfl
    · split
      · rfl
      · split <;> rfl
  | less =>
    dsimp only
    split
    · rfl
    · split <;> rfl
  | markup count =>
    dsimp only
    split
    · split <;> rfl
    · rfl
  | equals => dsimp only; split <;> rfl
  | question =>
    dsimp only
    split
    · rfl
    · split <;> rfl
  | dots two =>
    dsimp only
    split
    · split <;> rfl
    · split <;> rfl
  | sign s =>
    dsimp only
    by_cases doubled : c = s
    · rw [if_pos doubled, if_pos doubled, apply_ite (below n ts)]
    · rw [if_neg doubled, if_neg doubled]
  | minusMinus => dsimp only; split <;> rfl
  | hash => dsimp only; split <;> rfl
  | templateDollar => dsimp only; split <;> rfl
  | tagSlash =>
    dsimp only
    split
    · rfl
    · split
      · rfl
      · split <;> rfl
  | tagString quote => dsimp only; split <;> rfl
  | childLess => dsimp only; split <;> rfl
  | childEquals => dsimp only; split <;> rfl
  | _ => rfl

theorem step_below : (l.below n ts).step c = (l.step c).below n ts := by
  rw [step, step, act_below, here_below, Position.advance_lower]
  rfl

theorem run_below (cs : List Char) : (l.below n ts).run cs = (l.run cs).below n ts := by
  induction cs generalizing l with
  | nil => rfl
  | cons c cs ih =>
    rw [run, List.foldl_cons, step_below]
    exact ih

theorem finish_below : (l.below n ts).finish = l.finish.below n ts := by
  unfold finish
  simp only [lexeme_below, endWord_below, record_below, here_below]
  split <;> rfl

theorem tokens_run_below (cs : List Char) :
    ((l.below n ts).run cs).finish.tokens =
      (l.run cs).finish.tokens.map (Token.lower n) ++ ts := by
  rw [run_below, finish_below]
  rfl

end Lexer

/-- Between two lexemes it does not count where one began. -/
theorem Lexer.tokens_run_initial (here start : Position) (cs : List Char) :
    ({ initial with here := here, start := start }.run cs).finish.tokens =
      ({ initial with here := here, start := here }.run cs).finish.tokens := by
  cases cs with
  | nil => rfl
  | cons c cs => rfl

theorem tokensOf_newline (cs : List Char) :
    tokensOf ('\n' :: cs) = (tokensOf cs).map (Token.lower 1) := by
  -- The line feed is read as a gap, and a gap is the one lexeme whose beginning does not count.
  have begun : (Lexer.initial.below 1 []) =
      { Lexer.initial with here := ⟨1, 0⟩, start := ⟨1, 0⟩ } := rfl
  have read : Lexer.initial.step '\n' =
      { Lexer.initial with here := ⟨1, 0⟩, start := ⟨0, 0⟩ } := rfl
  rw [tokensOf, tokensOf, Lexer.run, List.foldl_cons, read, ← Lexer.run,
    Lexer.tokens_run_initial, ← begun, Lexer.tokens_run_below, List.append_nil, List.map_reverse]

theorem tokensOf_newlines (n : Nat) (cs : List Char) :
    tokensOf (List.replicate n '\n' ++ cs) = (tokensOf cs).map (Token.lower n) := by
  induction n with
  | zero => exact (List.map_id _).symm
  | succ n ih =>
    rw [List.replicate_succ, List.cons_append, tokensOf_newline, ih, List.map_map]
    rfl

/-! ## Readers -/

section

variable {n : Nat} {r : Reader} {c : Clause} {b : Bracket}

/-- The argument, so many lines further down. -/
def Argument.lower (n : Nat) : Argument → Argument
  | .empty => .empty
  | .literal site => .literal (site.lower n)
  | .other => .other

/-- The argument list, so many lines further down. -/
def Call.lower (n : Nat) (call : Call) : Call :=
  ⟨call.sites.map (Site.lower n), call.argument.lower n⟩

/-- The bracket, so many lines further down. -/
def Group.lower (n : Nat) (g : Group) : Group := ⟨g.bracket, g.call.map (Call.lower n)⟩

/-- The clause, so many lines further down. -/
def Clause.lower (n : Nat) : Clause → Clause
  | .requireText site => .requireText (site.lower n)
  | .exportText site => .exportText (site.lower n)
  | c => c

/-- The reader, so many lines further down. -/
def Reader.lower (n : Nat) (r : Reader) : Reader :=
  ⟨r.clause.lower n, r.groups.map (Group.lower n), r.member, r.sites.map (Site.lower n)⟩

namespace Call

theorem lower_meetLiteral (site : Site) (call : Call) :
    (call.meetLiteral site).lower n = (call.lower n).meetLiteral (site.lower n) := by
  obtain ⟨sites, argument⟩ := call
  cases argument <;> rfl

theorem lower_meetOther (call : Call) : call.meetOther.lower n = (call.lower n).meetOther := rfl

theorem lower_endArgument (call : Call) :
    call.endArgument.lower n = (call.lower n).endArgument := by
  obtain ⟨sites, argument⟩ := call
  cases argument <;> rfl

end Call

theorem Clause.awaitsLiteral_lower : (c.lower n).awaitsLiteral = c.awaitsLiteral := by
  cases c <;> rfl

theorem Clause.lower_eq_exportHead : c.lower n = .exportHead ↔ c = .exportHead := by
  cases c <;> simp [lower]

namespace Reader

theorem clause_lower : (r.lower n).clause = r.clause.lower n := rfl

theorem lower_goto : (r.goto c).lower n = (r.lower n).goto (c.lower n) := rfl

theorem lower_found (site : Site) :
    (r.found site).lower n = (r.lower n).found (site.lower n) := rfl

theorem lower_mapCall {f g : Call → Call} (same : ∀ call, (f call).lower n = g (call.lower n)) :
    (r.mapCall f).lower n = (r.lower n).mapCall g := by
  obtain ⟨clause, _ | ⟨⟨b, _ | call⟩, groups⟩, member, sites⟩ := r
  · rfl
  · rfl
  · simp [mapCall, lower, Group.lower, same]

theorem lower_dropCall : r.dropCall.lower n = (r.lower n).dropCall := by
  obtain ⟨clause, _ | ⟨⟨b, _ | call⟩, groups⟩, member, sites⟩ := r <;> rfl

theorem close?_lower (groups : List Group) :
    close? b (groups.map (Group.lower n)) =
      (close? b groups).map fun (g, rest) => (g.lower n, rest.map (Group.lower n)) := by
  induction groups with
  | nil => rfl
  | cons g groups ih =>
    have bracket : (g.lower n).bracket = g.bracket := rfl
    rw [List.map_cons, close?, close?, bracket, ih]
    split
    · rfl
    · split <;> rfl

theorem lower_pop : (r.pop b).lower n = (r.lower n).pop b := by
  have closed : close? b (r.lower n).groups = _ := close?_lower r.groups
  rw [pop, pop, closed]
  cases close? b r.groups with
  | none => rfl
  | some found =>
    obtain ⟨⟨b, _ | call⟩, rest⟩ := found
    · rfl
    · have ended : call.endArgument.sites.map (Site.lower n) = (call.lower n).endArgument.sites :=
        congrArg Call.sites (Call.lower_endArgument call)
      simpa [lower, Group.lower] using ended

theorem lower_startWord (name : String) :
    (r.startWord name).lower n = (r.lower n).startWord name := by
  have member : (r.lower n).member = r.member := rfl
  have head : decide ((r.lower n).clause = .exportHead) = decide (r.clause = .exportHead) :=
    decide_eq_decide.mpr Clause.lower_eq_exportHead
  simp only [startWord, member, head, apply_ite (lower n), lower_goto, Clause.lower]

theorem lower_meetWord (name : String) (start : Position) :
    (r.meetWord name start).lower n = (r.lower n).meetWord name (start.lower n) := by
  have sameLine (site : Site) :
      (start.lower n).line = (site.lower n).span.stop.line ↔ start.line = site.span.stop.line :=
    Nat.add_right_cancel_iff
  -- Nowhere else does a reader ask for a line, and here it asks for two.
  rw [meetWord, meetWord, clause_lower]
  cases r.clause <;>
    simp only [Clause.lower, apply_ite (lower n), lower_startWord, lower_goto, lower_found,
      sameLine]

theorem lower_meetString (text : String) (span : Span) :
    (r.meetString text span).lower n = (r.lower n).meetString text (span.lower n) := by
  rw [meetString, meetString, clause_lower]
  cases r.clause <;> rfl

theorem lower_meetMark (mark : Char) : (r.meetMark mark).lower n = (r.lower n).meetMark mark := by
  rw [meetMark, meetMark, clause_lower]
  cases r.clause <;> simp only [Clause.lower, apply_ite (lower n), lower_goto, lower_found]

theorem lower_meetOpening : (r.meetOpening b).lower n = (r.lower n).meetOpening b := by
  unfold meetOpening
  rw [clause_lower]
  cases r.clause with
  | typeArguments depth => cases depth <;> cases b <;> rfl
  | _ => cases b <;> rfl

theorem lower_meetClosing : (r.meetClosing b).lower n = (r.lower n).meetClosing b := by
  unfold meetClosing
  rw [clause_lower]
  cases r.clause with
  | typeArguments depth => cases depth <;> cases b <;> exact lower_pop
  | _ => cases b <;> exact lower_pop

theorem lower_meetOther (chain : Bool) :
    (r.meetOther chain).lower n = (r.lower n).meetOther chain := by
  rw [meetOther, meetOther, clause_lower]
  cases r.clause <;> simp only [Clause.lower, apply_ite (lower n), lower_goto, lower_found]

theorem lower_argue (t : Token) : (r.argue t).lower n = (r.lower n).argue (t.lower n) := by
  have other : (r.mapCall Call.meetOther).lower n = (r.lower n).mapCall Call.meetOther :=
    lower_mapCall Call.lower_meetOther
  obtain ⟨kind, span⟩ := t
  rw [argue, argue, clause_lower, Clause.awaitsLiteral_lower]
  dsimp only [Token.lower]
  split
  · rw [apply_ite (lower n), other, lower_mapCall (Call.lower_meetLiteral _)]
    rfl
  · exact lower_mapCall Call.lower_endArgument
  · exact lower_dropCall
  · rfl
  · rfl
  · exact other

theorem lower_proceed (t : Token) : (r.proceed t).lower n = (r.lower n).proceed (t.lower n) := by
  have member {r r' : Reader} (asks : Bool) (same : r.lower n = r') :
      { r with member := asks }.lower n = { r' with member := asks } :=
    congrArg (fun r => { r with member := asks }) same
  obtain ⟨kind, span⟩ := t
  cases kind with
  | word name => exact member false (lower_meetWord name span.start)
  | string text => exact member false (lower_meetString text span)
  | mark c => exact member _ (lower_meetMark c)
  | opening b => exact member false lower_meetOpening
  | closing b => exact member false lower_meetClosing
  | chain => exact member true (lower_meetOther true)
  | comment text => rfl
  | _ => exact member false (lower_meetOther false)

/-- A reader further down reads in the same way. -/
theorem lower_step (t : Token) : (r.step t).lower n = (r.lower n).step (t.lower n) := by
  rw [step, step, lower_proceed, lower_argue]

theorem lower_foldl (ts : List Token) :
    (ts.foldl step r).lower n = (ts.map (Token.lower n)).foldl step (r.lower n) := by
  induction ts generalizing r with
  | nil => rfl
  | cons t ts ih => rw [List.foldl_cons, ih, lower_step, List.map_cons, List.foldl_cons]

theorem finish_lower : (r.lower n).finish = r.finish.map (Site.lower n) := by
  obtain ⟨clause, groups, member, sites⟩ := r
  cases clause <;> rfl

end Reader

theorem statementSites_lower (ts : List Token) :
    statementSites (ts.map (Token.lower n)) = (statementSites ts).map (Site.lower n) := by
  rw [statementSites, statementSites, ← Reader.finish_lower, Reader.lower_foldl]
  rfl

end

end Script

end RemoteIndex
