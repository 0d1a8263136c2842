import RemoteIndex.Proofs.Offsets
import RemoteIndex.Proofs.Positions
import RemoteIndex.Script.Lexer

/-!
# The layout of tokens

The tokens of a script stand in it one behind the other, and a string literal or a comment tells
what is written where it stands. The invariant that carries this through the text is
`Lexer.Sound`: it says of the lexeme that is being read where it began and what has been read of it.
-/

namespace RemoteIndex

open Position (origin advanceBy_append advanceBy_concat)

namespace Script

/-- What is written where a token of the kind stands. Most kinds of tokens do not tell. -/
def Token.Kind.Spells : Token.Kind → List Char → Prop
  | .string text, part =>
    ∃ quote, (quote = '"' ∨ quote = '\'') ∧ part = quote :: (text.toList ++ [quote])
  | .fragment text, part =>
    ∃ quote rest, (quote = '"' ∨ quote = '\'') ∧ part = quote :: (text.toList ++ rest)
  | .comment text, part => part = text.toList ∧ '\n' ∉ part
  | _, _ => True

/-- A token of the kind does not tell what is written. -/
def Token.Kind.Plain : Token.Kind → Prop
  | .string _ => False
  | .fragment _ => False
  | .comment _ => False
  | _ => True

theorem Token.Kind.Plain.spells {kind : Token.Kind} (h : kind.Plain) (part : List Char) :
    kind.Spells part := by
  cases kind with
  | string text => exact h.elim
  | fragment text => exact h.elim
  | comment text => exact h.elim
  | _ => trivial

/-- The tokens, the latest first, stand one behind the other in a text. -/
inductive Lays : List Token → List Char → Prop
  | start : Lays [] []
  | behind {tokens : List Token} {before part : List Char} {kind : Token.Kind} :
      Lays tokens before → part ≠ [] → kind.Spells part →
      Lays (⟨kind, ⟨origin.advanceBy before, origin.advanceBy (before ++ part)⟩⟩ :: tokens)
        (before ++ part)
  | more {tokens : List Token} {read : List Char} :
      Lays tokens read → (after : List Char) → Lays tokens (read ++ after)

/-- What has been read of a lexeme. -/
def Lexeme.Holds : Lexeme → List Char → Prop
  | .gap, _ => False
  | .string quote inside _ _, part =>
    (quote = '"' ∨ quote = '\'') ∧ part = quote :: inside.reverse
  | .lineComment text, part => part = text.reverse ∧ text ≠ [] ∧ '\n' ∉ text
  | .slash, part => part = ['/']
  | .tagSlash, part => part = ['/']
  | _, part => part ≠ []

/-- Nothing is kept of what has been read of the lexeme. -/
def Lexeme.Bare : Lexeme → Prop
  | .gap => False
  | .string _ _ _ _ => False
  | .lineComment _ => False
  | .slash => False
  | .tagSlash => False
  | _ => True

theorem Lexeme.Bare.holds {lexeme : Lexeme} {part : List Char} (h : lexeme.Bare)
    (nonempty : part ≠ []) : lexeme.Holds part := by
  cases lexeme with
  | gap => exact h.elim
  | string quote inside passage sound => exact h.elim
  | lineComment text => exact h.elim
  | slash => exact h.elim
  | tagSlash => exact h.elim
  | _ => exact nonempty

theorem Lexeme.Holds.ne_nil {lexeme : Lexeme} {part : List Char} (h : lexeme.Holds part) :
    part ≠ [] := by
  cases lexeme with
  | gap => exact h.elim
  | string quote inside passage sound => simp [h.2]
  | lineComment text => simpa [h.1] using h.2.1
  | slash => simp [show part = ['/'] from h]
  | tagSlash => simp [show part = ['/'] from h]
  | _ => exact h

namespace Lexer

variable {l l' : Lexer} {read before part : List Char} {c : Char} {stop : Position}

/-- The lexer has found the tokens of the text that it has read, and may be in the middle of another
lexeme. -/
inductive Sound (l : Lexer) : List Char → Prop
  | between {read : List Char} : l.lexeme = .gap → Lays l.tokens read → l.Sound read
  | within {before part : List Char} : Lays l.tokens before → l.start = origin.advanceBy before →
      l.lexeme.Holds part → l.Sound (before ++ part)

/-- The lexer stands between two lexemes, behind the text. -/
structure Between (l : Lexer) (read : List Char) : Prop where
  here : l.here = origin.advanceBy read
  tokens : Lays l.tokens read

/-- The lexer stands within a lexeme, `before` it and behind `part` of it. -/
structure Within (l : Lexer) (before part : List Char) : Prop where
  here : l.here = origin.advanceBy (before ++ part)
  start : l.start = origin.advanceBy before
  tokens : Lays l.tokens before
  nonempty : part ≠ []

/-! ## Recording tokens -/

/-- The lexer `l'` is `l` after its lexeme, and it has recorded a plain token or none. -/
structure Settles (l : Lexer) (stop : Position) (l' : Lexer) : Prop where
  here : l'.here = l.here
  lexeme : l'.lexeme = .gap
  tokens : l'.tokens = l.tokens ∨
    ∃ kind, kind.Plain ∧ l'.tokens = ⟨kind, ⟨l.start, stop⟩⟩ :: l.tokens

theorem mapRegion_fields (f : Region → Region) (l : Lexer) :
    (l.mapRegion f).here = l.here ∧ (l.mapRegion f).start = l.start ∧
      (l.mapRegion f).tokens = l.tokens := by
  rw [mapRegion]
  split <;> exact ⟨rfl, rfl, rfl⟩

theorem Settles.frames (h : l.Settles stop l') (frames : List Frame) :
    l.Settles stop { l' with frames := frames } := ⟨h.here, h.lexeme, h.tokens⟩

theorem Settles.last (h : l.Settles stop l') (last : Option Token.Kind) :
    l.Settles stop { l' with last := last } := ⟨h.here, h.lexeme, h.tokens⟩

theorem Settles.of_mapRegion {f : Region → Region} (h : (l.mapRegion f).Settles stop l') :
    l.Settles stop l' := by
  obtain ⟨here, start, tokens⟩ := mapRegion_fields f l
  refine ⟨h.here.trans here, h.lexeme, ?_⟩
  rw [← tokens, ← start]
  exact h.tokens

theorem settles_emit (kind : Token.Kind) (operand : Bool) (stop : Position) (l : Lexer)
    (plain : kind.Plain) : l.Settles stop (l.emit kind operand stop) :=
  ⟨rfl, rfl, .inr ⟨kind, plain, rfl⟩⟩

theorem settles_emitMark (c : Char) (stop : Position) (l : Lexer) :
    l.Settles stop (l.emitMark c stop) :=
  .of_mapRegion (settles_emit _ _ _ _ (by trivial))

theorem settles_emitArrow (stop : Position) (l : Lexer) : l.Settles stop (l.emitArrow stop) :=
  .of_mapRegion (settles_emit _ _ _ _ (by trivial))

theorem settles_openBracket (opener : Opener) (stop : Position) (l : Lexer) :
    l.Settles stop (l.openBracket opener stop) :=
  .frames (.of_mapRegion (settles_emit _ _ _ _ (by trivial))) _

theorem settles_closeBracket (b : Bracket) (stop : Position) (l : Lexer) :
    l.Settles stop (l.closeBracket b stop) := by
  rw [closeBracket]
  split
  · exact (settles_emit _ _ _ _ (by trivial)).frames _
  · exact settles_emit _ _ _ _ (by trivial)

theorem settles_endWord (letters : List Char) (l : Lexer) :
    l.Settles l.here (l.endWord letters) := by
  rw [endWord]
  dsimp only
  split
  · exact (settles_emit _ _ _ _ (by trivial)).last _
  · exact .of_mapRegion ((settles_emit _ _ _ _ (by trivial)).last _)

theorem settles_setTag (t : Tag) (stop : Position) (l : Lexer) : l.Settles stop (l.setTag t) :=
  ⟨rfl, rfl, .inl rfl⟩

theorem settles_openTag (closing : Bool) (stop : Position) (l : Lexer) :
    l.Settles stop (l.openTag closing) :=
  ⟨rfl, rfl, .inl rfl⟩

theorem settles_endElement (rest : List Frame) (stop : Position) (l : Lexer) :
    l.Settles stop (l.endElement rest stop) := by
  unfold endElement
  split
  · exact (settles_emit _ _ _ _ (by trivial)).frames _
  · exact ⟨rfl, rfl, .inl rfl⟩

/-! ## Between two lexemes -/

/-- What settles from a lexer whose lexeme is `part` leaves the tokens laid out behind it. -/
theorem Settles.lays (settled : l.Settles stop l') (tokens : Lays l.tokens before)
    (start : l.start = origin.advanceBy before) (nonempty : part ≠ [])
    (behind : stop = origin.advanceBy (before ++ part)) : Lays l'.tokens (before ++ part) := by
  rcases settled.tokens with same | ⟨kind, plain, recorded⟩
  · rw [same]
    exact tokens.more part
  · rw [recorded, start, behind]
    exact .behind tokens nonempty (plain.spells part)

theorem Between.pass (h : l.Between read) (c : Char) : (l.begin .gap).Sound (read ++ [c]) :=
  .between rfl (h.tokens.more [c])

theorem Between.begins {lexeme : Lexeme} (h : l.Between read) (holds : lexeme.Holds [c]) :
    ((l.begin .gap).become lexeme).Sound (read ++ [c]) :=
  .within h.tokens h.here holds

theorem Between.begins_bare {lexeme : Lexeme} (h : l.Between read) (bare : lexeme.Bare) :
    ((l.begin .gap).become lexeme).Sound (read ++ [c]) :=
  h.begins (bare.holds (List.cons_ne_nil _ _))

theorem Between.settles (h : l.Between read)
    (settled : (l.begin .gap).Settles (l.here.advance c) l') : l'.Sound (read ++ [c]) :=
  .between settled.lexeme <|
    settled.lays h.tokens h.here (List.cons_ne_nil _ _) (by rw [h.here, advanceBy_concat])

theorem Between.stepPunctuation (h : l.Between read) :
    ((l.begin .gap).stepPunctuation c (l.here.advance c)).Sound (read ++ [c]) := by
  unfold Lexer.stepPunctuation
  split
  · exact h.begins ⟨.inl rfl, rfl⟩
  · exact h.begins ⟨.inr rfl, rfl⟩
  · exact h.settles ((settles_emit _ _ _ _ (by trivial)).frames _)
  · exact h.begins (by rfl)
  · split
    · exact h.settles (settles_emitMark _ _ _)
    · exact h.begins_bare (by trivial)
  · exact h.begins_bare (by trivial)
  · exact h.begins_bare (by trivial)
  · exact h.begins_bare (by trivial)
  · exact h.begins_bare (by trivial)
  · exact h.begins_bare (by trivial)
  · split
    · exact h.settles (settles_openBracket _ _ _)
    · split
      · exact h.settles (.of_mapRegion (settles_openBracket _ _ _))
      · exact h.settles (settles_openBracket _ _ _)
    · exact h.settles (settles_openBracket _ _ _)
  · exact h.settles (settles_openBracket _ _ _)
  · exact h.settles (settles_openBracket _ _ _)
  · exact h.settles (settles_closeBracket _ _ _)
  · exact h.settles (settles_closeBracket _ _ _)
  · exact h.settles (settles_closeBracket _ _ _)
  · split
    · exact h.settles (settles_emitMark _ _ _)
    · exact h.pass c

theorem Between.stepCode (h : l.Between read) : (Lexer.stepCode c l).Sound (read ++ [c]) := by
  unfold Lexer.stepCode
  dsimp only
  split
  · exact h.pass c
  · split
    · exact h.begins_bare (by trivial)
    · split
      · exact h.begins_bare (by trivial)
      · split
        · exact h.begins_bare (by trivial)
        · exact h.stepPunctuation

theorem Between.stepTemplate (h : l.Between read) :
    (Lexer.stepTemplate c l).Sound (read ++ [c]) := by
  unfold Lexer.stepTemplate
  dsimp only
  split
  · exact h.settles ((settles_emit _ _ _ _ (by trivial)).frames _)
  · exact h.begins_bare (by trivial)
  · exact h.begins_bare (by trivial)
  · exact h.pass c

/-- What settles from a lexer on which only the frames have changed. -/
theorem Between.behind_setTag (h : l.Between read) {t : Tag}
    (settled : ((l.begin .gap).setTag t).Settles (l.here.advance c) l') :
    l'.Sound (read ++ [c]) :=
  h.settles ⟨settled.here, settled.lexeme, settled.tokens⟩

theorem Between.stepInTag (h : l.Between read) (t : Tag) :
    (l.stepInTag t c).Sound (read ++ [c]) := by
  unfold Lexer.stepInTag
  dsimp only
  split
  · exact h.settles (settles_setTag _ _ _)
  · split
    · exact h.settles (settles_setTag _ _ _)
    · split
      · exact .within h.tokens h.here (List.cons_ne_nil _ _)
      · exact .within h.tokens h.here (List.cons_ne_nil _ _)
      · exact .within h.tokens h.here (by rfl)
      · exact h.behind_setTag (settles_openBracket _ _ _)
      · split
        · exact h.behind_setTag (settles_openTag _ _ _)
        · exact h.settles (settles_setTag _ _ _)
      · split
        · exact h.settles (settles_setTag _ _ _)
        · split
          · exact h.settles (settles_endElement _ _ _)
          · exact .between rfl (h.tokens.more _)
      · exact h.settles (settles_setTag _ _ _)
      · exact h.pass _
      · exact h.pass _
      · exact h.pass _
      · exact h.settles (settles_setTag _ _ _)

theorem Between.stepTag (h : l.Between read) (t : Tag) : (l.stepTag t c).Sound (read ++ [c]) := by
  unfold Lexer.stepTag
  split
  · split
    · exact Between.stepCode ⟨h.here, h.tokens⟩
    · split
      · exact Between.stepCode ⟨h.here, h.tokens⟩
      · exact h.stepInTag t
  · exact h.stepInTag t

theorem Between.stepChildren (h : l.Between read) :
    (Lexer.stepChildren c l).Sound (read ++ [c]) := by
  unfold Lexer.stepChildren
  dsimp only
  split
  · exact h.settles (settles_openBracket _ _ _)
  · exact h.begins_bare (by trivial)
  · exact h.begins_bare (by trivial)
  · exact h.pass c

theorem Between.stepGap (h : l.Between read) : (Lexer.stepGap c l).Sound (read ++ [c]) := by
  unfold Lexer.stepGap
  split
  · exact h.stepTemplate
  · exact h.stepTag _
  · exact h.stepChildren
  · exact h.stepCode

/-! ## Within a lexeme -/

theorem Within.goesOn {lexeme : Lexeme} (h : l.Within before part)
    (holds : lexeme.Holds (part ++ [c])) : (l.become lexeme).Sound (before ++ part ++ [c]) := by
  rw [List.append_assoc]
  exact .within h.tokens h.start holds

theorem Within.goesOn_bare {lexeme : Lexeme} (h : l.Within before part) (bare : lexeme.Bare) :
    (l.become lexeme).Sound (before ++ part ++ [c]) :=
  h.goesOn (bare.holds (by simp))

theorem Within.stays (h : l.Within before part) (bare : l.lexeme.Bare) :
    l.Sound (before ++ part ++ [c]) := by
  rw [List.append_assoc]
  exact .within h.tokens h.start (bare.holds (by simp))

theorem Within.leaves (h : l.Within before part) :
    (l.become .gap).Sound (before ++ part ++ [c]) :=
  .between rfl ((h.tokens.more part).more [c])

/-- A token that ends with the present character. -/
theorem Within.emits {kind : Token.Kind} (operand : Bool) (h : l.Within before part)
    (spells : kind.Spells (part ++ [c])) :
    (l.emit kind operand (l.here.advance c)).Sound (before ++ part ++ [c]) := by
  have stop : l.here.advance c = origin.advanceBy (before ++ (part ++ [c])) := by
    rw [h.here, ← advanceBy_concat, List.append_assoc]
  refine .between rfl ?_
  rw [List.append_assoc]
  have laid := Lays.behind h.tokens (by simp) spells
  rwa [← h.start, ← stop] at laid

/-- A token that ends before the present character. -/
theorem Within.recorded {kind : Token.Kind} (h : l.Within before part)
    (spells : kind.Spells part) : (l.record kind l.here).Between (before ++ part) := by
  refine ⟨h.here, ?_⟩
  have laid := Lays.behind h.tokens h.nonempty spells
  rwa [← h.start, ← h.here] at laid

/-- To emit a token is to record it, as far as the layout goes. -/
theorem Between.emit {kind : Token.Kind} (h : (l.record kind stop).Between read) (operand : Bool) :
    (l.emit kind operand stop).Between read := ⟨h.here, h.tokens⟩

theorem Within.settles (h : l.Within before part) (settled : l.Settles (l.here.advance c) l') :
    l'.Sound (before ++ part ++ [c]) := by
  rw [List.append_assoc]
  refine .between settled.lexeme (settled.lays h.tokens h.start (by simp) ?_)
  rw [h.here, ← advanceBy_concat, List.append_assoc]

theorem Within.between (h : l.Within before part) (settled : l.Settles l.here l') :
    l'.Between (before ++ part) :=
  ⟨settled.here.trans h.here, settled.lays h.tokens h.start h.nonempty h.here⟩

theorem Within.stepWord (h : l.Within before part) (letters : List Char) (braced : Bool) :
    (l.stepWord letters braced c).Sound (before ++ part ++ [c]) := by
  unfold Lexer.stepWord
  split
  · exact h.goesOn_bare (by trivial)
  · split
    · exact h.goesOn_bare (by trivial)
    · split
      · exact h.goesOn_bare (by trivial)
      · split
        · exact h.goesOn_bare (by trivial)
        · exact (h.between (settles_endWord letters l)).stepGap

theorem Within.stepString {quote : Char} {inside : List Char} (h : l.Within before part)
    (holds : (quote = '"' ∨ quote = '\'') ∧ part = quote :: inside.reverse) (passage : Passage)
    (sound : Bool) : (l.stepString quote inside passage sound c).Sound (before ++ part ++ [c]) := by
  obtain ⟨isQuote, rfl⟩ := holds
  unfold Lexer.stepString
  dsimp only
  split
  · next closes =>
    obtain rfl : c = quote := by
      rw [Bool.and_eq_true, decide_eq_true_eq] at closes
      exact closes.1
    refine h.emits true ?_
    split
    · exact ⟨c, isQuote, by simp⟩
    · exact ⟨c, [c], isQuote, by simp⟩
  · split
    · exact h.goesOn ⟨isQuote, by simp⟩
    · refine (Between.emit (h.recorded ?_) _).stepGap
      exact ⟨quote, [], isQuote, by simp⟩

theorem Within.stepRegex (h : l.Within before part) (inClass escaped : Bool) :
    (l.stepRegex inClass escaped c).Sound (before ++ part ++ [c]) := by
  unfold Lexer.stepRegex
  split
  · exact (h.between (settles_emit _ _ _ _ (by trivial))).stepGap
  · split
    · exact h.goesOn_bare (by trivial)
    · split
      · exact h.goesOn_bare (by trivial)
      · split
        · exact h.goesOn_bare (by trivial)
        · split
          · exact h.goesOn_bare (by trivial)
          · split
            · exact h.settles (settles_emit _ _ _ _ (by trivial))
            · exact h.goesOn_bare (by trivial)

theorem Within.beginComment (h : l.Within before ['/']) :
    l.beginComment.Sound (before ++ ['/'] ++ ['/']) :=
  h.goesOn ⟨rfl, by simp, by decide⟩

/-! ## Reading a script -/

theorem Within.act (h : l.Within before part) (holds : l.lexeme.Holds part) :
    (Lexer.act c l).Sound (before ++ part ++ [c]) := by
  -- Where the character belongs to the next lexeme, the present one is recorded without it.
  have plainly (kind : Token.Kind) (operand : Bool) (plain : kind.Plain) :
      (l.emit kind operand l.here).Between (before ++ part) :=
    h.between (settles_emit kind operand l.here l plain)
  have mark (m : Char) : (l.emitMark m l.here).Between (before ++ part) :=
    h.between (settles_emitMark m l.here l)
  unfold Lexer.act
  generalize lexeme : l.lexeme = current at holds
  cases current with
  | gap => exact holds.elim
  | word letters braced => exact h.stepWord letters braced
  | number =>
    dsimp only
    split
    · exact h.stays (by rw [lexeme]; trivial)
    · exact (plainly _ _ (by trivial)).stepGap
  | string quote inside passage sound => exact h.stepString holds passage sound
  | lineComment text =>
    obtain ⟨rfl, -, line⟩ := holds
    dsimp only
    split
    · refine Between.stepGap (h.recorded ?_)
      exact ⟨by simp, by simpa using line⟩
    · next goesOn =>
      have inLine : c ≠ '\n' := by
        rintro rfl
        exact goesOn (by decide)
      exact h.goesOn ⟨by simp, by simp, by simp [line, inLine.symm]⟩
  | blockComment star =>
    dsimp only
    split
    · exact h.leaves
    · exact h.goesOn_bare (by trivial)
  | silentComment interpreter =>
    dsimp only
    split
    · exact Between.stepGap ⟨h.here, h.tokens.more part⟩
    · exact h.stays (by rw [lexeme]; trivial)
  | regex inClass escaped => exact h.stepRegex inClass escaped
  | slash =>
    obtain rfl : part = ['/'] := holds
    dsimp only
    split
    · next slash => exact slash ▸ h.beginComment
    · split
      · exact h.goesOn_bare (by trivial)
      · split
        · exact (mark _).stepGap
        · exact h.stepRegex false false
  | less =>
    dsimp only
    split
    · exact h.goesOn_bare (by trivial)
    · split
      · have settled := settles_emit .operand true l.here l (by trivial)
        exact Between.stepGap (h.between ⟨rfl, rfl, settled.tokens⟩)
      · exact (mark _).stepGap
  | markup count =>
    dsimp only
    split
    · split <;> exact h.goesOn_bare (by trivial)
    · exact (mark _).stepGap
  | equals =>
    dsimp only
    split
    · exact h.settles (settles_emitArrow _ _)
    · exact (mark _).stepGap
  | question =>
    dsimp only
    split
    · exact h.settles (settles_emit _ _ _ _ (by trivial))
    · split
      · exact h.settles (settles_emit _ _ _ _ (by trivial))
      · exact (mark _).stepGap
  | dots two =>
    dsimp only
    split
    · split
      · exact h.settles (settles_emit _ _ _ _ (by trivial))
      · exact h.goesOn_bare (by trivial)
    · split
      · exact h.goesOn_bare (by trivial)
      · exact (mark _).stepGap
  | sign s =>
    dsimp only
    split
    · split
      · exact h.goesOn_bare (by trivial)
      · exact h.settles (settles_emit _ _ _ _ (by trivial))
    · exact (mark _).stepGap
  | minusMinus =>
    dsimp only
    split
    · exact h.goesOn_bare (by trivial)
    · exact (plainly _ _ (by trivial)).stepGap
  | hash =>
    dsimp only
    split
    · exact h.goesOn_bare (by trivial)
    · exact h.stepWord ['#'] false
  | templateEscape => exact h.leaves
  | templateDollar =>
    dsimp only
    split
    · exact h.settles (settles_openBracket _ _ _)
    · exact Between.stepTemplate ⟨h.here, h.tokens.more part⟩
  | tagSlash =>
    obtain rfl : part = ['/'] := holds
    dsimp only
    split
    · exact h.settles (settles_endElement _ _ _)
    · split
      · next slash => exact slash ▸ h.beginComment
      · split
        · exact h.goesOn_bare (by trivial)
        · exact Between.stepGap ⟨h.here, h.tokens.more ['/']⟩
  | tagString quote =>
    dsimp only
    split
    · exact h.leaves
    · exact h.stays (by rw [lexeme]; trivial)
  | childLess =>
    dsimp only
    split
    · exact h.settles (settles_openTag _ _ _)
    · exact Between.stepGap ⟨h.here, h.tokens.more part⟩
  | childEquals =>
    dsimp only
    split
    · exact h.settles ((settles_emitArrow _ _).frames _)
    · exact Between.stepGap ⟨h.here, h.tokens.more part⟩

theorem Sound.act (h : l.Sound read) (here : l.here = origin.advanceBy read) :
    (Lexer.act c l).Sound (read ++ [c]) := by
  cases h with
  | between gap tokens =>
    unfold Lexer.act
    rw [gap]
    exact Between.stepGap ⟨here, tokens⟩
  | within tokens start holds => exact Within.act ⟨here, start, tokens, holds.ne_nil⟩ holds

/-- The lexer's soundness does not depend on the position behind the text. -/
theorem Sound.at (h : l.Sound read) (here : Position) : { l with here := here }.Sound read := by
  cases h with
  | between gap tokens => exact .between gap tokens
  | within tokens start holds => exact .within tokens start holds

/-- The lexer has read a text from its beginning. -/
structure HasRead (l : Lexer) (read : List Char) : Prop where
  here : l.here = origin.advanceBy read
  sound : l.Sound read

theorem HasRead.step (h : l.HasRead read) (c : Char) : (l.step c).HasRead (read ++ [c]) := by
  constructor
  · rw [advanceBy_concat, ← h.here]
    rfl
  · exact (h.sound.act h.here).at _

theorem HasRead.run (h : l.HasRead read) (cs : List Char) : (l.run cs).HasRead (read ++ cs) := by
  induction cs generalizing l read with
  | nil => rwa [List.append_nil]
  | cons c cs ih =>
    have next := ih (h.step c)
    rwa [List.append_assoc] at next

theorem hasRead_initial : initial.HasRead [] := ⟨rfl, .between rfl .start⟩

/-- What is left of a lexeme at the end of a script is a token or nothing. -/
theorem HasRead.finish (h : l.HasRead read) : Lays l.finish.tokens read := by
  unfold Lexer.finish
  cases h.sound with
  | between gap tokens =>
    rw [gap]
    exact tokens
  | @within before part tokens start holds =>
    have within : l.Within before part := ⟨h.here, start, tokens, holds.ne_nil⟩
    split
    · exact (within.between (settles_endWord _ l)).tokens
    · next quote inside passage sound lexeme =>
      rw [lexeme] at holds
      obtain ⟨isQuote, rfl⟩ := holds
      have spells : (Token.Kind.fragment (String.ofList inside.reverse)).Spells
          (quote :: inside.reverse) := ⟨quote, [], isQuote, by simp⟩
      exact (within.recorded spells).tokens
    · next text lexeme =>
      rw [lexeme] at holds
      obtain ⟨rfl, -, line⟩ := holds
      have spells : (Token.Kind.comment (String.ofList text.reverse)).Spells text.reverse :=
        ⟨by simp, by simpa using line⟩
      exact (within.recorded spells).tokens
    · exact tokens.more part

end Lexer

/-- The tokens of a script stand in it one behind the other. -/
theorem lays_tokensOf (cs : List Char) : Lays (tokensOf cs).reverse cs := by
  rw [tokensOf, List.reverse_reverse]
  exact (Lexer.hasRead_initial.run cs).finish

/-! ## Spans of tokens -/

/-- Every token marks what it spells. -/
theorem Lays.marks {tokens : List Token} {read : List Char} (h : Lays tokens read) :
    ∀ t ∈ tokens, ∃ part, t.span.Marks read part ∧ t.kind.Spells part := by
  induction h with
  | start =>
    intro t member
    exact absurd member List.not_mem_nil
  | @behind tokens before part kind _ _ spells ih =>
    intro t member
    rcases List.mem_cons.mp member with rfl | member
    · exact ⟨part, ⟨before, [], by simp, rfl, rfl⟩, spells⟩
    · obtain ⟨other, marks, spells⟩ := ih t member
      exact ⟨other, marks.append part, spells⟩
  | more _ after ih =>
    intro t member
    obtain ⟨part, marks, spells⟩ := ih t member
    exact ⟨part, marks.append after, spells⟩

/-- Each token has a stretch of the text read to itself. -/
theorem Lays.separate {tokens : List Token} {read : List Char} (h : Lays tokens read) :
    tokens.Pairwise (fun t before => before.span.Precedes t.span) ∧
      ∀ t ∈ tokens, t.span.Proper ∧ t.span.stop ≤ origin.advanceBy read := by
  induction h with
  | start => exact ⟨.nil, fun t member => absurd member List.not_mem_nil⟩
  | @behind tokens before part kind _ nonempty _ ih =>
    obtain ⟨apart, bounds⟩ := ih
    have proper : origin.advanceBy before < origin.advanceBy (before ++ part) := by
      rw [advanceBy_append]
      exact Position.lt_advanceBy nonempty _
    refine ⟨.cons (fun t member => (bounds t member).2) apart, ?_⟩
    intro t member
    rcases List.mem_cons.mp member with rfl | member
    · exact ⟨proper, Position.le_refl _⟩
    · exact ⟨(bounds t member).1,
        Position.le_trans (bounds t member).2 (Position.le_of_lt proper)⟩
  | @more tokens read _ after ih =>
    refine ⟨ih.1, fun t member => ⟨(ih.2 t member).1, Position.le_trans (ih.2 t member).2 ?_⟩⟩
    rw [advanceBy_append]
    exact Position.le_advanceBy _ _

theorem proper_of_mem_tokensOf {cs : List Char} {t : Token} (member : t ∈ tokensOf cs) :
    t.span.Proper :=
  ((lays_tokensOf cs).separate.2 t (List.mem_reverse.mpr member)).1

theorem pairwise_tokensOf (cs : List Char) :
    (tokensOf cs).Pairwise fun t t' => t.span.Precedes t'.span :=
  List.pairwise_reverse.mp (lays_tokensOf cs).separate.1

end Script

end RemoteIndex
