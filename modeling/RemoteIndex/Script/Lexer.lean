import RemoteIndex.Script.Frame
import RemoteIndex.Script.Literal

/-!
# Cutting a script into tokens

A script is TypeScript or JavaScript with embedded markup. It is read once, one character at a
time; `Lexer.step` is the whole of it. A lexer knows what it is in the middle of (`Lexeme`), what
is open around it (`Frame`), and whether an operand has just ended. The last tells division from
the start of a regular expression and a comparison from the start of a markup element.

Nothing written inside a comment, a template text, a markup text or a regular expression can
leave it except by the characters that end it.

There is no grammar of expressions and types behind the lexer. Where it departs from a parser that
has one is told with the outline that is made of its tokens.
-/

namespace RemoteIndex.Script

/-! ### Lexers -/

/-- What a lexer is in the middle of. -/
inductive Lexeme where
  /-- Between two tokens. -/
  | gap
  /-- A name, latest letter first; `braced` inside the braces of an escaped character. -/
  | word (letters : List Char) (braced : Bool)
  | number
  /-- A string literal with what it has held so far, latest first; `sound` while nothing has spoiled
  it. -/
  | string (quote : Char) (inside : List Char) (passage : Passage) (sound : Bool)
  /-- A comment up to the end of the line, latest character first. -/
  | lineComment (text : List Char)
  /-- A comment up to the next `*/`; `star` behind a `*`. -/
  | blockComment (star : Bool)
  /-- A comment that is no token: the line of an interpreter, or else a markup comment. -/
  | silentComment (interpreter : Bool)
  | regex (inClass : Bool) (escaped : Bool)
  /-- Behind a `/` in code. -/
  | slash
  /-- Behind a `<` where an operand is expected. -/
  | less
  /-- Behind so many characters of `<!--`. -/
  | markup (count : Nat)
  /-- Behind `=`. -/
  | equals
  /-- Behind `?`. -/
  | question
  /-- Behind one or two dots. -/
  | dots (two : Bool)
  /-- Behind `+` or `-`. -/
  | sign (c : Char)
  /-- Behind `--` where an operand is expected. -/
  | minusMinus
  /-- Behind `#` at the beginning. -/
  | hash
  /-- Behind a backslash in a template. -/
  | templateEscape
  /-- Behind `$` in a template. -/
  | templateDollar
  /-- Behind `/` in a tag. -/
  | tagSlash
  /-- Inside an attribute's quotes. -/
  | tagString (quote : Char)
  /-- Behind `<` between two tags. -/
  | childLess
  /-- Behind `=` between two tags. -/
  | childEquals
deriving DecidableEq, Repr, Inhabited

/-- A lexer in the course of a script. -/
structure Lexer where
  /-- The position behind the text read so far. -/
  here : Position
  /-- Where the present lexeme began. -/
  start : Position
  lexeme : Lexeme
  /-- What is open, innermost first. -/
  frames : List Frame
  /-- The last token other than a comment. -/
  last : Option Token.Kind
  /-- An operand has just ended. -/
  operand : Bool
  /-- The tokens found, latest first. -/
  tokens : List Token
deriving Repr, Inhabited

namespace Lexer

/-- The lexer at the beginning of a script. -/
def initial : Lexer :=
  ⟨.origin, .origin, .gap, [.code .script], none, false, []⟩

/-- The region on top, where code is being read. -/
def region (l : Lexer) : Region :=
  match l.frames with
  | .code r :: _ => r
  | _ => .script

/-- Change the region on top. -/
def mapRegion (f : Region → Region) (l : Lexer) : Lexer :=
  match l.frames with
  | .code r :: rest => { l with frames := .code (f r) :: rest }
  | _ => l

/-- Record a token that reaches from the lexeme's beginning to `stop`. -/
def record (kind : Token.Kind) (stop : Position) (l : Lexer) : Lexer :=
  { l with tokens := ⟨kind, ⟨l.start, stop⟩⟩ :: l.tokens, lexeme := .gap }

/-- Record a token of code; `operand` tells whether an operand ends with it. -/
def emit (kind : Token.Kind) (operand : Bool) (stop : Position) (l : Lexer) : Lexer :=
  { l.record kind stop with last := some kind, operand := operand }

/-- Begin a lexeme here. -/
def begin (lexeme : Lexeme) (l : Lexer) : Lexer :=
  { l with lexeme := lexeme, start := l.here }

/-- Go on with another lexeme that began where this one did. -/
def become (lexeme : Lexeme) (l : Lexer) : Lexer := { l with lexeme := lexeme }

/-- The last token was a keyword behind which a `<` begins type parameters. -/
def expectsType (l : Lexer) : Bool :=
  l.last = some (.word "new") || l.last = some (.word "as") || l.last = some (.word "satisfies")

/-- Begin a line comment at the `/` before. -/
def beginComment (l : Lexer) : Lexer := l.become (.lineComment ['/', '/'])

/-! ### Tokens of code -/

/-- Does an operand have to follow the name? In a type `void` is one itself. -/
def isOperator (name : String) (l : Lexer) : Bool :=
  isOperatorWord name && !(name = "void" && l.region.inType) ||
    isContextualWord name && (l.operand || l.region.inType)

/-- Record a name. Behind a dot it is the name of a member, whatever its letters; and what follows
`for await` is the head of the loop. -/
def endWord (letters : List Char) (l : Lexer) : Lexer :=
  let name := String.ofList letters.reverse
  if l.last = some (.mark '.') ∨ l.last = some .chain then
    { l.emit (.word name) true l.here with last := some .operand }
  else
    let operator := l.isOperator name
    let last := if name = "await" ∧ l.last = some (.word "for") then l.last else some (.word name)
    { (l.mapRegion (Region.meetWord name l.operand l.last)).emit (.word name) (!operator) l.here with
      last := last }

/-- Record a punctuation character. A `!` behind an operand belongs to it. -/
def emitMark (c : Char) (stop : Position) (l : Lexer) : Lexer :=
  (l.mapRegion (Region.meetMark c l.last)).emit (.mark c) (c = '!' && l.operand) stop

/-- Record an arrow. -/
def emitArrow (stop : Position) (l : Lexer) : Lexer :=
  (l.mapRegion Region.meetArrow).emit .arrow false stop

/-- Record an opening bracket. -/
def openBracket (opener : Opener) (stop : Position) (l : Lexer) : Lexer :=
  let inside := l.region.inside opener
  let l := (l.mapRegion (Region.meetOpening opener)).emit (.opening opener.bracket) false stop
  { l with frames := .code inside :: l.frames }

/-- Record a closing bracket. One that fits nothing closes nothing. -/
def closeBracket (b : Bracket) (stop : Position) (l : Lexer) : Lexer :=
  match Frame.close? b l.frames with
  | some (opener, rest) => { l.emit (.closing b) opener.endsOperand stop with frames := rest }
  | none => l.emit (.closing b) (b != .curly) stop

/-! ### Markup -/

/-- Begin a tag. -/
def openTag (closing : Bool) (l : Lexer) : Lexer :=
  { l with lexeme := .gap, frames := .tag (.opened closing) :: l.frames }

/-- Go on with a tag of which more is known now. -/
def setTag (t : Tag) (l : Lexer) : Lexer :=
  { l with lexeme := .gap, frames := .tag t :: l.frames.drop 1 }

/-- An element has ended above the frames `rest`, and with it, in code, an operand. -/
def endElement (rest : List Frame) (stop : Position) (l : Lexer) : Lexer :=
  match rest with
  | .code _ :: _ => { l.emit .operand true stop with frames := rest }
  | _ => { l with lexeme := .gap, frames := rest }

/-! ### Between two lexemes -/

/-- Read a character of code that belongs to no name, up to `next`. -/
def stepPunctuation (c : Char) (next : Position) (l : Lexer) : Lexer :=
  match c with
  | '"' => l.become (.string '"' [] .text true)
  | '\'' => l.become (.string '\'' [] .text true)
  | '\x60' =>
    let l := l.emit .operand false next
    { l with frames := .template :: l.frames }
  | '/' => l.become .slash
  | '<' =>
    if l.operand ∨ l.region.inType ∨ l.expectsType then l.emitMark c next else l.become .less
  | '=' => l.become .equals
  | '?' => l.become .question
  | '.' => l.become (.dots false)
  | '+' => l.become (.sign c)
  | '-' => l.become (.sign c)
  | '(' =>
    match l.last with
    | some (.word name) => l.openBracket (.round (isControlWord name)) next
    | some (.mark '?') =>
      if l.region.opener = .members then
        (l.mapRegion fun r => { r with choices := r.choices - 1 }).openBracket (.round false) next
      else l.openBracket (.round false) next
    | _ => l.openBracket (.round false) next
  | '[' => l.openBracket .square next
  | '\x7b' => l.openBracket (l.region.openerOfBrace l.operand l.last) next
  | ')' => l.closeBracket .round next
  | ']' => l.closeBracket .square next
  | '\x7d' => l.closeBracket .curly next
  | _ => if isPunctuation c then l.emitMark c next else l

/-- Read a character of code. -/
def stepCode (c : Char) (l : Lexer) : Lexer :=
  let next := l.here.advance c
  let l := l.begin .gap
  if Text.isGap c then l
  else if c.isDigit then l.become .number
  else if c = '#' ∧ l.last.isNone then l.become .hash
  else if isWordChar c then l.become (.word [c] false)
  else l.stepPunctuation c next

/-- Read a character of a template's text. -/
def stepTemplate (c : Char) (l : Lexer) : Lexer :=
  let next := l.here.advance c
  let l := l.begin .gap
  match c with
  | '\x60' => { l.emit .operand true next with frames := l.frames.drop 1 }
  | '\\' => l.become .templateEscape
  | '$' => l.become .templateDollar
  | _ => l

/-- Read a character of a tag that is a tag indeed. -/
def stepInTag (t : Tag) (c : Char) (l : Lexer) : Lexer :=
  let next := l.here.advance c
  let l := l.begin .gap
  if isWordChar c then l.setTag (t.spell c)
  else if Text.isGap c then l.setTag { t with letters := [] }
  else
    match c with
    | '"' => (l.setTag t.endName).become (.tagString c)
    | '\'' => (l.setTag t.endName).become (.tagString c)
    | '/' => (l.setTag t.endName).become .tagSlash
    | '\x7b' => (l.setTag t.endName).openBracket .container next
    | '<' =>
      if t.equals then (l.setTag t.endName).openTag false
      else l.setTag { t.endName with depth := t.depth + 1 }
    | '>' =>
      if 0 < t.depth then
        l.setTag { t.endName with depth := if t.equals then t.depth else t.depth - 1 }
      else if t.closing then l.endElement (Frame.belowElement l.frames) next
      else { l with frames := .children :: l.frames.drop 1 }
    | '=' => l.setTag { t.endName with equals := true }
    | '.' => l
    | ':' => l
    | '-' => l
    | _ => l.setTag t.endName

/-- Read a character of a tag. Where the tag stands in code it may turn out to be none. -/
def stepTag (t : Tag) (c : Char) (l : Lexer) : Lexer :=
  match l.frames.drop 1 with
  | .code r :: rest =>
    if t.refutedBy c then stepCode c { l with frames := .code r :: rest, operand := true }
    else if t.constrainedBy c then stepCode c { l with frames := .code r :: rest, operand := false }
    else l.stepInTag t c
  | _ => l.stepInTag t c

/-- Read a character between two tags. No `>` stands there: an arrow tells that the first tag was a
type parameter. -/
def stepChildren (c : Char) (l : Lexer) : Lexer :=
  let next := l.here.advance c
  let l := l.begin .gap
  match c with
  | '\x7b' => l.openBracket .container next
  | '<' => l.become .childLess
  | '=' => l.become .childEquals
  | _ => l

/-- Read a character between two lexemes: what is open on top says what it means. -/
def stepGap (c : Char) (l : Lexer) : Lexer :=
  match l.frames with
  | .template :: _ => l.stepTemplate c
  | .tag t :: _ => l.stepTag t c
  | .children :: _ => l.stepChildren c
  | _ => l.stepCode c

/-! ### Inside a lexeme -/

/-- Read a character of a name. -/
def stepWord (letters : List Char) (braced : Bool) (c : Char) (l : Lexer) : Lexer :=
  if braced && isHexDigit c then l.become (.word (c :: letters) true)
  else if braced && c = '\x7d' then l.become (.word (c :: letters) false)
  else if isWordChar c then l.become (.word (c :: letters) false)
  else if c = '\x7b' && letters.take 2 = ['u', '\\'] then l.become (.word (c :: letters) true)
  else (l.endWord letters).stepGap c

/-- Read a character of a string literal. One that can neither close the literal nor stand in it
breaks it off. -/
def stepString (quote : Char) (inside : List Char) (passage : Passage) (sound : Bool) (c : Char)
    (l : Lexer) : Lexer :=
  let text := String.ofList inside.reverse
  let sound := sound && !passage.isSpoiledBy c
  if c = quote && passage.endsBefore c then
    l.emit (if sound then .string text else .fragment text) true (l.here.advance c)
  else
    match passage.next c with
    | some passage => l.become (.string quote (c :: inside) passage sound)
    | none => (l.emit (.fragment text) (passage ≠ .slash) l.here).stepGap c

/-- Read a character of a regular expression. A line feed breaks it off. -/
def stepRegex (inClass escaped : Bool) (c : Char) (l : Lexer) : Lexer :=
  if c = '\n' then (l.emit .operand true l.here).stepGap c
  else if escaped then l.become (.regex inClass false)
  else if c = '\\' then l.become (.regex inClass true)
  else if c = '[' then l.become (.regex true false)
  else if c = ']' then l.become (.regex false false)
  else if c = '/' && !inClass then l.emit .operand true (l.here.advance c)
  else l.become (.regex inClass false)

/-- Read one character, except for the position. -/
def act (c : Char) (l : Lexer) : Lexer :=
  let next := l.here.advance c
  match l.lexeme with
  | .gap => l.stepGap c
  | .word letters braced => l.stepWord letters braced c
  | .number => if isWordChar c ∨ c = '.' then l else (l.emit .operand true l.here).stepGap c
  | .string quote inside passage sound => l.stepString quote inside passage sound c
  | .lineComment text =>
    if endsLine c then (l.record (.comment (String.ofList text.reverse)) l.here).stepGap c
    else l.become (.lineComment (c :: text))
  | .blockComment star =>
    if star && c = '/' then l.become .gap else l.become (.blockComment (c = '*'))
  | .silentComment interpreter =>
    if c = '\n' ∨ (!interpreter ∧ (c.toNat = 0x2028 ∨ c.toNat = 0x2029)) then
      (l.become .gap).stepGap c
    else l
  | .regex inClass escaped => l.stepRegex inClass escaped c
  | .slash =>
    if c = '/' then l.beginComment
    else if c = '*' then l.become (.blockComment false)
    else if l.operand then (l.emitMark '/' l.here).stepGap c
    else l.stepRegex false false c
  | .less =>
    if c = '!' then l.become (.markup 2)
    else if c = '>' ∨ (isWordChar c ∧ !c.isDigit) then
      ((l.emit .operand true l.here).openTag false).stepGap c
    else (l.emitMark '<' l.here).stepGap c
  | .markup count =>
    if c = '-' then
      if count = 2 then l.become (.markup 3) else l.become (.silentComment false)
    else (l.emitMark '<' l.here).stepGap c
  | .equals => if c = '>' then l.emitArrow next else (l.emitMark '=' l.here).stepGap c
  | .question =>
    if c = '.' then l.emit .chain false next
    else if c = '?' then l.emit .coalesce false next
    else (l.emitMark '?' l.here).stepGap c
  | .dots two =>
    if c = '.' then if two then l.emit .spread false next else l.become (.dots true)
    else if c.isDigit && !two then l.become .number
    else (l.emitMark '.' l.here).stepGap c
  | .sign s =>
    if c = s then
      if s = '-' && !l.operand then l.become .minusMinus else l.emit .step l.operand next
    else (l.emitMark s l.here).stepGap c
  | .minusMinus =>
    if c = '>' then l.become (.silentComment false)
    else (l.emit .step l.operand l.here).stepGap c
  | .hash => if c = '!' then l.become (.silentComment true) else l.stepWord ['#'] false c
  | .templateEscape => l.become .gap
  | .templateDollar =>
    if c = '\x7b' then l.openBracket .substitution next else l.stepTemplate c
  | .tagSlash =>
    if c = '>' then l.endElement (l.frames.drop 1) next
    else if c = '/' then l.beginComment
    else if c = '*' then l.become (.blockComment false)
    else l.stepGap c
  | .tagString quote => if c = quote then l.become .gap else l
  | .childLess => if c = '/' then l.openTag true else (l.openTag false).stepGap c
  | .childEquals =>
    if c = '>' then { l.emitArrow next with frames := Frame.aroundMarkup l.frames }
    else (l.become .gap).stepGap c

/-- Read one character. -/
def step (l : Lexer) (c : Char) : Lexer := { l.act c with here := l.here.advance c }

/-- Read a text. -/
def run (l : Lexer) (cs : List Char) : Lexer := cs.foldl step l

/-- End the lexeme that the end of the script ends. -/
def finish (l : Lexer) : Lexer :=
  match l.lexeme with
  | .word letters _ => l.endWord letters
  | .string _ inside _ _ => l.record (.fragment (String.ofList inside.reverse)) l.here
  | .lineComment text => l.record (.comment (String.ofList text.reverse)) l.here
  | _ => l

end Lexer

/-- The tokens of a script, in order. -/
def tokensOf (cs : List Char) : List Token := (Lexer.initial.run cs).finish.tokens.reverse

end RemoteIndex.Script
