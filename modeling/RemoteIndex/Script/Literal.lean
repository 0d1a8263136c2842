import RemoteIndex.Script.Character

/-!
# The inside of string literals

Between its quotes a literal has text and escape sequences. A line end is no text, but it need not
break the literal off: behind it there may be white space and comments, as between any two pieces of
a script, and then the closing quote. Right behind a block comment the text may go on.
-/

namespace RemoteIndex.Script

/-- Progress of an escape sequence in a string literal. -/
inductive Escape where
  /-- Behind the backslash. -/
  | begun
  /-- So many hexadecimal digits are missing. -/
  | digits (missing : Nat)
  /-- Behind `\u`. -/
  | unicode
  /-- Between the braces of `\u{…}`; `nonempty` when there is a digit. -/
  | braced (nonempty : Bool)
  /-- Behind an escaped carriage return or question mark, which takes a line end with it. -/
  | lineEnd
deriving DecidableEq, Repr, Inhabited

/-- How an escape sequence goes on with a character. -/
inductive EscapeStep where
  /-- The character belongs to it, and so may the next. -/
  | more (escape : Escape)
  /-- The character is its last. -/
  | last
  /-- It ended before the character. -/
  | over
  /-- The character does not continue it and it is not complete. -/
  | broken
deriving DecidableEq, Repr, Inhabited

/-- The escape sequences of string literals: `\x` with two hexadecimal digits, `\u` with four or
with any number in braces, and a backslash before any other character, where a carriage return or
a question mark takes a line end behind it along. -/
def Escape.read (c : Char) : Escape → EscapeStep
  | .begun =>
    if c = 'x' then .more (.digits 2)
    else if c = 'u' then .more .unicode
    else if c = '\r' ∨ c = '?' then .more .lineEnd
    else if c.toNat = 0 then .broken
    else .last
  | .digits missing =>
    if !isHexDigit c then .broken else if missing ≤ 1 then .last else .more (.digits (missing - 1))
  | .unicode =>
    if c = '\x7b' then .more (.braced false)
    else if isHexDigit c then .more (.digits 3)
    else .broken
  | .braced nonempty =>
    if isHexDigit c then .more (.braced true)
    else if c = '\x7d' && nonempty then .last
    else .broken
  | .lineEnd =>
    if c = '\n' ∨ c.toNat = 0x2028 ∨ c.toNat = 0x2029 then .last else .over

/-- What a string literal is in the middle of. -/
inductive Passage where
  /-- Its text. -/
  | text
  | escape (e : Escape)
  /-- White space behind a line end. -/
  | blank
  /-- Behind a `/` in white space. -/
  | slash
  | lineComment
  /-- A comment up to the next `*/`; `star` behind a `*`. -/
  | blockComment (star : Bool)
deriving DecidableEq, Repr, Inhabited

namespace Passage

/-- The passage that `c` stands in: an escape sequence may have ended before, and a line comment ends
with its line. -/
def settle (c : Char) : Passage → Passage
  | .escape e =>
    match e.read c with
    | .over => .text
    | .broken => .text
    | _ => .escape e
  | .lineComment => if endsLine c then .text else .lineComment
  | p => p

/-- May the literal be closed by `c`? -/
def endsBefore (c : Char) (p : Passage) : Bool := p.settle c = .text || p.settle c = .blank

/-- Is the literal none any more because of `c`? -/
def isSpoiledBy (c : Char) (p : Passage) : Bool :=
  match p with
  | .escape e => e.read c = .broken || (e.read c = .over && c.toNat = 0)
  | p => p.settle c = .text && c.toNat = 0

/-- What the literal is in the middle of behind `c`; nothing if `c` breaks it off. -/
def next (c : Char) (p : Passage) : Option Passage :=
  match p.settle c with
  | .text =>
    some (if c = '\n' ∨ c = '\r' then .blank else if c = '\\' then .escape .begun else .text)
  | .escape e =>
    match e.read c with
    | .more e => some (.escape e)
    | _ => some .text
  | .blank => if c = '/' then some .slash else if Text.isGap c then some .blank else none
  | .slash =>
    if c = '/' then some .lineComment
    else if c = '*' then some (.blockComment false)
    else none
  | .lineComment => some .lineComment
  | .blockComment star =>
    some (if star && c = '/' then .text else .blockComment (c = '*'))

/-- The line comments in the rest of a literal, each with what stands before it in the literal. The
passage that the rest begins in, and what stands before the rest, latest character first, are
known. -/
def commentsFrom (p : Passage) (before : List Char) : List Char → List (List Char × List Char)
  | [] => []
  | c :: cs =>
    match p.next c with
    | none => []
    | some next =>
      let later := next.commentsFrom (c :: before) cs
      if p = .slash ∧ next = .lineComment then
        (before.tail.reverse, '/' :: '/' :: cs.takeWhile (!endsLine ·)) :: later
      else later

end Passage

/-- The line comments in the inside of a literal, each with what stands before it there. -/
def commentsIn (inside : List Char) : List (List Char × List Char) :=
  Passage.text.commentsFrom [] inside

end RemoteIndex.Script
