import RemoteIndex.Json.Numeral
import RemoteIndex.Text.Runs

/-!
# Tokens of documents

A document is a sequence of tokens with white space between them. A token that is broken off or
ill-formed is kept as a broken token that knows what a reader says when it meets it; nothing is
read behind it. A strict reader looks into every token, a skipping one does not: halves of
surrogate pairs and the size of numbers are no concern of it.
-/

namespace RemoteIndex.Json

/-- What is wrong with a document. -/
inductive Fault where
  /-- The text is no document. -/
  | syntaxError
  /-- The text ends before the document does. -/
  | unfinished
  /-- A document, but not of the form asked for. -/
  | wrongForm
deriving DecidableEq, Repr, Inhabited

/-- The wording of a fault says no more than that there is one. -/
def Fault.message (_ : Fault) : String := "<json error>"

/-- What two kinds of readers say about a broken token. -/
structure Complaint where
  strict : Fault
  skipping : Fault
deriving DecidableEq, Repr, Inhabited

/-- A token of a document. -/
inductive Token where
  /-- A bracket, a comma or a colon. -/
  | mark (c : Char)
  /-- A text; `whole` unless it has half a surrogate pair. -/
  | text (content : String) (whole : Bool)
  /-- A numeral; `finite` unless it is out of range. -/
  | number (numeral : String) (finite : Bool)
  | null
  | bool (value : Bool)
  /-- A text that is broken off or ill-formed. -/
  | brokenText (complaint : Complaint)
  /-- A numeral or a word that is. -/
  | brokenValue (complaint : Complaint)
  /-- A character that begins no token. -/
  | stray
deriving DecidableEq, Repr, Inhabited

namespace Token

/-- White space between tokens. -/
def isSpace (c : Char) : Bool := c = ' ' || c = '\n' || c = '\t' || c = '\r'

/-- Characters that are tokens by themselves. -/
def isMark (c : Char) : Bool :=
  c = '[' || c = ']' || c = '\x7b' || c = '\x7d' || c = ',' || c = ':'

/-- The character that a letter stands for behind a backslash. -/
def escaped? (c : Char) : Option Char :=
  if c = '"' || c = '\\' || c = '/' then some c
  else if c = 'b' then some '\x08'
  else if c = 'f' then some '\x0c'
  else if c = 'n' then some '\n'
  else if c = 'r' then some '\r'
  else if c = 't' then some '\t'
  else none

/-- Is the character a hexadecimal digit? -/
def isHexDigit (c : Char) : Bool :=
  c.isDigit || ('a' ≤ c && c ≤ 'f') || ('A' ≤ c && c ≤ 'F')

/-- The number that the next four bytes write in hexadecimal digits. A text with fewer bytes left is
unfinished, whatever they are. -/
def fourDigits (cs : List Char) : Except Fault Nat :=
  let next := cs.take 4
  if (next.map Char.utf8Size).foldl (· + ·) 0 < 4 then .error .unfinished
  else if next.all isHexDigit then .ok (Text.hexNumber next)
  else .error .syntaxError

/-- Where a numeral is broken. -/
inductive Part where
  /-- At its first digit. -/
  | sign
  /-- Behind a leading zero, where no digit may follow. -/
  | zero
  | whole
  /-- Right behind the point. -/
  | point
  | fraction
  /-- Right behind the exponent's letter. -/
  | letter
  /-- Right behind the exponent's sign. -/
  | exponentSign
  | exponent
deriving DecidableEq, Repr, Inhabited

/-- The digits of a numeral read so far, each list with the last one first. -/
structure Digits where
  negative : Bool
  whole : List Char
  fraction : List Char
  negativeExponent : Bool
  exponent : List Char
  written : List Char
deriving DecidableEq, Repr, Inhabited

/-- The token of a numeral that is complete. -/
def Digits.token (d : Digits) : Token :=
  .number (String.ofList d.written.reverse)
    (Numeral.isFinite d.whole.reverse d.fraction.reverse d.exponent.reverse d.negativeExponent)

/-- May a numeral end here? -/
def Part.complete : Part → Bool
  | .zero | .whole | .fraction | .exponent => true
  | .sign | .point | .letter | .exponentSign => false

/-- The place in a numeral behind one more character, if it goes on with it. -/
def Part.next? (part : Part) (d : Digits) (c : Char) : Option (Part × Digits) :=
  let d' := { d with written := c :: d.written }
  let whole := { d' with whole := c :: d.whole }
  let fraction := { d' with fraction := c :: d.fraction }
  let exponent := { d' with exponent := c :: d.exponent }
  let tail? : Option (Part × Digits) :=
    if c = 'e' || c = 'E' then some (.letter, d') else none
  match part with
  | .sign =>
    if c = '0' then some (.zero, whole) else if c.isDigit then some (.whole, whole) else none
  | .zero => if c = '.' then some (.point, d') else tail?
  | .whole =>
    if c.isDigit then some (.whole, whole)
    else if c = '.' then some (.point, d')
    else tail?
  | .point => if c.isDigit then some (.fraction, fraction) else none
  | .fraction => if c.isDigit then some (.fraction, fraction) else tail?
  | .letter =>
    if c = '+' then some (.exponentSign, d')
    else if c = '-' then some (.exponentSign, { d' with negativeExponent := true })
    else if c.isDigit then some (.exponent, exponent)
    else none
  | .exponentSign => if c.isDigit then some (.exponent, exponent) else none
  | .exponent => if c.isDigit then some (.exponent, exponent) else none

/-- What the tokenizer is inside of. -/
inductive State where
  | between
  /-- A text: its characters so far, the last one first, and whether they are all whole. -/
  | text (content : List Char) (whole : Bool)
  /-- A text, behind a backslash. -/
  | escape (content : List Char) (whole : Bool)
  /-- A text, within the digits of an escape: how many are still to come, and the text behind
  them. -/
  | digits (left : Nat) (content : List Char) (whole : Bool)
  | number (part : Part) (d : Digits)
  /-- A word: the letters still to come, and its token. -/
  | word (rest : List Char) (token : Token)
deriving Repr, Inhabited

/-- The complaint about a text: a strict reader stops at the first half of a surrogate pair. -/
def textComplaint (whole : Bool) (fault : Fault) : Token :=
  .brokenText ⟨if whole then fault else .syntaxError, fault⟩

/-- Behind `\u`, `n` is the first number and `cs` begins with its digits. The state behind one
escape, or behind the two that write a surrogate pair, where the digits are still to be passed. -/
def unicode (content : List Char) (whole : Bool) (n : Nat) (cs : List Char) : State ⊕ Token :=
  if !whole || n < 0xD800 || 0xE000 ≤ n then .inl (.digits 4 (Char.ofNat n :: content) whole)
  else if 0xDC00 ≤ n then .inl (.digits 4 content false)
  else
    match cs.drop 4 with
    | [] => .inr (textComplaint whole .unfinished)
    | '\\' :: [] => .inr (textComplaint whole .unfinished)
    | '\\' :: 'u' :: rest =>
      match fourDigits rest with
      | .error fault => .inr (textComplaint whole fault)
      | .ok m =>
        if 0xDC00 ≤ m && m < 0xE000 then
          .inl (.digits 10 (Char.ofNat (0x10000 + (n - 0xD800) * 0x400 + (m - 0xDC00)) :: content)
            whole)
        else .inl (.digits 4 content false)
    | _ => .inl (.digits 4 content false)

/-- The state behind a character that begins a token, or the token if that is all of it. -/
def start (c : Char) : State ⊕ Token :=
  let digits : Digits := ⟨false, [], [], false, [], []⟩
  if isMark c then .inr (.mark c)
  else if c = '"' then .inl (.text [] true)
  else if c = '-' then .inl (.number .sign { digits with negative := true, written := [c] })
  else if c = 'n' then .inl (.word ['u', 'l', 'l'] .null)
  else if c = 't' then .inl (.word ['r', 'u', 'e'] (.bool true))
  else if c = 'f' then .inl (.word ['a', 'l', 's', 'e'] (.bool false))
  else
    match Part.next? .sign digits c with
    | some (part, d) => .inl (.number part d)
    | none => .inr .stray

/-- The state behind a character that stands between two tokens, and the token if that is all of
it. -/
def enter (c : Char) : State × List Token :=
  if isSpace c then (.between, [])
  else
    match start c with
    | .inl state => (state, [])
    | .inr token => (.between, [token])

/-- The tokens of the rest of a document. -/
def scan : State → List Char → List Token
  | .between, [] => []
  | .text _ whole, [] | .escape _ whole, [] | .digits _ _ whole, [] =>
    [textComplaint whole .unfinished]
  | .number part d, [] =>
    [if part.complete then d.token else .brokenValue ⟨.unfinished, .syntaxError⟩]
  | .word [] token, [] => [token]
  | .word _ _, [] => [.brokenValue ⟨.unfinished, .unfinished⟩]
  | .between, c :: cs => (enter c).2 ++ scan (enter c).1 cs
  | .text content whole, c :: cs =>
    if c = '"' then .text (String.ofList content.reverse) whole :: scan .between cs
    else if c = '\\' then scan (.escape content whole) cs
    else if c.toNat < 0x20 then [textComplaint whole .syntaxError]
    else scan (.text (c :: content) whole) cs
  | .escape content whole, c :: cs =>
    if c = 'u' then
      match fourDigits cs with
      | .error fault => [textComplaint whole fault]
      | .ok n =>
        match unicode content whole n cs with
        | .inl state => scan state cs
        | .inr token => [token]
    else
      match escaped? c with
      | some d => scan (.text (d :: content) whole) cs
      | none => [textComplaint whole .syntaxError]
  | .digits left content whole, _ :: cs =>
    if left ≤ 1 then scan (.text content whole) cs else scan (.digits (left - 1) content whole) cs
  | .number part d, c :: cs =>
    match part.next? d c with
    | some (part, d) => scan (.number part d) cs
    | none =>
      if part.complete && !(part = .zero && c.isDigit) then
        d.token :: (enter c).2 ++ scan (enter c).1 cs
      else [.brokenValue ⟨.syntaxError, .syntaxError⟩]
  | .word [] token, c :: cs => token :: (enter c).2 ++ scan (enter c).1 cs
  | .word (d :: ds) token, c :: cs =>
    if c = d then scan (.word ds token) cs else [.brokenValue ⟨.syntaxError, .syntaxError⟩]

end Token

/-- The tokens of a document. -/
def tokensOf (document : String) : List Token := Token.scan .between document.toList

end RemoteIndex.Json
