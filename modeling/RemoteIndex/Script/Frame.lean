import RemoteIndex.Script.Character
import RemoteIndex.Script.Token

/-!
# What surrounds a place in a script

Code stands in regions: the script itself, and whatever is between two brackets. Regions,
templates and markup elements are nested in one another; each is a frame, and a place in a script
is surrounded by a list of frames, innermost first.

What a region knows of itself serves two questions only: does an operand end with its closing
bracket, and does a `<` where an operand is expected begin a type parameter list, because a type
is being written, or a markup element.
-/

namespace RemoteIndex.Script

/-- What has been opened around a stretch of code. -/
inductive Opener where
  /-- The script itself. -/
  | script
  /-- `(`; `control` when it is the head of an `if` or of a loop. -/
  | round (control : Bool)
  | square
  /-- A `{` that begins statements, or the body of a declaration. -/
  | block
  /-- A `{` that begins an object or a group of names. -/
  | object
  /-- A `{` that begins the members of a class. -/
  | members
  /-- A `{` that begins a type; `literal` when the type is an operand itself. -/
  | shape (literal : Bool)
  /-- `${` inside a template. -/
  | substitution
  /-- `{` inside markup. -/
  | container
deriving DecidableEq, Repr, Inhabited

namespace Opener

/-- Which bracket closes it. -/
def bracket : Opener → Bracket
  | .round _ => .round
  | .square => .square
  | _ => .curly

/-- Does an operand end with the closing bracket? -/
def endsOperand : Opener → Bool
  | .round control => !control
  | .square => true
  | .object => true
  | .shape literal => literal
  | _ => false

end Opener

/-- Whether a type is being written, and what ends it. -/
inductive Typing where
  /-- No type. -/
  | value
  /-- A type after a colon. -/
  | ascription
  /-- The type a function returns, which its arrow ends. -/
  | result
  /-- The right side of a type alias. -/
  | typeAlias
  /-- A place where all is type. -/
  | only
deriving DecidableEq, Repr, Inhabited

/-- What the next `{` behind an operand will begin. -/
inductive Heading where
  | statement
  | classLike
  | interfaceLike
deriving DecidableEq, Repr, Inhabited

/-- A stretch of code between two brackets. -/
structure Region where
  opener : Opener
  typing : Typing
  /-- How many `?` still wait for their `:`. -/
  choices : Nat
  /-- The last `:` was one that a `?` had waited for. -/
  chosen : Bool
  /-- A `case` waits for its `:`. -/
  label : Bool
  /-- A `type` with its name waits for its `=`. -/
  aliasing : Bool
  heading : Heading
deriving DecidableEq, Repr, Inhabited

namespace Region

/-- A region in which nothing has been read yet. -/
def ofOpener (opener : Opener) (typing : Typing) : Region :=
  ⟨opener, typing, 0, false, false, false, .statement⟩

/-- The whole script. -/
def script : Region := ofOpener .script .value

/-- Is a type being written? -/
def inType (r : Region) : Bool := r.typing != .value

/-- The region where no type is being written any more, unless all in it is type. -/
def leaveType (r : Region) : Region :=
  { r with typing := if r.typing = .only then .only else .value }

/-- The region at the beginning of its next statement. -/
def restart (r : Region) : Region :=
  { r.leaveType with choices := 0, label := false, aliasing := false, heading := .statement }

/-- What a name does to the region it stands in. A name right behind an operand begins another
statement, two keywords of types apart; and some keywords say what the next `{`, `:` or `=` will
mean. -/
def meetWord (name : String) (afterOperand : Bool) (last : Option Token.Kind) (r : Region) :
    Region :=
  let r :=
    if afterOperand && name ≠ "extends" && name ≠ "is" then { r.leaveType with aliasing := false }
    else r
  if name = "case" ∨ name = "default" then { r with label := true }
  else if name = "class" then { r with heading := .classLike }
  else if name = "interface" then { r with heading := .interfaceLike }
  else if last = some (.word "type") then { r with aliasing := true }
  else r

/-- What a `{` begins, behind the token `last`. -/
def openerOfBrace (operand : Bool) (last : Option Token.Kind) (r : Region) : Opener :=
  if operand ∨ last = some (.mark '>') then
    match r.heading with
    | .statement => .block
    | .classLike => .members
    | .interfaceLike => .shape false
  else
    match last with
    | none => .block
    | some .arrow => if r.inType ∧ r.typing ≠ .result then .shape true else .block
    | some (.mark ';') => .block
    | some (.closing _) => .block
    | some (.word "else") => .block
    | some (.word "do") => .block
    | some (.word "try") => .block
    | some (.word "finally") => .block
    | some (.opening .curly) =>
      if r.opener = .script ∨ r.opener = .block ∨ r.opener = .members then .block
      else if r.inType then .shape true
      else .object
    | some (.mark ':') =>
      if r.inType then .shape true
      else if r.chosen then .object
      else if r.opener = .script ∨ r.opener = .block then .block
      else .object
    | _ => if r.inType then .shape true else .object

/-- How the inside of a bracket begins that opens in the region. -/
def inside (opener : Opener) (r : Region) : Region :=
  match opener with
  | .shape _ => ofOpener opener .only
  | .round _ => ofOpener opener (if r.inType then .only else .value)
  | .square => ofOpener opener (if r.inType then .only else .value)
  | _ => ofOpener opener .value

/-- What a bracket does to the region it opens in: a body ends its heading. -/
def meetOpening (opener : Opener) (r : Region) : Region :=
  match opener with
  | .block => { r.restart with choices := r.choices }
  | .members => r.restart
  | .shape false => r.restart
  | _ => r

/-- What a colon behind the token `last` does to the region it stands in. -/
def meetColon (last : Option Token.Kind) (r : Region) : Region :=
  if r.typing = .only then r
  else if last = some (.mark '?') then
    { r with choices := r.choices - 1, chosen := false, typing := .ascription }
  else if 0 < r.choices then { r with choices := r.choices - 1, chosen := true }
  else if r.label then { r with label := false, chosen := false }
  else if last = some (.closing .round) then { r with typing := .result, chosen := false }
  else if r.opener = .object ∨ r.opener = .container ∨ r.opener = .substitution then
    { r with chosen := false }
  else { r with typing := .ascription, chosen := false }

/-- What a punctuation character behind the token `last` does to the region it stands in. -/
def meetMark (c : Char) (last : Option Token.Kind) (r : Region) : Region :=
  match c with
  | ';' => r.restart
  | ',' => { r.leaveType with choices := 0 }
  | ':' => r.meetColon last
  | '?' => { r with choices := r.choices + 1 }
  | '=' =>
    if r.aliasing then { r with aliasing := false, typing := .typeAlias }
    else if r.typing = .ascription ∨ r.typing = .result then { r with typing := .value }
    else r
  | _ => r

/-- What an arrow does to the region it stands in. -/
def meetArrow (r : Region) : Region :=
  if r.typing = .result then { r with typing := .value } else r

end Region

/-- A tag of a markup element. -/
structure Tag where
  closing : Bool
  /-- How many names have begun: the element's and its attributes'. -/
  names : Nat
  /-- The letters of the name being read, latest first. -/
  letters : List Char
  /-- How many type arguments are open. -/
  depth : Nat
  /-- The last character was `=`. -/
  equals : Bool
deriving DecidableEq, Repr, Inhabited

namespace Tag

/-- A tag of which nothing but its `<` or `</` has been read. -/
def opened (closing : Bool) : Tag := ⟨closing, 0, [], 0, false⟩

/-- Was the `<` no tag, but the beginning of type parameters? Punctuation that no tag contains
tells so, and an `=` right behind the first name. -/
def refutedBy (c : Char) (t : Tag) : Bool :=
  !t.closing && t.depth = 0 &&
    (c ∈ [',', '(', ')', ';', '[', ']', '|', '&'] || (c = '=' && t.names = 1))

/-- Does the word `extends` behind the first name end with `c`? -/
def constrainedBy (c : Char) (t : Tag) : Bool :=
  !t.closing && t.depth = 0 && t.names = 2 && Text.isGap c
    && t.letters = ['s', 'd', 'n', 'e', 't', 'x', 'e']

/-- The tag behind a further letter. -/
def spell (c : Char) (t : Tag) : Tag :=
  { t with
    names := if t.letters.isEmpty then t.names + 1 else t.names
    letters := c :: t.letters, equals := false }

/-- The tag behind a character that ends a name. -/
def endName (t : Tag) : Tag := { t with letters := [], equals := false }

end Tag

/-- What is open around the place being read. -/
inductive Frame where
  | code (region : Region)
  | template
  | tag (tag : Tag)
  /-- Between the opening and the closing tag of an element. -/
  | children
deriving DecidableEq, Repr, Inhabited

namespace Frame

/-- The opener of the innermost region that `b` closes, and the frames around that region. A curly
bracket closes the innermost curly region; a round or a square one looks no further than that
region. -/
def close? (b : Bracket) : List Frame → Option (Opener × List Frame)
  | .code r :: rest =>
    if r.opener = .script then none
    else if r.opener.bracket = b then some (r.opener, rest)
    else if r.opener.bracket = .curly then none
    else close? b rest
  | _ => none

/-- The frames from the innermost code on. -/
def aroundMarkup : List Frame → List Frame
  | [] => []
  | .code r :: rest => .code r :: rest
  | _ :: rest => aroundMarkup rest

/-- The frames around an element whose closing tag is on top. -/
def belowElement : List Frame → List Frame
  | .tag _ :: .children :: rest => rest
  | .tag _ :: rest => rest
  | frames => frames

end Frame

end RemoteIndex.Script
