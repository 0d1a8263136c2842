import RemoteIndex.Script.Site
import RemoteIndex.Script.Character
import RemoteIndex.Script.Token

/-!
# Module specifiers in statements

A reader goes through the tokens of a script once. It follows the clause of the import or export
statement it is in, and keeps, for every open bracket, whether it is the argument list of an
`import(…)`. Of such a list every argument that is nothing but a string literal names a module,
once the list is closed.

The clause of an import statement is taken loosely: between `import` and the literal may stand
names, commas, stars and groups in braces, so that a statement with a slip in its clause still
counts. This is how much the reader knows of a parser's recovery from mistakes.
-/

namespace RemoteIndex.Script

/-- What the present argument of an `import(…)` has been so far. -/
inductive Argument where
  | empty
  /-- A string literal and nothing else. -/
  | literal (site : Site)
  | other
deriving DecidableEq, Repr, Inhabited

/-- An argument list of an `import(…)`: the sites among the arguments read, and the present one. -/
structure Call where
  sites : List Site
  argument : Argument
deriving DecidableEq, Repr, Inhabited

namespace Call

/-- An argument list of which only the bracket has been read. -/
def opened : Call := ⟨[], .empty⟩

/-- The argument list behind a string literal. -/
def meetLiteral (site : Site) (c : Call) : Call :=
  { c with argument := if c.argument = .empty then .literal site else .other }

/-- The argument list behind any other piece of an argument. -/
def meetOther (c : Call) : Call := { c with argument := .other }

/-- The argument list behind the end of an argument. -/
def endArgument (c : Call) : Call :=
  match c.argument with
  | .literal site => ⟨site :: c.sites, .empty⟩
  | _ => { c with argument := .empty }

end Call

/-- An open bracket; `call` when it is the argument list of an `import(…)`. -/
structure Group where
  bracket : Bracket
  call : Option Call
deriving DecidableEq, Repr, Inhabited

/-- How far an import or export statement has been read. -/
inductive Clause where
  | idle
  /-- Behind `import`; `exported` when that stands behind `export`. -/
  | importHead (exported : Bool)
  /-- Behind `import?.`. -/
  | importChain
  /-- In the type arguments of an `import<…>(…)`, so deep. -/
  | typeArguments (depth : Nat)
  /-- Behind some of the names an import statement binds. -/
  | importNames (exported : Bool)
  /-- Between the braces of an import statement. -/
  | importGroup (exported : Bool)
  /-- Behind `import x =`. -/
  | importEquals
  /-- Behind `import x = require`. -/
  | requireWord
  /-- Behind `import x = require(`. -/
  | requireOpen
  /-- Behind the literal of `import x = require("X"`. -/
  | requireText (site : Site)
  /-- Behind `export`. -/
  | exportHead
  /-- Behind `export *`. -/
  | exportStar
  /-- Behind `export * as`. -/
  | exportAs
  /-- Between the braces of an export statement. -/
  | exportGroup
  /-- Behind what an export statement exports. -/
  | exportNames
  /-- Behind the `from` of an export statement. -/
  | exportSource
  /-- Behind the literal of an export statement. -/
  | exportText (site : Site)
deriving DecidableEq, Repr, Inhabited

/-- Does the statement take a string literal that comes next as its own? -/
def Clause.awaitsLiteral : Clause → Bool
  | .importHead _ => true
  | .importNames _ => true
  | .requireOpen => true
  | .exportSource => true
  | _ => false

/-- A reader in the course of the tokens. -/
structure Reader where
  clause : Clause
  /-- The open brackets, innermost first. -/
  groups : List Group
  /-- The last token, comments apart, was a dot that asks for a member. -/
  member : Bool
  /-- The sites found, in no order. -/
  sites : List Site
deriving Repr, Inhabited

namespace Reader

/-- The reader at the beginning of a script. -/
def initial : Reader := ⟨.idle, [], false, []⟩

/-- Go on with another clause. -/
def goto (clause : Clause) (r : Reader) : Reader := { r with clause := clause }

/-- Record a site and leave the statement. -/
def found (site : Site) (r : Reader) : Reader :=
  { r with clause := .idle, sites := site :: r.sites }

/-- Change the innermost argument list. -/
def mapCall (f : Call → Call) (r : Reader) : Reader :=
  match r.groups with
  | ⟨b, some call⟩ :: rest => { r with groups := ⟨b, some (f call)⟩ :: rest }
  | _ => r

/-- Give the innermost argument list up: a semicolon stands in it. -/
def dropCall (r : Reader) : Reader :=
  match r.groups with
  | ⟨b, some _⟩ :: rest => { r with groups := ⟨b, none⟩ :: rest }
  | _ => r

/-- An opening bracket. -/
def push (b : Bracket) (call : Option Call) (r : Reader) : Reader :=
  { r with groups := ⟨b, call⟩ :: r.groups }

/-- The group that a closing bracket closes and the groups around it. A curly bracket closes the
innermost curly group; a round or a square one looks no further than that group. -/
def close? (b : Bracket) : List Group → Option (Group × List Group)
  | [] => none
  | g :: rest =>
    if g.bracket = b then some (g, rest)
    else if g.bracket = .curly then none
    else close? b rest

/-- A closing bracket. An argument list that ends yields its sites. -/
def pop (b : Bracket) (r : Reader) : Reader :=
  match close? b r.groups with
  | none => r
  | some (g, rest) =>
    match g.call with
    | none => { r with groups := rest }
    | some call => { r with groups := rest, sites := call.endArgument.sites ++ r.sites }

/-- A name or keyword where no statement is under way, or where it begins another one. -/
def startWord (name : String) (r : Reader) : Reader :=
  if r.member then r.goto .idle
  else if name = "import" then r.goto (.importHead (r.clause = .exportHead))
  else if name = "export" then r.goto .exportHead
  else r.goto .idle

/-- A name or keyword. `sameLine` tells whether it stands on the line on which the statement's
literal ends. -/
def meetWord (name : String) (start : Position) (r : Reader) : Reader :=
  match r.clause with
  | .importHead exported =>
    if isReservedWord name ∨ name = "import" ∨ name = "export" then r.startWord name
    else r.goto (.importNames exported)
  | .importNames exported =>
    if isReservedWord name ∨ name = "import" ∨ name = "export" then r.startWord name
    else r.goto (.importNames exported)
  | .importGroup exported => r.goto (.importGroup exported)
  | .typeArguments depth => r.goto (.typeArguments depth)
  | .importEquals => if name = "require" then r.goto .requireWord else r.startWord name
  | .exportHead => if name = "type" then r.goto .exportHead else r.startWord name
  | .exportStar =>
    if name = "from" then r.goto .exportSource
    else if name = "as" then r.goto .exportAs
    else r.startWord name
  | .exportAs => r.goto .exportNames
  | .exportGroup => r.goto .exportGroup
  | .exportNames => if name = "from" then r.goto .exportSource else r.startWord name
  | .exportText site =>
    if (name = "with" ∨ name = "assert") ∧ start.line = site.span.stop.line then r.startWord name
    else (r.found site).startWord name
  | _ => r.startWord name

/-- A string literal. -/
def meetString (text : String) (span : Span) (r : Reader) : Reader :=
  match r.clause with
  | .importHead _ => r.found ⟨text, span, .importFrom⟩
  | .importNames _ => r.found ⟨text, span, .importFrom⟩
  | .importGroup exported => r.goto (.importGroup exported)
  | .typeArguments depth => r.goto (.typeArguments depth)
  | .requireOpen => r.goto (.requireText ⟨text, span, .importRequire⟩)
  | .exportAs => r.goto .exportNames
  | .exportGroup => r.goto .exportGroup
  | .exportSource => r.goto (.exportText ⟨text, span, .exportFrom⟩)
  | .exportText site => r.found site
  | _ => r.goto .idle

/-- A punctuation character. -/
def meetMark (c : Char) (r : Reader) : Reader :=
  match r.clause with
  | .importHead exported =>
    if c = '*' then r.goto (.importNames exported)
    else if c = '<' then r.goto (.typeArguments 1)
    else r.goto .idle
  | .importNames exported =>
    if c = '*' ∨ c = ',' then r.goto (.importNames exported)
    else if c = '=' ∧ !exported then r.goto .importEquals
    else r.goto .idle
  | .importGroup exported => if c = ',' then r.goto (.importGroup exported) else r.goto .idle
  | .typeArguments depth =>
    if c = ';' then r.goto .idle
    else if c = '<' then r.goto (.typeArguments (depth + 1))
    else if c = '>' then r.goto (.typeArguments (depth - 1))
    else r.goto (.typeArguments depth)
  | .exportHead => if c = '*' then r.goto .exportStar else r.goto .idle
  | .exportGroup => if c = ',' then r.goto .exportGroup else r.goto .idle
  | .exportText site => r.found site
  | _ => r.goto .idle

/-- An opening bracket. -/
def meetOpening (b : Bracket) (r : Reader) : Reader :=
  match r.clause, b with
  | .importHead _, .round => (r.goto .idle).push b (some .opened)
  | .importChain, .round => (r.goto .idle).push b (some .opened)
  | .typeArguments 0, .round => (r.goto .idle).push b (some .opened)
  | .typeArguments (depth + 1), _ => (r.goto (.typeArguments (depth + 1))).push b none
  | .importHead exported, .curly => (r.goto (.importGroup exported)).push b none
  | .importNames exported, .curly => (r.goto (.importGroup exported)).push b none
  | .requireWord, .round => (r.goto .requireOpen).push b none
  | .exportHead, .curly => (r.goto .exportGroup).push b none
  | .exportText site, _ => (r.found site).push b none
  | _, _ => (r.goto .idle).push b none

/-- A closing bracket. -/
def meetClosing (b : Bracket) (r : Reader) : Reader :=
  match r.clause, b with
  | .typeArguments (depth + 1), _ => (r.goto (.typeArguments (depth + 1))).pop b
  | .importGroup exported, .curly => (r.goto (.importNames exported)).pop b
  | .requireText site, .round => (r.found site).pop b
  | .exportGroup, .curly => (r.goto .exportNames).pop b
  | .exportText site, _ => (r.found site).pop b
  | _, _ => (r.goto .idle).pop b

/-- Any other token: `chain` when it asks for a member with `?.`. -/
def meetOther (chain : Bool) (r : Reader) : Reader :=
  match r.clause with
  | .importHead _ => if chain then r.goto .importChain else r.goto .idle
  | .typeArguments depth => r.goto (.typeArguments depth)
  | .exportText site => r.found site
  | _ => r.goto .idle

/-- What a token does to the argument list it stands in. The literal of a statement is no
argument. -/
def argue (t : Token) (r : Reader) : Reader :=
  match t.kind with
  | .string text =>
    if r.clause.awaitsLiteral then r.mapCall Call.meetOther
    else r.mapCall (Call.meetLiteral ⟨text, t.span, .dynamicImport⟩)
  | .mark ',' => r.mapCall Call.endArgument
  | .mark ';' => r.dropCall
  | .closing _ => r
  | .comment _ => r
  | _ => r.mapCall Call.meetOther

/-- What a token does to the statement it stands in. -/
def proceed (t : Token) (r : Reader) : Reader :=
  match t.kind with
  | .word name => { r.meetWord name t.span.start with member := false }
  | .string text => { r.meetString text t.span with member := false }
  | .mark c => { r.meetMark c with member := c = '.' }
  | .opening b => { r.meetOpening b with member := false }
  | .closing b => { r.meetClosing b with member := false }
  | .chain => { r.meetOther true with member := true }
  | .comment _ => r
  | _ => { r.meetOther false with member := false }

/-- Read a token. -/
def step (r : Reader) (t : Token) : Reader := (r.argue t).proceed t

/-- The sites when the script ends: an export statement may end with it. -/
def finish (r : Reader) : List Site :=
  match r.clause with
  | .exportText site => site :: r.sites
  | _ => r.sites

end Reader

/-- The specifier sites of the statements in a token list, in no order, empty literals among
them. -/
def statementSites (ts : List Token) : List Site := (ts.foldl Reader.step .initial).finish

end RemoteIndex.Script
