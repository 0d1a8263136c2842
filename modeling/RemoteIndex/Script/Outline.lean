import RemoteIndex.Script.Lexer
import RemoteIndex.Script.Statement
import RemoteIndex.Script.Tree
import RemoteIndex.Text.Offset

/-!
# The outline of a script

The parser that the program runs with. Of the syntax tree of a script it makes the part that module
specifiers are searched by: the comments, the string literals with the comments in them, and around
a literal that names a module the least that tells so. It is made from the tokens of the script and
from what the reader of statements has found among them.

The grammar is that of TypeScript with embedded markup. The outline only approximates the tree of a
full parser of it: the lexer goes by the last tokens and by what is open, and there is no grammar of
expressions and types behind it. It departs from that tree in these places.

* Between `<T>` and the arrow of `<T>(x: T) => x` the text could be that of an element, and is read as
  such; a call of `import` in the default of a parameter there is not found.
* A word that is an operator in some places (`of`, `as`, `is`, `keyof`, `satisfies` and their like) is
  one where an operand has just ended, and in types.
* Whether a `{` begins a block or an object is told by the token before it and by what is open.
* Of a script with mistakes no more is made out than that broken statements name nothing, while the
  whole ones around them do; which statements a mistake breaks is taken from the statement alone.
* Block comments, templates and elements are no nodes of it, nor are the statements that name no
  module.

So what is proved of the specifiers of a script is proved for every parser whose trees fit the
script, of which this is one. That it does not tell what stands in comments and templates is proved
of the lexer itself.
-/

namespace RemoteIndex.Script

/-- The line comments that a token is or holds, each with the place where it begins. -/
def Token.comments (t : Token) : List (Position × List Char) :=
  let held (inside : String) : List (Position × List Char) :=
    (commentsIn inside.toList).map fun (before, text) =>
      ((t.span.start.advance '"').advanceBy before, text)
  match t.kind with
  | .comment text => [(t.span.start, text.toList)]
  | .string inside => held inside
  | .fragment inside => held inside
  | _ => []

/-- The node of a kind at a place in the script. -/
def nodeAt (source : List UInt8) (kind : Tree.Kind) (field : Option Tree.Field) (span : Span)
    (children : List Tree) : Tree where
  kind := kind
  field := field
  missing := false
  first := span.start.offset source
  last := span.stop.offset source
  span := span
  children := children

/-- The node of a line comment that begins at a place. -/
def commentNode (source : List UInt8) (start : Position) (text : List Char) : Tree :=
  nodeAt source .comment none ⟨start, start.advanceBy text⟩ []

/-- The least that is around a literal which names a module in a statement or a call. -/
def nodeAround (source : List UInt8) (form : Form) (span : Span) (comments : List Tree) : Tree :=
  match form with
  | .importFrom =>
    nodeAt source .importStatement none span [nodeAt source .string (some .source) span comments]
  | .exportFrom =>
    nodeAt source .exportStatement none span [nodeAt source .string (some .source) span comments]
  | .dynamicImport =>
    nodeAt source .callExpression none span
      [nodeAt source .importCallee (some .function) ⟨span.start, span.start⟩ [],
        nodeAt source .arguments (some .arguments) span
          [nodeAt source .string none span comments]]
  | _ =>
    nodeAt source .importRequireClause none span [nodeAt source .string none span comments]

/-- What a token is in the outline, where these sites have been found in statements. -/
def nodeOf? (source : List UInt8) (sites : List Site) (t : Token) : Option Tree :=
  let comments := t.comments.map fun (start, text) => commentNode source start text
  match t.kind with
  | .comment text => some (commentNode source t.span.start text.toList)
  | .string _ =>
    match sites.find? (·.span = t.span) with
    | some site => some (nodeAround source site.form t.span comments)
    | none => some (nodeAt source .string none t.span comments)
  | .fragment _ => some (nodeAt source .error none t.span comments)
  | _ => none

/-- The outline of a script. It begins with the first token. -/
def outline (script : String) : Tree :=
  let source := Text.Utf8.encode script
  let ts := tokensOf script.toList
  let stop := Position.origin.advanceBy script.toList
  let start := (ts.head?.map (·.span.start)).getD stop
  nodeAt source (.other "program") none ⟨start, stop⟩
    (ts.filterMap (nodeOf? source (statementSites ts)))

/-- The parser that makes outlines. It gives a tree of every script. -/
def outline? (script : String) : Option Tree := some (outline script)

end RemoteIndex.Script
