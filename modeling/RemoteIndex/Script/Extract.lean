import RemoteIndex.Script.Directive
import RemoteIndex.Script.Outline
import RemoteIndex.Specifier

/-!
# The module specifiers of a script

A script is parsed, and its tree is searched in two ways: for the string literals that name a module
in a statement or in a call, and for the comments that are directives. What is found is put into the
order of the text and classified.

The parser is a parameter of `extract`. The program runs with `outline`.
-/

namespace RemoteIndex.Script

/-- The text of a literal without its quotes. Nothing is left of a literal that lacks one. -/
def unquote? (literal : String) : Option String :=
  match literal.toList with
  | [] => none
  | quote :: rest =>
    if (quote = '"' ∨ quote = '\'') ∧ rest.getLast? = some quote then
      some (String.ofList rest.dropLast)
    else none

namespace Tree

/-- The string literals right under the node. -/
def strings (t : Tree) : List Tree := t.children.filter (·.kind = .string)

/-- The literals that name a module by their place under the node: the source of an import or an
export statement, the arguments of a call of `import`, and what an import statement requires. -/
def literals (t : Tree) : List (Form × Tree) :=
  match t.kind with
  | .importStatement => (t.strings.filter (·.field = some .source)).map (.importFrom, ·)
  | .exportStatement => (t.strings.filter (·.field = some .source)).map (.exportFrom, ·)
  | .callExpression =>
    if t.children.any fun c => c.field = some .function && c.kind = .importCallee then
      let lists := t.children.filter fun c => c.field = some .arguments && c.kind = .arguments
      (lists.flatMap strings).map (.dynamicImport, ·)
    else []
  | .importRequireClause => t.strings.map (.importRequire, ·)
  | _ => []

/-- The site of a literal. A literal with a mistake in it names nothing, nor does an empty one. -/
def literalSite? (source : List UInt8) (form : Form) (t : Tree) : Option Site :=
  if t.hasError || t.missing then none
  else do
    let text ← unquote? (← t.text? source)
    if text.isEmpty then none else some ⟨text, t.span, form⟩

/-- The sites in the statements and calls of a tree, in no order that counts. -/
def statementSites (source : List UInt8) (tree : Tree) : List Site :=
  tree.nodes.flatMap fun n =>
    n.literals.filterMap fun (form, literal) => literal.literalSite? source form

/-- The site in a comment that is a directive. -/
def directive? (source : List UInt8) (t : Tree) : Option Site :=
  if t.kind = .comment then (t.text? source).bind (directiveSite? t.span.start) else none

/-- The sites in the comments of a tree. -/
def directiveSites (source : List UInt8) (tree : Tree) : List Site :=
  tree.nodes.filterMap (directive? source)

/-- All sites of a tree, by their start. -/
def sites (source : List UInt8) (tree : Tree) : List Site :=
  (tree.statementSites source ++ tree.directiveSites source).mergeSort
    fun a b => a.span.start.atMost b.span.start

end Tree

/-- Why a script has no specifiers to tell. -/
inductive ParseError where
  /-- The parser gives no tree. -/
  | noTree
deriving DecidableEq, Repr, Inhabited

/-- The wording of the error. -/
def ParseError.message : ParseError → String
  | .noTree => "tree-sitter produced no syntax tree"

/-- The module specifiers of a script, in the order of the text. -/
def extract (parse : String → Option Tree) (script : String) :
    Except ParseError (List RawSpecifier) :=
  match parse script with
  | none => .error .noTree
  | some tree => .ok ((tree.sites (Text.Utf8.encode script)).map .classify)

/-- The specifier sites of a script by its outline. -/
def specifierSites (script : String) : List Site :=
  (outline script).sites (Text.Utf8.encode script)

end RemoteIndex.Script
