import RemoteIndex.Text.Position
import RemoteIndex.Text.Utf8

/-!
# Syntax trees

A parser makes a tree of a script. A node of it has a kind, a place in the bytes of the script and
the nodes under it, and it may stand in a field of the node above it. The text is not kept in the
tree: it is read from the script, at the offsets of the node. A parser that meets a mistake makes a
tree all the same, with nodes for what it could not make out and for what it has put in.
-/

namespace RemoteIndex.Script

/-- What a node is. The kinds that module specifiers are searched by have a case of their own. -/
inductive Tree.Kind where
  /-- `import_statement` -/
  | importStatement
  /-- `export_statement` -/
  | exportStatement
  /-- `call_expression` -/
  | callExpression
  /-- `import`, as what is called -/
  | importCallee
  /-- `arguments` -/
  | arguments
  /-- `import_require_clause` -/
  | importRequireClause
  /-- `string` -/
  | string
  /-- `comment` -/
  | comment
  /-- `ERROR` -/
  | error
  /-- Any other kind, by the name that it has in the grammar. -/
  | other (name : String)
deriving DecidableEq, Repr, Inhabited

/-- What a node is to the node above it. -/
inductive Tree.Field where
  | source
  | function
  | arguments
  | other (name : String)
deriving DecidableEq, Repr, Inhabited

/-- A node, with the nodes under it. -/
structure Tree where
  kind : Tree.Kind
  field : Option Tree.Field
  /-- The script lacks the node, the parser has put it in. -/
  missing : Bool
  /-- The offset of its first byte. -/
  first : Nat
  /-- The offset of the byte behind its last. -/
  last : Nat
  span : Span
  children : List Tree
deriving Repr

namespace Tree

mutual

/-- Equality of nodes can be told. -/
def decEq : (t u : Tree) → Decidable (t = u)
  | ⟨kind, field, missing, first, last, span, children⟩,
    ⟨kind', field', missing', first', last', span', children'⟩ =>
    have : Decidable (children = children') := decEqList children children'
    decidable_of_iff (kind = kind' ∧ field = field' ∧ missing = missing' ∧ first = first' ∧
      last = last' ∧ span = span' ∧ children = children') (Iff.of_eq (mk.injEq ..)).symm

/-- Equality of lists of nodes can be told. -/
def decEqList : (ts us : List Tree) → Decidable (ts = us)
  | [], [] => isTrue rfl
  | [], _ :: _ => isFalse nofun
  | _ :: _, [] => isFalse nofun
  | t :: ts, u :: us =>
    have : Decidable (t = u) := decEq t u
    have : Decidable (ts = us) := decEqList ts us
    decidable_of_iff (t = u ∧ ts = us) (Iff.of_eq (List.cons.injEq ..)).symm

end

instance : DecidableEq Tree := decEq

mutual

/-- The node and all nodes under it, as a cursor comes by them. -/
def nodes : Tree → List Tree
  | ⟨kind, field, missing, first, last, span, children⟩ =>
    ⟨kind, field, missing, first, last, span, children⟩ :: nodesOf children

/-- The nodes of one tree after the other. -/
def nodesOf : List Tree → List Tree
  | [] => []
  | t :: ts => t.nodes ++ nodesOf ts

end

/-- Is there a mistake in the node or under it? -/
def hasError (t : Tree) : Bool := t.nodes.any fun n => n.kind = .error || n.missing

/-- The text of the node in the bytes of the script. -/
def text? (source : List UInt8) (t : Tree) : Option String :=
  Text.Utf8.decode? ((source.drop t.first).take (t.last - t.first))

end Tree

end RemoteIndex.Script
