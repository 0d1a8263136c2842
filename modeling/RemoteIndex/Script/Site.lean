import RemoteIndex.Text.Position

/-!
# Specifier sites

A site is one place in a script where a module is named.
-/

namespace RemoteIndex

/-- The syntactic form a module specifier stands in. -/
inductive Form where
  /-- `import … from "X"` or `import "X"` -/
  | importFrom
  /-- `export … from "X"` -/
  | exportFrom
  /-- `import("X")` -/
  | dynamicImport
  /-- `import x = require("X")` -/
  | importRequire
  /-- `/// <reference path="X" />` or `/// <reference types="X" />` -/
  | reference
  /-- `// @deno-types="X"` -/
  | typesHint
deriving DecidableEq, Repr, Inhabited, BEq

namespace Form

/-- The short name of the form in printed tables. -/
def label : Form → String
  | .importFrom => "import"
  | .exportFrom => "export"
  | .dynamicImport => "dynamic"
  | .importRequire => "require"
  | .reference => "reference"
  | .typesHint => "types"

/-- The form with the given short name. -/
def ofLabel? (label : String) : Option Form :=
  [importFrom, exportFrom, dynamicImport, importRequire, reference, typesHint].find?
    (·.label == label)

theorem ofLabel?_label (form : Form) : ofLabel? form.label = some form := by
  cases form <;> rfl

end Form

/-- One occurrence of a module specifier: its text as written, the span of the literal with its
quotes, and the form it stands in. -/
structure Site where
  text : String
  span : Span
  form : Form
deriving DecidableEq, Repr, Inhabited, BEq

end RemoteIndex
