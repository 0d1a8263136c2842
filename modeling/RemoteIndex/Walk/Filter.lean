import RemoteIndex.Diagnostic
import RemoteIndex.Pattern.Reader

/-!
# Walk filters

A filter decides by name alone which entries of a directory a walk leaves out, and which files it
shows. What is left out is left out with everything below it; that a file is not shown has no
other effect.
-/

namespace RemoteIndex

/-- A rule about the name of an entry. -/
inductive NamePattern where
  | name (s : String)
  | glob (g : Pattern.Glob)
  | expression (e : Pattern.Expression)
deriving DecidableEq, Repr, Inhabited

/-- Does the name fit the rule? A name has to fit a glob as a whole, and an expression in any
part. -/
def NamePattern.isMatch : NamePattern → String → Bool
  | .name s, n => s == n
  | .glob g, n => g.isMatch n
  | .expression e, n => e.occursIn n.toList

/-- Rules for the names to leave out and for the names of the files to show. -/
structure WalkFilter where
  excluded : List NamePattern
  included : List Pattern.Expression
deriving DecidableEq, Repr, Inhabited

namespace WalkFilter

open Pattern (Expression)

/-- The filter that leaves nothing out and shows nothing. -/
def empty : WalkFilter := ⟨[], []⟩

/-- The directories that other people's code is kept in. -/
def dependencyNames : List String := ["node_modules", "bower_components", "vendor"]

/-- Names that begin with a dot. -/
def hidden : Expression := .seq .start (.char '.')

/-- Names that end in `suffix`, perhaps with an `x` behind it. -/
def ending (suffix : String) : Expression :=
  .seq (.literal suffix) (.seq (.alt (.char 'x') .nothing) .stop)

/-- Leaves out other people's code and what is hidden, and shows the scripts. -/
def projectDefault : WalkFilter where
  excluded := dependencyNames.map .name ++ [.expression hidden]
  included := [ending ".ts", ending ".js"]

/-- The globs among the given texts. -/
def globs (sources : List String) : List Pattern.Glob :=
  sources.filterMap fun source => (Pattern.Glob.ofString? source).toOption

/-- The warnings about the texts that are no globs. -/
def warnings (sources : List String) : List Warning :=
  sources.filterMap fun source =>
    match Pattern.Glob.ofString? source with
    | .ok _ => none
    | .error error => some (.ignoredGlob source error)

/-- The filter that also leaves out what fits one of the given globs. -/
def excluding (f : WalkFilter) (sources : List String) : WalkFilter :=
  { f with excluded := f.excluded ++ (globs sources).map .glob }

/-- Is the name left out? -/
def isExcluded (f : WalkFilter) (name : String) : Bool := f.excluded.any (·.isMatch name)

/-- Is a file of this name shown? -/
def isIncludedFile (f : WalkFilter) (name : String) : Bool :=
  !f.isExcluded name && f.included.any (·.occursIn name.toList)

/-- Is an entry left out? One whose name is no text is not. -/
def prunes (f : WalkFilter) (n : Name) : Bool := n.text?.any f.isExcluded

/-- Is a file shown? One whose name is no text is not. -/
def shows (f : WalkFilter) (n : Name) : Bool := n.text?.any f.isIncludedFile

end WalkFilter

end RemoteIndex
