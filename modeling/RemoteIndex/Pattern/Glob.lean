import RemoteIndex.Pattern.Expression

/-!
# Globs

A glob is a pattern for a whole name: `?` stands for any character, `*` for any text, brackets for
one character of a set, and `**`, which must be a whole component, for any number of components.
Every other character stands for itself.
-/

namespace RemoteIndex.Pattern

/-- Why a text is no glob, and at which character. -/
inductive GlobError where
  | wildcards (position : Nat)
  | recursion (position : Nat)
  | range (position : Nat)
deriving DecidableEq, Repr, Inhabited

/-- The wording of the error. -/
def GlobError.message : GlobError → String
  | .wildcards position => at' position "wildcards are either regular \x60*\x60 or recursive \x60**\x60"
  | .recursion position => at' position "recursive wildcards must form a single path component"
  | .range position => at' position "invalid range pattern"
where
  /-- The common beginning of the wordings. -/
  at' (position : Nat) (reason : String) : String :=
    "Pattern syntax error near position " ++ toString position ++ ": " ++ reason

/-- A glob, as the pattern it stands for. -/
structure Glob where
  expression : Expression
deriving DecidableEq, Repr, Inhabited

namespace Glob

/-- Any text. -/
def anything : Expression := .many (.oneOf .all)

/-- Any number of components: nothing, a text up to a slash, or all the rest. -/
def anyComponents : Expression :=
  .alt .nothing (.seq anything (.alt (.char '/') .stop))

/-- The ranges that the characters in brackets stand for. -/
def ranges : List Char → List (Char × Char)
  | a :: '-' :: b :: rest => (a, b) :: ranges rest
  | a :: rest => (a, a) :: ranges rest
  | [] => []

/-- What the reader is inside of. -/
inductive Place where
  | outside
  /-- A set that began at a position has its bracket only. -/
  | setStart (position : Nat)
  /-- A set with the characters read so far, the last one first. -/
  | set (position : Nat) (negated : Bool) (chars : List Char)
deriving DecidableEq, Repr, Inhabited

/-- Reads on at a position behind the character `before`; the parts read so far come with the last
one first. -/
def read : Place → Nat → Option Char → List Expression → List Char →
    Except GlobError (List Expression)
  | .outside, _, _, parts, [] => .ok parts.reverse
  | .setStart position, _, _, _, [] | .set position _ _, _, _, _, [] => .error (.range position)
  | .setStart position, n, _, parts, c :: cs =>
    if c = '!' then read (.set position true []) (n + 1) (some c) parts cs
    else read (.set position false [c]) (n + 1) (some c) parts cs
  | .set position negated chars, n, _, parts, c :: cs =>
    if c = ']' && !chars.isEmpty then
      read .outside (n + 1) (some c) (.oneOf ⟨negated, ranges chars.reverse⟩ :: parts) cs
    else read (.set position negated (c :: chars)) (n + 1) (some c) parts cs
  | .outside, n, _, _, '*' :: '*' :: '*' :: _ => .error (.wildcards (n + 2))
  | .outside, n, before, parts, '*' :: '*' :: cs =>
    if before.all (· = '/') then
      match cs with
      | [] => read .outside (n + 2) (some '*') (anyComponents :: parts) []
      | '/' :: cs => read .outside (n + 3) (some '/') (anyComponents :: parts) cs
      | _ :: _ => .error (.recursion (n + 2))
    else .error (.recursion (n - 1))
  | .outside, n, _, parts, c :: cs =>
    if c = '*' then read .outside (n + 1) (some c) (anything :: parts) cs
    else if c = '?' then read .outside (n + 1) (some c) (.oneOf .all :: parts) cs
    else if c = '[' then read (.setStart n) (n + 1) (some c) parts cs
    else read .outside (n + 1) (some c) (.char c :: parts) cs

/-- The glob with the given written form. -/
def ofString? (s : String) : Except GlobError Glob :=
  (read .outside 0 none [] s.toList).map fun parts =>
    ⟨.seq .start (.seq (.sequence parts) .stop)⟩

/-- Does the glob describe the whole name? -/
def isMatch (g : Glob) (name : String) : Bool := g.expression.occursIn name.toList

end Glob

end RemoteIndex.Pattern
