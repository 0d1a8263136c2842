import RemoteIndex.Text.Position

/-!
# Tokens of a script

What a script is made of once blanks and block comments are gone. A token says no more about its
text than the search for module specifiers needs: names and plain string literals keep theirs,
line comments keep theirs for the directives they may carry, and everything that is a value of
its own (numbers, regular expressions, templates, markup elements) is just an operand.
-/

namespace RemoteIndex.Script

/-- The three kinds of brackets. -/
inductive Bracket where
  | round
  | square
  | curly
deriving DecidableEq, Repr, Inhabited

/-- What a token is. -/
inductive Token.Kind where
  /-- An identifier or a keyword. -/
  | word (name : String)
  /-- A well-formed string literal; `text` is what stands between its quotes. -/
  | string (text : String)
  /-- A string literal that is spoiled or broken off; `text` is what it holds behind its quote. -/
  | fragment (text : String)
  | opening (bracket : Bracket)
  | closing (bracket : Bracket)
  /-- A punctuation character. -/
  | mark (c : Char)
  /-- `=>` -/
  | arrow
  /-- `?.` -/
  | chain
  /-- `...` -/
  | spread
  /-- `??` -/
  | coalesce
  /-- `++` or `--` -/
  | step
  /-- A value that is neither a name nor a plain string, or a piece of one. -/
  | operand
  /-- A comment up to the end of its line, with its two slashes. -/
  | comment (text : String)
deriving DecidableEq, Repr, Inhabited

/-- A token and where it stands. -/
structure Token where
  kind : Token.Kind
  span : Span
deriving DecidableEq, Repr, Inhabited

end RemoteIndex.Script
