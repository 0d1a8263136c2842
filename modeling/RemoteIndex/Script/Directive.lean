import RemoteIndex.Script.Site
import RemoteIndex.Text.Blank

/-!
# Directives in line comments

Two kinds of line comments name a module:

* `/// <reference path="X" />` and `/// <reference types="X" />`;
* `// @deno-types="X"`.

Blanks are free where the recognisers below call `Text.dropBlank`; either quote may be used, and
an empty literal names nothing. What follows the literal does not matter.
-/

namespace RemoteIndex.Script

/-- What is left of `cs` behind `expected`. -/
def dropExact? : List Char → List Char → Option (List Char)
  | [], cs => some cs
  | _ :: _, [] => none
  | e :: expected, c :: cs => if e = c then dropExact? expected cs else none

/-- What is left of `cs` behind at least one blank and all that follow it. -/
def dropBlanks1? : List Char → Option (List Char)
  | [] => none
  | c :: cs => if Text.isBlank c then some (Text.dropBlank cs) else none

/-- A literal at the beginning of `cs`: the quote and what stands between the two. -/
def literalAt? : List Char → Option (Char × List Char)
  | [] => none
  | quote :: cs =>
    if quote = '"' ∨ quote = '\'' then
      let inner := cs.takeWhile (· ≠ quote)
      if inner.length < cs.length then some (quote, inner) else none
    else none

/-- What follows `=` and the blanks around it. -/
def behindEquals? (cs : List Char) : Option (List Char) :=
  (dropExact? ['='] (Text.dropBlank cs)).map Text.dropBlank

/-- What stands at the place of the literal in `/// <reference path="X" />`. -/
def referenceTail? (comment : List Char) : Option (List Char) := do
  let cs ← dropExact? "///".toList comment
  let cs ← dropExact? "<reference".toList (Text.dropBlank cs)
  let cs ← dropBlanks1? cs
  let cs ← (dropExact? "path".toList cs).or (dropExact? "types".toList cs)
  behindEquals? cs

/-- What stands at the place of the literal in `// @deno-types="X"`. -/
def typesTail? (comment : List Char) : Option (List Char) := do
  let cs ← dropExact? "//".toList comment
  let cs ← dropExact? "@deno-types".toList (Text.dropBlank cs)
  behindEquals? cs

/-- A directive found in a comment. -/
structure Directive where
  form : Form
  /-- The comment's text before the literal. -/
  lead : List Char
  quote : Char
  text : List Char
deriving DecidableEq, Repr

/-- The directive whose literal stands at the beginning of `tail`, at the end of `comment`. -/
def Directive.ofTail? (form : Form) (comment tail : List Char) : Option Directive :=
  (literalAt? tail).map fun (quote, text) =>
    ⟨form, comment.take (comment.length - tail.length), quote, text⟩

/-- The directive in a line comment, its literal possibly empty. The first form that fits counts. -/
def Directive.find? (comment : List Char) : Option Directive :=
  ((referenceTail? comment).bind (ofTail? .reference comment)).or
    ((typesTail? comment).bind (ofTail? .typesHint comment))

/-- The specifier site in a line comment that begins at `start`. The comment is taken to end with its
line, so that the literal is where the comment begins, so many bytes further on. -/
def directiveSite? (start : Position) (comment : String) : Option Site := do
  let d ← Directive.find? comment.toList
  if d.text.isEmpty then none
  else
    let first := start.along d.lead
    some ⟨String.ofList d.text, ⟨first, first.along (d.quote :: d.text ++ [d.quote])⟩, d.form⟩

end RemoteIndex.Script
