import RemoteIndex.Pattern.Expression

/-!
# Written patterns

The written form of a pattern: characters stand for themselves, `.` for any character of the line,
`^` and `$` for the ends of the text, brackets for sets, `|` for a choice, round brackets for
groups, and `?`, `*`, `+` repeat what is before them. A backslash takes away what the next
character means.
-/

namespace RemoteIndex.Pattern

namespace Reader

/-- A group that is still open: its finished alternatives and the parts of the current one, the
last part first. -/
structure Group where
  alternatives : List Expression
  parts : List Expression
deriving Repr, Inhabited

/-- The pattern of a closed group. -/
def Group.close (g : Group) : Expression :=
  g.alternatives.foldl (fun later earlier => .alt earlier later)
    (.sequence g.parts.reverse)

/-- The group with one more part. -/
def Group.add (g : Group) (e : Expression) : Group := { g with parts := e :: g.parts }

/-- The group whose last part is changed. -/
def Group.repeat (g : Group) (f : Expression → Expression) : Group :=
  match g.parts with
  | [] => g
  | e :: es => { g with parts := f e :: es }

/-- What the reader is inside of. -/
inductive Place where
  | outside
  | escape
  /-- A set has begun. -/
  | setStart
  /-- A set with the characters read so far, the last one first; `true` behind a backslash. -/
  | set (negated : Bool) (chars : List (Char × Bool)) (escape : Bool)
deriving Repr, Inhabited

/-- The ranges that the characters in brackets stand for. A dash between two characters makes a
range, unless a backslash stands before it. -/
def ranges : List (Char × Bool) → List (Char × Char)
  | (a, _) :: ('-', false) :: (b, _) :: rest => (a, b) :: ranges rest
  | (a, _) :: rest => (a, a) :: ranges rest
  | [] => []

/-- Any character of the line. -/
def ofLine : CharSet := ⟨true, [('\n', '\n')]⟩

/-- Reads on, with the open groups innermost first. -/
def read : Place → Group → List Group → List Char → Expression
  | _, g, outer, [] => outer.foldl (fun e o => (o.add e).close) g.close
  | .escape, g, outer, c :: cs => read .outside (g.add (.char c)) outer cs
  | .setStart, g, outer, c :: cs =>
    if c = '^' then read (.set true [] false) g outer cs
    else read (.set false [(c, false)] (c = '\\')) g outer cs
  | .set negated chars true, g, outer, c :: cs =>
    read (.set negated ((c, true) :: chars.drop 1) false) g outer cs
  | .set negated chars false, g, outer, c :: cs =>
    if c = ']' && !chars.isEmpty then
      read .outside (g.add (.oneOf ⟨negated, ranges chars.reverse⟩)) outer cs
    else read (.set negated ((c, false) :: chars) (c = '\\')) g outer cs
  | .outside, g, outer, c :: cs =>
    if c = '\\' then read .escape g outer cs
    else if c = '[' then read .setStart g outer cs
    else if c = '.' then read .outside (g.add (.oneOf ofLine)) outer cs
    else if c = '^' then read .outside (g.add .start) outer cs
    else if c = '$' then read .outside (g.add .stop) outer cs
    else if c = '?' then read .outside (g.repeat (.alt · .nothing)) outer cs
    else if c = '*' then read .outside (g.repeat .many) outer cs
    else if c = '+' then read .outside (g.repeat fun e => .seq e (.many e)) outer cs
    else if c = '|' then
      read .outside ⟨.sequence g.parts.reverse :: g.alternatives, []⟩ outer cs
    else if c = '(' then read .outside ⟨[], []⟩ (g :: outer) cs
    else if c = ')' then
      match outer with
      | [] => read .outside (g.add (.char c)) outer cs
      | o :: outer => read .outside (o.add g.close) outer cs
    else read .outside (g.add (.char c)) outer cs

end Reader

/-- The pattern with the given written form. -/
def Expression.ofString (s : String) : Expression :=
  Reader.read .outside ⟨[], []⟩ [] s.toList

end RemoteIndex.Pattern
