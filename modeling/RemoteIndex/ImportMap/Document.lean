import RemoteIndex.Json.Reader

/-!
# Documents of import maps

An import map is written as an object whose member `imports` is an object. Other members are passed
over. A list may stand for the outer object; then its only item, if it has one, is `imports`. The
first token that does not fit decides what is wrong.
-/

namespace RemoteIndex.ImportMap.Document

open Json

/-- The members of an object, in the order of the text. -/
abbrev Members := List (String × Json)

/-- Reads the value of `imports`, which has to be an object. -/
def imports : List Token → Except Fault (Members × List Token)
  | [] => .error .unfinished
  | t :: ts =>
    if t = .mark '\x7b' then
      match readValue (.strict (maxDepth - 1)) (t :: ts) with
      | .ok (.object members, rest) => .ok (members, rest)
      | .ok _ => .error .wrongForm
      | .error fault => .error fault
    else if t = .mark '[' then .error .wrongForm
    else
      match Reader.scalar (.strict maxDepth) t with
      | .ok _ => .error .wrongForm
      | .error fault => .error fault

/-- Nothing may follow the document. -/
def finish (members : Members) : List Token → Except Fault Members
  | [] => .ok members
  | _ :: _ => .error .syntaxError

/-- Reads from the key of a member on to the end, where `found` is what was under `imports` before.
The number bounds the members that are still to come. -/
def fromKey : Nat → Option Members → List Token → Except Fault Members
  | 0, _, _ => .error .unfinished
  | _, _, [] => .error .unfinished
  | n + 1, found, t :: ts =>
    let behind (found : Option Members) : List Token → Except Fault Members
      | [] => .error .unfinished
      | u :: us =>
        if u = .mark ',' then fromKey n found us
        else if u = .mark '\x7d' then finish (found.getD []) us
        else .error .syntaxError
    match Reader.key (.strict maxDepth) t with
    | .error fault => .error fault
    | .ok key =>
      if key = "imports" && found.isSome then .error .wrongForm
      else
        match ts with
        | [] => .error .unfinished
        | colon :: ts =>
          if colon ≠ .mark ':' then .error .syntaxError
          else if key = "imports" then
            match imports ts with
            | .error fault => .error fault
            | .ok (members, rest) => behind (some members) rest
          else
            match readValue .skipping ts with
            | .error fault => .error fault
            | .ok (_, rest) => behind found rest

/-- Reads the items of a list that stands for the outer object. -/
def ofList : List Token → Except Fault Members
  | [] => .error .unfinished
  | t :: ts =>
    if t = .mark ']' then finish [] ts
    else
      match imports (t :: ts) with
      | .error fault => .error fault
      | .ok (_, []) => .error .unfinished
      | .ok (members, u :: us) => if u = .mark ']' then finish members us else .error .syntaxError

/-- Reads the outer object. -/
def ofTokens : List Token → Except Fault Members
  | [] => .error .unfinished
  | t :: ts =>
    if t = .mark '\x7b' then
      match ts with
      | [] => .error .unfinished
      | u :: us => if u = .mark '\x7d' then finish [] us else fromKey ts.length none ts
    else if t = .mark '[' then ofList ts
    else
      match Reader.scalar (.strict maxDepth) t with
      | .ok _ => .error .wrongForm
      | .error fault => .error fault

/-- The members under `imports` in the text of an import map, in the order of the text. -/
def members (document : String) : Except Fault Members := ofTokens (tokensOf document)

end RemoteIndex.ImportMap.Document
