import RemoteIndex.Json.Token
import RemoteIndex.Json.Value

/-!
# Reading documents

A reader takes one token at a time and keeps the lists and objects that are still open. What it
says about an ill-formed document is decided by the first token that does not fit.
-/

namespace RemoteIndex.Json

/-- How a value is read. -/
inductive Mode where
  /-- Every token is looked into, and no more than `depth` values may be open at once. -/
  | strict (depth : Nat)
  /-- Anything of the right form is passed over. -/
  | skipping
deriving DecidableEq, Repr

namespace Reader

/-- A list or an object that is open. Its finished parts come with the last one first; an object
waits for the value of `key`. -/
inductive Frame where
  | list (items : List Json)
  | object (members : List (String × Json)) (key : String)
deriving Repr, Inhabited

/-- What may come next. -/
inductive Expect where
  /-- A value. -/
  | value
  /-- A value, or the end of the list that has just begun. -/
  | firstItem
  /-- A key, or the end of the object that has just begun. -/
  | firstKey
  /-- A key of an object with these members. -/
  | key (members : List (String × Json))
  /-- The colon behind a key of an object with these members. -/
  | colon (members : List (String × Json)) (key : String)
  /-- A comma or the end of what is open. -/
  | comma
deriving Repr, Inhabited

/-- The side of a complaint that a reader of this mode takes. -/
def complain (mode : Mode) (c : Complaint) : Fault :=
  match mode with
  | .strict _ => c.strict
  | .skipping => c.skipping

/-- May one more value be opened? -/
def mayOpen (mode : Mode) (open' : List Frame) : Bool :=
  match mode with
  | .strict depth => open'.length < depth
  | .skipping => true

/-- The value of a token that is a value by itself. -/
def scalar (mode : Mode) : Token → Except Fault Json
  | .null => .ok .null
  | .bool b => .ok (.bool b)
  | .number numeral finite =>
    if finite || mode = .skipping then .ok (.number numeral) else .error .syntaxError
  | .text content whole =>
    if whole || mode = .skipping then .ok (.text content) else .error .syntaxError
  | .brokenText c | .brokenValue c => .error (complain mode c)
  | .mark _ | .stray => .error .syntaxError

/-- The text of a token that is a key. -/
def key (mode : Mode) : Token → Except Fault String
  | .text content whole =>
    if whole || mode = .skipping then .ok content else .error .syntaxError
  | .brokenText c => .error (complain mode c)
  | _ => .error .syntaxError

/-- The innermost open value with one more part, or the value itself when nothing is open. -/
def deliver (v : Json) : List Frame → Json ⊕ List Frame
  | [] => .inl v
  | .list items :: frames => .inr (.list (v :: items) :: frames)
  | .object members k :: frames => .inr (.object ((k, v) :: members) k :: frames)

/-- Reads on to the end of the value; gives it with the tokens behind it. -/
def read (mode : Mode) : Expect → List Frame → List Token → Except Fault (Json × List Token)
  | _, _, [] => .error .unfinished
  | expect, frames, t :: ts =>
    let finish (v : Json) (frames : List Frame) : Except Fault (Json × List Token) :=
      match deliver v frames with
      | .inl v => .ok (v, ts)
      | .inr frames => read mode .comma frames ts
    let enter : Except Fault (Json × List Token) :=
      if t = .mark '[' then
        if mayOpen mode frames then read mode .firstItem (.list [] :: frames) ts
        else .error .syntaxError
      else if t = .mark '\x7b' then
        if mayOpen mode frames then read mode .firstKey (.object [] "" :: frames) ts
        else .error .syntaxError
      else
        match scalar mode t with
        | .error fault => .error fault
        | .ok v => finish v frames
    match expect, frames with
    | .value, _ => enter
    | .firstItem, .list _ :: outer =>
      if t = .mark ']' then finish (.list []) outer else enter
    | .firstKey, .object _ _ :: outer =>
      if t = .mark '\x7d' then finish (.object []) outer
      else
        match key mode t with
        | .error fault => .error fault
        | .ok k => read mode (.colon [] k) outer ts
    | .key members, _ =>
      match key mode t with
      | .error fault => .error fault
      | .ok k => read mode (.colon members k) frames ts
    | .colon members k, _ =>
      if t = .mark ':' then read mode .value (.object members k :: frames) ts
      else .error .syntaxError
    | .comma, .list items :: outer =>
      if t = .mark ',' then read mode .value frames ts
      else if t = .mark ']' then finish (.list items.reverse) outer
      else .error .syntaxError
    | .comma, .object members _ :: outer =>
      if t = .mark ',' then read mode (.key members) outer ts
      else if t = .mark '\x7d' then finish (.object members.reverse) outer
      else .error .syntaxError
    | _, _ => .error .syntaxError

end Reader

/-- Reads one value; gives it with the tokens behind it. -/
def readValue (mode : Mode) (ts : List Token) : Except Fault (Json × List Token) :=
  Reader.read mode .value [] ts

/-- How deep a document may be nested. -/
def maxDepth : Nat := 127

/-- The value of a whole document. -/
def parse (document : String) : Except Fault Json :=
  match readValue (.strict maxDepth) (tokensOf document) with
  | .ok (v, []) => .ok v
  | .ok (_, _ :: _) => .error .syntaxError
  | .error fault => .error fault

end RemoteIndex.Json
