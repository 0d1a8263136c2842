import RemoteIndex.Text.Runs

/-!
# Documents of settings

A settings document has one `key = value` a line, comments, and blank lines. The keys are
`import_map`, a text, and `exclude`, a list of texts; each may be given once. Texts are written in
double quotes, with escapes, or in single quotes, without; three quotes let them go over several
lines. What is not of this form is no settings document.
-/

namespace RemoteIndex.Settings.Document

/-- White space within a line. -/
def isBlank (c : Char) : Bool := c = ' ' || c = '\t'

/-- Characters that may stand for themselves, in a comment or in a text: all but the control
characters, among which the tabulator is not counted. -/
def isPlain (c : Char) : Bool := c = '\t' || (0x20 ≤ c.toNat && c.toNat ≠ 0x7F)

/-- Characters of a key without quotes. -/
def isKeyChar (c : Char) : Bool := c.isAlphanum || c = '-' || c = '_'

/-- Is the character a hexadecimal digit? -/
def isHexDigit (c : Char) : Bool :=
  c.isDigit || ('a' ≤ c && c ≤ 'f') || ('A' ≤ c && c ≤ 'F')

/-- The character whose code point the next `n` digits write. -/
def codePoint? (n : Nat) (cs : List Char) : Option Char :=
  let digits := cs.take n
  let value := Text.hexNumber digits
  if digits.length = n && digits.all isHexDigit && (value < 0xD800 || (0xE000 ≤ value && value < 0x110000))
  then some (Char.ofNat value)
  else none

/-- The character that the rest of an escape stands for, and how long that rest is. -/
def escape? : List Char → Option (Char × Nat)
  | [] => none
  | c :: cs =>
    if c = 'b' then some ('\x08', 1)
    else if c = 'f' then some ('\x0c', 1)
    else if c = 'n' then some ('\n', 1)
    else if c = 'r' then some ('\r', 1)
    else if c = 't' then some ('\t', 1)
    else if c = '\\' || c = '"' then some (c, 1)
    else if c = 'u' then (codePoint? 4 cs).map (·, 5)
    else if c = 'U' then (codePoint? 8 cs).map (·, 9)
    else none

/-- How a text is written. -/
structure Quotes where
  mark : Char
  escapes : Bool
  severalLines : Bool
deriving DecidableEq, Repr

/-- What the reader of a text is about. -/
inductive Mode where
  | reading
  /-- Passes over the rest of an escape. -/
  | passing (left : Nat)
  /-- Looks for the end of a line that a backslash ends. -/
  | lineEnd
  /-- Passes over the white space behind such a line. -/
  | margin
deriving DecidableEq, Repr

/-- Does the rest begin with the end of a line? -/
def atLineEnd (cs : List Char) : Bool := cs.head? == some '\n' || cs.take 2 == ['\r', '\n']

/-- Reads to the end of a text; gives it with what is behind it. The characters read so far come
with the last one first. -/
def body (q : Quotes) : Mode → List Char → List Char → Option (List Char × List Char)
  | _, _, [] => none
  | .passing left, content, _ :: cs =>
    body q (if left ≤ 1 then .reading else .passing (left - 1)) content cs
  | .lineEnd, content, c :: cs =>
    if isBlank c || (c = '\r' && cs.head? = some '\n') then body q .lineEnd content cs
    else if c = '\n' then body q .margin content cs
    else none
  | mode, content, c :: cs =>
    if mode = .margin && (isBlank c || atLineEnd (c :: cs)) then body q .margin content cs
    else if c = q.mark then
      if !q.severalLines then some (content.reverse, cs)
      else
        match cs with
        | d :: e :: rest =>
          if d = q.mark && e = q.mark then
            let more := (rest.take 2).takeWhile (· = q.mark)
            some (content.reverse ++ more, rest.drop more.length)
          else body q .reading (c :: content) cs
        | _ => none
    else if c = '\\' && q.escapes then
      if q.severalLines && (cs.head?.any isBlank || atLineEnd cs) then body q .lineEnd content cs
      else
        match escape? cs with
        | none => none
        | some (d, length) => body q (.passing length) (d :: content) cs
    else if q.severalLines && c = '\n' then body q .reading (c :: content) cs
    else if q.severalLines && c = '\r' && cs.head? = some '\n' then body q .reading content cs
    else if isPlain c then body q .reading (c :: content) cs
    else none

/-- The rest without the end of a line that it begins with. -/
def dropLineEnd : List Char → List Char
  | '\n' :: cs => cs
  | '\r' :: '\n' :: cs => cs
  | cs => cs

/-- Reads a text of one line. -/
def shortText? : List Char → Option (List Char × List Char)
  | '"' :: cs => body ⟨'"', true, false⟩ .reading [] cs
  | '\'' :: cs => body ⟨'\'', false, false⟩ .reading [] cs
  | _ => none

/-- Reads a text. -/
def text? : List Char → Option (List Char × List Char)
  | '"' :: '"' :: '"' :: cs => body ⟨'"', true, true⟩ .reading [] (dropLineEnd cs)
  | '\'' :: '\'' :: '\'' :: cs => body ⟨'\'', false, true⟩ .reading [] (dropLineEnd cs)
  | cs => shortText? cs

/-- Passes over white space, comments and ends of lines. -/
def gap : Bool → List Char → List Char
  | _, [] => []
  | false, c :: cs =>
    if isBlank c || atLineEnd (c :: cs) then gap false cs
    else if c = '#' then gap true cs
    else c :: cs
  | true, c :: cs =>
    if atLineEnd (c :: cs) then gap false cs
    else if isPlain c then gap true cs
    else c :: cs

/-- Reads the items of a list, no more than `n`. -/
def items? : Nat → List String → List Char → Option (List String × List Char)
  | 0, _, _ => none
  | n + 1, items, cs =>
    match gap false cs with
    | ']' :: rest => some (items.reverse, rest)
    | cs =>
      match text? cs with
      | none => none
      | some (content, rest) =>
        let items := String.ofList content :: items
        match gap false rest with
        | ']' :: rest => some (items.reverse, rest)
        | ',' :: rest => items? n items rest
        | _ => none

/-- Reads a list of texts. -/
def list? : List Char → Option (List String × List Char)
  | '[' :: cs => items? (cs.length + 1) [] cs
  | _ => none

/-- Reads a key. -/
def key? (cs : List Char) : Option (String × List Char) :=
  match shortText? cs with
  | some (content, rest) => some (String.ofList content, rest)
  | none =>
    match cs.takeWhile isKeyChar with
    | [] => none
    | name => some (String.ofList name, cs.dropWhile isKeyChar)

/-- Passes over a comment and the end of the line, or of the document. -/
def endOfLine? (cs : List Char) : Option (List Char) :=
  let cs := cs.dropWhile isBlank
  let cs := if cs.head? = some '#' then cs.dropWhile isPlain else cs
  if cs.isEmpty || atLineEnd cs then some (dropLineEnd cs) else none

/-- What a document has given so far. -/
structure Entries where
  importMap : Option String
  exclude : Option (List String)
deriving DecidableEq, Repr, Inhabited

/-- Reads the value of a key. -/
def entry? (found : Entries) (key : String) (cs : List Char) : Option (Entries × List Char) :=
  if key = "import_map" && found.importMap.isNone then
    (text? cs).map fun (content, rest) =>
      ({ found with importMap := some (String.ofList content) }, rest)
  else if key = "exclude" && found.exclude.isNone then
    (list? cs).map fun (items, rest) => ({ found with exclude := some items }, rest)
  else none

/-- Reads the lines of a document, no more than `n`. -/
def lines? : Nat → Entries → List Char → Option Entries
  | 0, _, _ => none
  | n + 1, found, cs =>
    match cs.dropWhile isBlank with
    | [] => some found
    | c :: cs =>
      if c = '#' || atLineEnd (c :: cs) then
        match endOfLine? (c :: cs) with
        | none => none
        | some rest => lines? n found rest
      else
        match key? (c :: cs) with
        | none => none
        | some (key, rest) =>
          match rest.dropWhile isBlank with
          | '=' :: rest =>
            match entry? found key (rest.dropWhile isBlank) with
            | none => none
            | some (found, rest) =>
              match endOfLine? rest with
              | none => none
              | some rest => lines? n found rest
          | _ => none

/-- The entries of a document. A byte order mark may stand before it. -/
def entries? (document : String) : Option Entries :=
  let cs := document.toList
  let cs := if cs.head? = some '\ufeff' then cs.drop 1 else cs
  lines? (cs.length + 1) ⟨none, none⟩ cs

end RemoteIndex.Settings.Document
