import RemoteIndex.Json.Value

/-!
# Printing documents

A value is printed over several lines, two blanks deeper for every level; an empty list or object
stays on its line. Texts escape quotes, backslashes and control characters and nothing else.
-/

namespace RemoteIndex.Json

namespace Printer

/-- A character within a text. -/
def char (c : Char) : List Char :=
  if c = '"' then ['\\', '"']
  else if c = '\\' then ['\\', '\\']
  else if c = '\x08' then ['\\', 'b']
  else if c = '\t' then ['\\', 't']
  else if c = '\n' then ['\\', 'n']
  else if c = '\x0c' then ['\\', 'f']
  else if c = '\r' then ['\\', 'r']
  else if c.toNat < 0x20 then
    ['\\', 'u', '0', '0', Nat.digitChar (c.toNat / 16), Nat.digitChar (c.toNat % 16)]
  else [c]

/-- A text between its quotes. -/
def text (content : String) : List Char := '"' :: content.toList.flatMap char ++ ['"']

/-- The beginning of a line. -/
def newline (level : Nat) : List Char := '\n' :: List.replicate (2 * level) ' '

mutual

/-- A value that begins in a line of the given level. -/
def value (level : Nat) : Json → List Char
  | .null => ['n', 'u', 'l', 'l']
  | .bool true => ['t', 'r', 'u', 'e']
  | .bool false => ['f', 'a', 'l', 's', 'e']
  | .number numeral => numeral.toList
  | .text content => text content
  | .list [] => ['[', ']']
  | .list (v :: vs) =>
    '[' :: newline (level + 1) ++ value (level + 1) v ++ items (level + 1) vs ++ newline level ++ [']']
  | .object [] => ['\x7b', '\x7d']
  | .object ((k, v) :: ms) =>
    '\x7b' :: newline (level + 1) ++ text k ++ [':', ' '] ++ value (level + 1) v
      ++ members (level + 1) ms ++ newline level ++ ['\x7d']

/-- The items behind the first one. -/
def items (level : Nat) : List Json → List Char
  | [] => []
  | v :: vs => ',' :: newline level ++ value level v ++ items level vs

/-- The members behind the first one. -/
def members (level : Nat) : List (String × Json) → List Char
  | [] => []
  | (k, v) :: ms => ',' :: newline level ++ text k ++ [':', ' '] ++ value level v ++ members level ms

end

end Printer

/-- The document of a value. -/
def print (v : Json) : String := String.ofList (Printer.value 0 v)

end RemoteIndex.Json
