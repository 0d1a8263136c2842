import RemoteIndex.Text.Blank

/-!
# Characters and keywords of a script
-/

namespace RemoteIndex.Script

/-- Punctuation, quotes and brackets: the characters no name contains. -/
def isPunctuation (c : Char) : Bool :=
  c ∈ [':', ';', '\x60', '"', '\'', '@', '.', ',', '|', '^', '&', '<', '=', '>', '+', '-', '*', '/',
    '%', '?', '!', '~', '(', ')', '[', ']', '\x7b', '\x7d']

/-- Characters of names and numbers: whatever is neither a gap, nor a control character, nor
punctuation. -/
def isWordChar (c : Char) : Bool :=
  !Text.isGap c && 0x20 ≤ c.toNat && !isPunctuation c

/-- The characters that end a line comment. -/
def endsLine (c : Char) : Bool :=
  c = '\n' || c = '\r' || c.toNat = 0x2028 || c.toNat = 0x2029 || c.toNat = 0

/-- Is `c` a hexadecimal digit? -/
def isHexDigit (c : Char) : Bool :=
  c.isDigit || ('a' ≤ c && c ≤ 'f') || ('A' ≤ c && c ≤ 'F')

/-- Keywords after which an operand has to follow. -/
def isOperatorWord (name : String) : Bool :=
  name ∈ ["return", "typeof", "instanceof", "in", "new", "delete", "void", "throw", "case", "do",
    "else", "await", "yield", "extends", "default", "export", "try", "finally"]

/-- Names after which an operand has to follow where they stand behind an operand or in a type. -/
def isContextualWord (name : String) : Bool :=
  name ∈ ["of", "as", "satisfies", "is", "keyof", "infer", "readonly", "unique", "asserts"]

/-- Keywords whose parenthesised head is followed by a statement. -/
def isControlWord (name : String) : Bool :=
  name ∈ ["if", "while", "for", "with"]

/-- Keywords that are never the name of anything. -/
def isReservedWord (name : String) : Bool :=
  name ∈ ["break", "case", "catch", "class", "const", "continue", "debugger", "delete", "do",
    "else", "enum", "extends", "false", "finally", "for", "function", "if", "in", "instanceof",
    "new", "null", "return", "super", "switch", "this", "throw", "true", "try", "var", "void",
    "while", "with"]

end RemoteIndex.Script
