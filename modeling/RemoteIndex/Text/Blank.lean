/-!
# Blank characters

The characters with the Unicode property White_Space, and the few more that a script may put
between two tokens.
-/

namespace RemoteIndex.Text

/-- The Unicode property White_Space. -/
def isBlank (c : Char) : Bool :=
  let n := c.toNat
  (0x09 ≤ n && n ≤ 0x0D) || n = 0x20 || n = 0x85 || n = 0xA0 || n = 0x1680
    || (0x2000 ≤ n && n ≤ 0x200A) || n = 0x2028 || n = 0x2029 || n = 0x202F || n = 0x205F
    || n = 0x3000

/-- White space of a script: blank characters and three that have no width. -/
def isGap (c : Char) : Bool :=
  isBlank c || c.toNat = 0xFEFF || c.toNat = 0x2060 || c.toNat = 0x200B

/-- The text without its leading blank characters. -/
def dropBlank (cs : List Char) : List Char := cs.dropWhile isBlank

end RemoteIndex.Text
