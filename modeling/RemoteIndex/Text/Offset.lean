import RemoteIndex.Text.Position

/-!
# Byte offsets of positions

A position stands for an offset in the bytes of a text: that of its line, which begins behind so
many line feeds, and its column further on.
-/

namespace RemoteIndex.Position

/-- The byte that separates lines. -/
def lineFeed : UInt8 := 0x0A

/-- The offset at which a line of the text begins. -/
def lineStart : List UInt8 → Nat → Nat
  | _, 0 => 0
  | [], _ + 1 => 0
  | b :: bs, line + 1 => lineStart bs (if b = lineFeed then line else line + 1) + 1

/-- The offset of a position in the text. -/
def offset (bytes : List UInt8) (p : Position) : Nat := lineStart bytes p.line + p.column

end RemoteIndex.Position
