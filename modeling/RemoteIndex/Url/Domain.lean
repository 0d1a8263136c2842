import RemoteIndex.Url.Domain.Direction
import RemoteIndex.Url.Domain.Joining
import RemoteIndex.Url.Domain.Mapping
import RemoteIndex.Url.Domain.Mark
import RemoteIndex.Url.Punycode

/-!
# Domain names

A domain name is mapped, composed, and cut into labels at its dots; labels that begin with `xn--`
are decoded. What comes out is the list of labels in their proper characters, or nothing where the
name breaks a rule: about the characters of a label, their directions, or its joiners.
-/

namespace RemoteIndex.Url.Domain

/-- ASCII characters that no domain name contains. -/
def isForbidden (c : Char) : Bool :=
  c.toNat ≤ 0x20 || c.toNat = 0x7F
    || c ∈ ['%', '#', '/', ':', '<', '>', '?', '@', '[', '\\', ']', '^', '|']

/-- The image of a text under the mapping, where every character has one. -/
def mapText? : List Char → Option (List Char)
  | [] => some []
  | c :: cs => do return (← mapChar? c) ++ (← mapText? cs)

/-- Is the character an ASCII character? -/
def isAscii (c : Char) : Bool := c.toNat < 0x80

/-- The longest encoded label that is decoded. -/
def longestEncoded : Nat := 2000

/-- The longest label beyond ASCII. -/
def longestLabel : Nat := 1000

/-- What the text behind `xn--` stands for. It has to be something that could not have been written
without, in valid characters and composed. -/
def decodeLabel? (encoded : List Char) : Option (List Char) :=
  if longestEncoded < encoded.length then none
  else
    match Punycode.decode? encoded with
    | none => none
    | some label =>
      if label.all isAscii || !label.all isValid || composed label ≠ label then none
      else some label

/-- A label in its proper characters. -/
def properLabel? : List Char → Option (List Char)
  | 'x' :: 'n' :: '-' :: '-' :: encoded => decodeLabel? encoded
  | label => some label

/-- The rules for a single label. -/
def isSound (label : List Char) : Bool :=
  !label.head?.any isMark && joinersAllowed [] label
    && (label.all isAscii || label.length ≤ longestLabel)

/-- Does a character of the label run from right to left? -/
def isRightToLeft (label : List Char) : Bool :=
  label.any fun c => (Direction.of c).isRightToLeft

/-- The labels of a domain name. -/
def labels? (name : List Char) : Option (List (List Char)) := do
  let mapped ← mapText? name
  if mapped.any isForbidden then none
  let labels ← (Text.pieces '.' (composed mapped)).mapM properLabel?
  if !labels.all isSound then none
  if labels.any isRightToLeft && !labels.all suitsDirections then none
  return labels

end RemoteIndex.Url.Domain
