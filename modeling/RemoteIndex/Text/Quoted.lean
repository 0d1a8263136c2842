import RemoteIndex.Text.Property.Printable
import RemoteIndex.Text.Utf8

/-!
# Quoted texts

A text in a message stands between double quotes. What cannot be seen in it is escaped: the usual
controls by a letter, everything unprintable, and every character that would attach itself to the
one before, by its code point in braces. Which quotes are escaped depends on what is quoted.
-/

namespace RemoteIndex.Text

/-- Which quotes are escaped besides the double one. -/
structure QuoteStyle where
  single : Bool
deriving Repr

namespace Quoted

/-- Texts escape the double quote only. -/
def textStyle : QuoteStyle := ⟨false⟩

/-- File names escape both quotes. -/
def pathStyle : QuoteStyle := ⟨true⟩

/-- The letter that stands behind the backslash for a character that has one. -/
def letter? (style : QuoteStyle) (c : Char) : Option Char :=
  if c = '\x00' then some '0'
  else if c = '\t' then some 't'
  else if c = '\r' then some 'r'
  else if c = '\n' then some 'n'
  else if c = '\\' then some '\\'
  else if c = '"' then some '"'
  else if c = '\'' then if style.single then some '\'' else none
  else none

/-- Does the character stand for itself? -/
def isPlain (c : Char) : Bool :=
  if 0x20 ≤ c.toNat ∧ c.toNat < 0x7F then true
  else !Property.extending.has c && !Property.unprintable.has c

/-- A character as it stands in a quoted text. -/
def char (style : QuoteStyle) (c : Char) : List Char :=
  match letter? style c with
  | some l => ['\\', l]
  | none =>
    if isPlain c then [c]
    else ['\\', 'u', '\x7b'] ++ Nat.toDigits 16 c.toNat ++ ['\x7d']

/-- A byte that is part of no character. -/
def byte (b : UInt8) : List Char :=
  let digit (n : Nat) : Char := (Nat.digitChar n).toUpper
  ['\\', 'x', digit (b.toNat / 16), digit (b.toNat % 16)]

/-- A piece of a file name as it stands between quotes. -/
def piece : Utf8.Piece → List Char
  | .char c => char pathStyle c
  | .broken bytes => bytes.flatMap byte

end Quoted

/-- A text between quotes. -/
def quote (s : String) : String :=
  String.ofList ('"' :: s.toList.flatMap (Quoted.char Quoted.textStyle) ++ ['"'])

/-- The bytes of a file name between quotes. -/
def quoteBytes (bytes : List UInt8) : String :=
  String.ofList ('"' :: (Utf8.pieces bytes).flatMap Quoted.piece ++ ['"'])

end RemoteIndex.Text
