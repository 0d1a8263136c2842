import RemoteIndex.Text.Runs

/-!
# Numeric addresses

A host may be given by its number instead of its name: in one to four parts separated by dots, or
between square brackets in groups of hexadecimal digits separated by colons.
-/

namespace RemoteIndex.Url.Address

/-- Is `c` a hexadecimal digit? -/
def isHex (c : Char) : Bool :=
  c.isDigit || ('a' ≤ c && c ≤ 'f') || ('A' ≤ c && c ≤ 'F')

/-- The number with the given digits in the given base. -/
def ofDigits (base : Nat) (digits : List Char) : Nat :=
  digits.foldl (fun n c => n * base + Text.hexValue c) 0

/-- One part of a dotted address: decimal, octal behind `0`, or hexadecimal behind `0x`, where no
digit at all means zero. -/
def part? : List Char → Option Nat
  | [] => none
  | '0' :: 'x' :: digits => if digits.all isHex then some (ofDigits 16 digits) else none
  | '0' :: 'X' :: digits => if digits.all isHex then some (ofDigits 16 digits) else none
  | ['0'] => some 0
  | '0' :: digits =>
    if digits.all fun c => '0' ≤ c && c ≤ '7' then some (ofDigits 8 digits) else none
  | digits => if digits.all Char.isDigit then some (ofDigits 10 digits) else none

/-- The parts without an empty one at the end, unless it is the only one. -/
def dropEmptyLast (parts : List (List Char)) : List (List Char) :=
  match parts.reverse with
  | [] :: p :: rest => (p :: rest).reverse
  | _ => parts

/-- Does the last label, an empty one apart, look like a number? Then the host is an address. -/
def endsInNumber (labels : List (List Char)) : Bool :=
  match (dropEmptyLast labels).getLast? with
  | none => false
  | some last => (!last.isEmpty && last.all Char.isDigit) || (part? last).isSome

/-- The number of a dotted address. Every part but the last is one byte, and the last one fills the
bytes that are left. -/
def dotted? (labels : List (List Char)) : Option Nat := do
  let parts ← (dropEmptyLast labels).mapM part?
  let last ← parts.getLast?
  let bytes := parts.dropLast
  if 3 < bytes.length || bytes.any (255 < ·) || Nat.pow 256 (4 - bytes.length) ≤ last then none
  return bytes.zipIdx.foldl (fun n (byte, i) => n + byte * Nat.pow 256 (3 - i)) last

/-- A group of one to four hexadecimal digits. -/
def group? (digits : List Char) : Option Nat :=
  if 1 ≤ digits.length ∧ digits.length ≤ 4 ∧ digits.all isHex then some (ofDigits 16 digits)
  else none

/-- A byte in decimal digits, without leading zeros. -/
def byte? (digits : List Char) : Option Nat :=
  let n := ofDigits 10 digits
  if digits.isEmpty ∨ !digits.all Char.isDigit ∨ (digits.head? = some '0' ∧ 1 < digits.length)
    ∨ 255 < n then none
  else some n

/-- The two groups of a dotted address at the end of a bracketed one. -/
def dottedGroups? (digits : List Char) : Option (List Nat) :=
  match (Text.pieces '.' digits).mapM byte? with
  | some [a, b, c, d] => some [a * 256 + b, c * 256 + d]
  | _ => none

/-- The groups of a list of pieces, the last of which may be a dotted address. -/
def groups? : List (List Char) → Option (List Nat)
  | [] => some []
  | [piece] => ((group? piece).map fun n => [n]).or (dottedGroups? piece)
  | piece :: rest => do return (← group? piece) :: (← groups? rest)

/-- What stands before and behind the first `::`. -/
def splitGap? : List Char → Option (List Char × List Char)
  | [] => none
  | ':' :: ':' :: rest => some ([], rest)
  | c :: cs => (splitGap? cs).map fun (before, behind) => (c :: before, behind)

/-- The pieces between colons; none in an empty text. -/
def groupPieces (cs : List Char) : List (List Char) :=
  if cs.isEmpty then [] else Text.pieces ':' cs

/-- The eight groups of a bracketed address, without its brackets. A `::` stands for at least one
group of zeros. -/
def bracketed? (cs : List Char) : Option (List Nat) :=
  match splitGap? cs with
  | none => do
    let groups ← groups? (groupPieces cs)
    if groups.length = 8 then some groups else none
  | some (before, behind) => do
    let left ← (groupPieces before).mapM group?
    let right ← groups? (groupPieces behind)
    if left.length + right.length ≤ 7 then
      some (left ++ List.replicate (8 - left.length - right.length) 0 ++ right)
    else none

end RemoteIndex.Url.Address
