/-!
# Numerals of documents

A numeral has digits, perhaps digits behind a point, perhaps an exponent. A reader keeps the
leading digits that fit into 64 bits and scales them in binary floating point, so it refuses a
numeral whose scaled value would be infinite. The rule is stated here in whole numbers.
-/

namespace RemoteIndex.Json.Numeral

/-- The largest number that 64 bits hold. -/
def maxKept : Nat := Nat.pow 2 64 - 1

/-- The largest power of ten that is scaled by at once. -/
def maxScale : Nat := 308

/-- The largest exponent that is told apart from larger ones. -/
def maxExponent : Nat := Nat.pow 2 31 - 1

/-- The nearest number with 53 significant bits; a half goes to the even neighbour. -/
def round (n : Nat) : Nat :=
  let size := n.log2 + 1
  if size ≤ 53 then n
  else
    let unit := Nat.pow 2 (size - 53)
    let kept := n / unit
    let rest := n % unit
    if unit < 2 * rest ∨ (unit = 2 * rest ∧ kept % 2 = 1) then (kept + 1) * unit else kept * unit

/-- The first number that rounds to infinity: half a unit above the largest finite one. -/
def infinite : Nat := Nat.pow 2 1024 - Nat.pow 2 970

/-- What has been kept of a numeral: a number and the power of ten to scale it by. -/
structure Kept where
  significand : Nat
  scale : Int
deriving DecidableEq, Repr

/-- The value of a decimal digit. -/
def digit (c : Char) : Nat := c.toNat - '0'.toNat

/-- Reads the digits before the point. Once a digit does not fit, the rest only count. -/
def Kept.whole (k : Kept) : List Char → Kept
  | [] => k
  | c :: cs =>
    let next := k.significand * 10 + digit c
    if k.scale = 0 && next ≤ maxKept then Kept.whole ⟨next, 0⟩ cs
    else Kept.whole ⟨k.significand, k.scale + 1⟩ cs

/-- Reads the digits behind the point, until one does not fit. -/
def Kept.fraction (k : Kept) : List Char → Kept
  | [] => k
  | c :: cs =>
    let next := k.significand * 10 + digit c
    if next ≤ maxKept then Kept.fraction ⟨next, k.scale - 1⟩ cs else k

/-- Is the scaled value finite? -/
def Kept.isFinite (k : Kept) : Bool :=
  k.significand = 0 || k.scale ≤ 0
    || (k.scale ≤ maxScale && round k.significand * round (Nat.pow 10 k.scale.toNat) < infinite)

/-- Can the numeral with these digits before and behind the point and in its exponent be kept? An
exponent beyond counting makes everything but zero infinite, or else zero. -/
def isFinite (whole fraction exponent : List Char) (negativeExponent : Bool) : Bool :=
  let kept := (Kept.whole ⟨0, 0⟩ whole).fraction fraction
  let power := exponent.foldl (fun n c => min (n * 10 + digit c) (maxExponent + 1)) 0
  if maxExponent < power then negativeExponent || kept.significand = 0
  else
    let power : Int := if negativeExponent then -power else power
    Kept.isFinite ⟨kept.significand, kept.scale + power⟩

end RemoteIndex.Json.Numeral
