/-!
# Punycode

The part of a label behind `xn--` holds its ASCII characters, a hyphen, and then, as numbers of
variable length, how far to move on and to which character before the next one is inserted.
-/

namespace RemoteIndex.Url.Punycode

/-- The value of a digit: letters first, then numerals. -/
def digit? (c : Char) : Option Nat :=
  if 'a' ≤ c ∧ c ≤ 'z' then some (c.toNat - 'a'.toNat)
  else if 'A' ≤ c ∧ c ≤ 'Z' then some (c.toNat - 'A'.toNat)
  else if '0' ≤ c ∧ c ≤ '9' then some (c.toNat - '0'.toNat + 26)
  else none

/-- The least value of the digit at place `k` that is followed by another digit. -/
def threshold (k bias : Nat) : Nat :=
  if k ≤ bias then 1 else if bias + 26 ≤ k then 26 else k - bias

/-- Divide by 35 until the quotient is small, counting by 36. -/
def shrink (delta k : Nat) : Nat × Nat :=
  if 455 < delta then shrink (delta / 35) (k + 36) else (delta, k)
termination_by delta

/-- The bias behind a move by `delta` that made the text `count` characters long. -/
def adapt (delta count : Nat) (first : Bool) : Nat :=
  let scaled := if first then delta / 700 else delta / 2
  let (rest, k) := shrink (scaled + scaled / count) 0
  k + 36 * rest / (rest + 38)

/-- Read a number from its digits; `weight` is the weight of the next digit, `k` its place. The
text behind the number comes along. -/
def number? (bias : Nat) : (k weight value : Nat) → List Char → Option (Nat × List Char)
  | _, _, _, [] => none
  | k, weight, value, c :: cs =>
    match digit? c with
    | none => none
    | some d =>
      let value := value + d * weight
      let t := threshold k bias
      if d < t then some (value, cs) else number? bias (k + 36) (weight * (36 - t)) value cs

theorem length_lt_of_number? {bias : Nat} {cs : List Char} {k weight value n : Nat}
    {rest : List Char} (h : number? bias k weight value cs = some (n, rest)) :
    rest.length < cs.length := by
  induction cs generalizing k weight value with
  | nil => simp [number?] at h
  | cons c cs ih =>
    rw [number?] at h
    split at h
    · simp at h
    · dsimp only at h
      split at h
      · obtain ⟨_, rfl⟩ := Prod.mk.inj (Option.some.inj h)
        simp
      · exact Nat.lt_succ_of_lt (ih h)

/-- Is `n` the code point of a character? -/
def isCodePoint (n : Nat) : Bool := n < 0xD800 || (0xDFFF < n && n < 0x110000)

/-- Insert the characters that `cs` describes into `text`. `point` is the last one inserted, `place`
where the next would go. -/
def insertAll (text : List Char) (point place bias : Nat) (cs : List Char) : Option (List Char) :=
  if cs.isEmpty then some text
  else
    match h : number? bias 36 1 0 cs with
    | none => none
    | some (delta, rest) =>
      let count := text.length + 1
      let total := place + delta
      let point := point + total / count
      let place := total % count
      if isCodePoint point then
        insertAll (text.take place ++ Char.ofNat point :: text.drop place) point (place + 1)
          (adapt delta count (text.all (·.toNat < 0x80))) rest
      else none
termination_by cs.length
decreasing_by exact length_lt_of_number? h

/-- The ASCII characters of an encoded label, and the rest behind the last hyphen. -/
def split (cs : List Char) : List Char × List Char :=
  let tail := (cs.reverse.takeWhile (· ≠ '-')).reverse
  if tail.length = cs.length then ([], cs) else (cs.take (cs.length - tail.length - 1), tail)

/-- The label that `cs`, without its `xn--`, stands for. -/
def decode? (cs : List Char) : Option (List Char) :=
  let (ascii, rest) := split cs
  if ascii.all (·.toNat < 0x80) then insertAll ascii 128 0 72 rest else none

end RemoteIndex.Url.Punycode
