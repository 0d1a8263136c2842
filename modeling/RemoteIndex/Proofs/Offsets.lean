import Mathlib.Data.List.Induction
import RemoteIndex.Text.Offset
import RemoteIndex.Text.Utf8

/-!
# Positions and byte offsets

Reading a text from its beginning leads to the position whose offset is the length of what has been
read.
-/

namespace RemoteIndex.Position

open Text.Utf8

/-- The offset at which a line begins, if the text has as many lines. -/
def lineStart? : List UInt8 → Nat → Option Nat
  | _, 0 => some 0
  | [], _ + 1 => none
  | b :: bs, line + 1 => (lineStart? bs (if b = lineFeed then line else line + 1)).map (· + 1)

/-- The offset that a position stands for. -/
def offset? (bytes : List UInt8) (p : Position) : Option Nat :=
  (lineStart? bytes p.line).map (· + p.column)

theorem lineStart_eq_of_lineStart? {bytes : List UInt8} {line start : Nat}
    (h : lineStart? bytes line = some start) : lineStart bytes line = start := by
  fun_induction lineStart? bytes line generalizing start with
  | case1 bytes =>
    rw [lineStart]
    exact Option.some.inj h
  | case2 => exact absurd h (by simp)
  | case3 b bs line ih =>
    obtain ⟨before, begins, rfl⟩ := Option.map_eq_some_iff.mp h
    rw [lineStart, ih begins]

theorem offset_eq_of_offset? {bytes : List UInt8} {p : Position} {n : Nat}
    (h : offset? bytes p = some n) : offset bytes p = n := by
  obtain ⟨start, begins, rfl⟩ := Option.map_eq_some_iff.mp h
  rw [offset, lineStart_eq_of_lineStart? begins]

theorem advanceBy_concat (p : Position) (cs : List Char) (c : Char) :
    p.advanceBy (cs ++ [c]) = (p.advanceBy cs).advance c := by
  rw [advanceBy_append, advanceBy_cons, advanceBy_nil]

theorem encode_concat (cs : List Char) (c : Char) :
    encode (String.ofList (cs ++ [c])) = encode (String.ofList cs) ++ String.utf8EncodeChar c := by
  rw [encode_ofList, encode_ofList, List.flatMap_append, List.flatMap_singleton]

theorem utf8EncodeChar_newline : String.utf8EncodeChar '\n' = [lineFeed] := rfl

theorem lineFeed_ne_ofNat {n : Nat} (byte : n < 0x100) (other : n ≠ 0x0A) :
    lineFeed ≠ UInt8.ofNat n := by
  intro same
  have number : lineFeed.toNat = n % 0x100 := by rw [same, UInt8.toNat_ofNat']
  have feed : lineFeed.toNat = 0x0A := rfl
  omega

/-- No other character contains a line feed: it is a byte of its own, or all its bytes are large. -/
theorem lineFeed_notMem {c : Char} (other : c ≠ '\n') : lineFeed ∉ String.utf8EncodeChar c := by
  have number : c.val.toNat ≠ 0x0A := fun same => other (Char.ext (UInt32.toNat_inj.mp same))
  intro member
  rw [String.utf8EncodeChar] at member
  split at member
  · next small =>
    exact lineFeed_ne_ofNat (by omega) number (List.mem_singleton.mp member)
  · split at member
    · simp only [List.mem_cons, List.not_mem_nil, or_false] at member
      rcases member with same | same <;> exact lineFeed_ne_ofNat (by omega) (by omega) same
    · split at member
      · simp only [List.mem_cons, List.not_mem_nil, or_false] at member
        rcases member with same | same | same <;>
          exact lineFeed_ne_ofNat (by omega) (by omega) same
      · simp only [List.mem_cons, List.not_mem_nil, or_false] at member
        rcases member with same | same | same | same <;>
          exact lineFeed_ne_ofNat (by omega) (by omega) same

/-- Behind a line feed a line begins, whose number is that of the line feeds before it. -/
theorem lineStart?_behind (bytes rest : List UInt8) :
    lineStart? (bytes ++ lineFeed :: rest) (bytes.count lineFeed + 1) =
      some (bytes.length + 1) := by
  induction bytes with
  | nil => simp [lineStart?]
  | cons b bytes ih =>
    by_cases feed : b = lineFeed
    · simp [lineStart?, feed, ih]
    · simp [lineStart?, feed, List.count_cons_of_ne, ih]

theorem line_advanceBy (cs : List Char) :
    (origin.advanceBy cs).line = (encode (String.ofList cs)).count lineFeed := by
  induction cs using List.reverseRecOn with
  | nil => rfl
  | append_singleton cs c ih =>
    rw [advanceBy_concat, encode_concat, List.count_append, ← ih, advance]
    by_cases newline : c = '\n'
    · rw [newline, utf8EncodeChar_newline]
      simp
    · rw [if_neg newline, List.count_eq_zero.mpr (lineFeed_notMem newline)]
      rfl

/-- The position behind the beginning of a text stands for the length of this beginning. -/
theorem offset?_advanceBy (cs rest : List Char) :
    offset? (encode (String.ofList (cs ++ rest))) (origin.advanceBy cs) =
      some (encode (String.ofList cs)).length := by
  induction cs using List.reverseRecOn generalizing rest with
  | nil => simp [offset?, origin, lineStart?, encode]
  | append_singleton cs c ih =>
    rw [List.append_assoc, List.singleton_append, advanceBy_concat, advance]
    by_cases newline : c = '\n'
    · have before : encode (String.ofList (cs ++ c :: rest)) =
          encode (String.ofList cs) ++ lineFeed :: encode (String.ofList rest) := by
        simp only [encode_ofList, List.flatMap_append, List.flatMap_cons, newline,
          utf8EncodeChar_newline, List.singleton_append]
      rw [if_pos newline, before, offset?, line_advanceBy, lineStart?_behind, encode_concat,
        newline, utf8EncodeChar_newline]
      simp
    · have found := ih (c :: rest)
      rw [offset?, Option.map_eq_some_iff] at found
      obtain ⟨start, begins, column⟩ := found
      rw [if_neg newline, offset?, begins, encode_concat, List.length_append,
        String.length_utf8EncodeChar, ← column, Nat.add_assoc]
      rfl

theorem offset_advanceBy (cs rest : List Char) :
    offset (encode (String.ofList (cs ++ rest))) (origin.advanceBy cs) = width cs :=
  offset_eq_of_offset? (offset?_advanceBy cs rest)

/-! ## Byte by byte -/

/-- The position behind a byte. -/
def advanceByte (p : Position) (b : UInt8) : Position :=
  if b = lineFeed then ⟨p.line + 1, 0⟩ else ⟨p.line, p.column + 1⟩

section

variable {p : Position} {c : Char} {cs : List Char}

theorem foldl_advanceByte_of_notMem {bytes : List UInt8} (other : lineFeed ∉ bytes) :
    bytes.foldl advanceByte p = ⟨p.line, p.column + bytes.length⟩ := by
  induction bytes generalizing p with
  | nil => rfl
  | cons b bytes ih =>
    rw [List.mem_cons, not_or] at other
    rw [List.foldl_cons, ih other.2, advanceByte, if_neg (Ne.symm other.1), List.length_cons]
    simp only [Nat.add_assoc, Nat.add_comm 1]

theorem advance_eq_foldl : p.advance c = (String.utf8EncodeChar c).foldl advanceByte p := by
  by_cases newline : c = '\n'
  · subst newline
    rfl
  · rw [foldl_advanceByte_of_notMem (lineFeed_notMem newline), advance, if_neg newline,
      String.length_utf8EncodeChar]

theorem advanceBy_eq_foldl :
    p.advanceBy cs = (encode (String.ofList cs)).foldl advanceByte p := by
  rw [encode_ofList]
  induction cs generalizing p with
  | nil => rfl
  | cons c cs ih =>
    rw [advanceBy_cons, ih, List.flatMap_cons, List.foldl_append, advance_eq_foldl]

/-- On one line, a text takes up as many columns as it has bytes. -/
theorem advanceBy_of_notMem (inLine : '\n' ∉ cs) (p : Position) :
    p.advanceBy cs = p.along cs := by
  refine advanceBy_eq_foldl.trans (foldl_advanceByte_of_notMem ?_)
  rw [encode_ofList, List.mem_flatMap]
  rintro ⟨c, member, feed⟩
  have other : c ≠ '\n' := fun same => inLine (same ▸ member)
  exact lineFeed_notMem other feed

end

end RemoteIndex.Position
