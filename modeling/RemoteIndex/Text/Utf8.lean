/-!
# UTF-8

Bytes are read as UTF-8 piece by piece. A piece is a character, or a longest beginning of one that
its next byte breaks off; a byte that begins no character is a broken piece of its own.
-/

namespace RemoteIndex.Text.Utf8

/-- A piece of a byte sequence. -/
inductive Piece where
  | char (c : Char)
  | broken (bytes : List UInt8)
deriving DecidableEq, Repr, Inhabited

/-- Is `b` a byte that continues a character? -/
def continues (b : UInt8) : Bool := 0x80 ≤ b && b ≤ 0xBF

/-- May `b` follow the first byte `a`? Some first bytes admit fewer second bytes, so that no
character has two forms, none is a surrogate, and none is too large. -/
def second (a b : UInt8) : Bool :=
  if a = 0xE0 then 0xA0 ≤ b && b ≤ 0xBF
  else if a = 0xED then 0x80 ≤ b && b ≤ 0x9F
  else if a = 0xF0 then 0x90 ≤ b && b ≤ 0xBF
  else if a = 0xF4 then 0x80 ≤ b && b ≤ 0x8F
  else continues b

/-- The number that the payload bits of a continuing byte add to `n`. -/
def extend (n : Nat) (b : UInt8) : Nat := n * 64 + b.toNat % 64

/-- The pieces of a byte sequence. -/
def pieces : List UInt8 → List Piece
  | [] => []
  | a :: bs =>
    if a < 0x80 then .char (Char.ofNat a.toNat) :: pieces bs
    else if a < 0xC2 ∨ 0xF4 < a then .broken [a] :: pieces bs
    else
      match bs with
      | [] => [.broken [a]]
      | b :: cs =>
        if !second a b then .broken [a] :: pieces (b :: cs)
        else if a < 0xE0 then .char (Char.ofNat (extend (a.toNat % 32) b)) :: pieces cs
        else
          match cs with
          | [] => [.broken [a, b]]
          | c :: ds =>
            if !continues c then .broken [a, b] :: pieces (c :: ds)
            else if a < 0xF0 then
              .char (Char.ofNat (extend (extend (a.toNat % 16) b) c)) :: pieces ds
            else
              match ds with
              | [] => [.broken [a, b, c]]
              | d :: es =>
                if !continues d then .broken [a, b, c] :: pieces (d :: es)
                else
                  .char (Char.ofNat (extend (extend (extend (a.toNat % 8) b) c) d)) :: pieces es

/-- The character a piece is shown as. -/
def Piece.shown : Piece → Char
  | .char c => c
  | .broken _ => '\ufffd'

/-- The text of a byte sequence, with a replacement character for every broken piece. -/
def decodeLossy (bytes : List UInt8) : String := String.ofList ((pieces bytes).map Piece.shown)

/-- The characters of pieces none of which is broken. -/
def wholeText? : List Piece → Option (List Char)
  | [] => some []
  | .char c :: rest => (wholeText? rest).map (c :: ·)
  | .broken _ :: _ => none

/-- The text of a byte sequence that is UTF-8 throughout. -/
def decode? (bytes : List UInt8) : Option String :=
  (wholeText? (pieces bytes)).map String.ofList

/-- The bytes of a text. -/
def encode (s : String) : List UInt8 := s.toUTF8.data.toList

/-- How many bytes a text takes up. -/
def width (cs : List Char) : Nat := (encode (String.ofList cs)).length

theorem encode_ofList (cs : List Char) :
    encode (String.ofList cs) = cs.flatMap String.utf8EncodeChar := by
  simp [encode, List.utf8Encode]

theorem encode_append (s t : String) : encode (s ++ t) = encode s ++ encode t := by
  simp [encode]

theorem length_encode (s : String) : (encode s).length = s.utf8ByteSize := by
  simp [encode]

@[simp]
theorem width_nil : width [] = 0 := by
  simp [width, encode]

theorem width_cons (c : Char) (cs : List Char) : width (c :: cs) = c.utf8Size + width cs := by
  rw [width, width, encode_ofList, encode_ofList, List.flatMap_cons, List.length_append,
    String.length_utf8EncodeChar]

theorem width_append (cs ds : List Char) : width (cs ++ ds) = width cs + width ds := by
  rw [width, String.ofList_append, encode_append, List.length_append, width, width]

theorem width_pos {cs : List Char} (nonempty : cs ≠ []) : 0 < width cs := by
  cases cs with
  | nil => exact absurd rfl nonempty
  | cons c cs =>
    rw [width_cons]
    exact Nat.add_pos_left c.utf8Size_pos _

theorem width_eq_zero {cs : List Char} : width cs = 0 ↔ cs = [] := by
  constructor
  · intro zero
    by_cases nothing : cs = []
    · exact nothing
    · exact absurd zero (Nat.ne_of_gt (width_pos nothing))
  · rintro rfl
    exact width_nil

end RemoteIndex.Text.Utf8
