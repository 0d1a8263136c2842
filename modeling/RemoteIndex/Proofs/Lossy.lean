import RemoteIndex.Text.Utf8

/-!
# What decoding keeps

Bytes below `0x80` are characters of their own, and nothing else is shown as one of those. So a text
shows where such a byte is, whatever is broken around it. And the bytes of a text are read as the
text.
-/

namespace RemoteIndex.Text.Utf8

/-- Is the character one that a single byte stands for? -/
def isSingle (c : Char) : Bool := c.toNat < 0x80

theorem toNat_ofNat {n : Nat} (valid : n < 0xD800 ∨ 0xDFFF < n ∧ n < 0x110000) :
    (Char.ofNat n).toNat = n := by
  have valid : n.isValidChar := valid
  rw [Char.ofNat, dif_pos valid]
  rfl

theorem isSingle_ofNat {n : Nat} (large : 0x80 ≤ n)
    (valid : n < 0xD800 ∨ 0xDFFF < n ∧ n < 0x110000) : isSingle (Char.ofNat n) = false := by
  rw [isSingle, toNat_ofNat valid]
  simpa using large

/-- The bytes that may be second, by the first one. -/
theorem second_eq_true_iff {a b : UInt8} : second a b = true ↔
    0x80 ≤ b.toNat ∧ b.toNat ≤ 0xBF ∧ (a.toNat = 0xE0 → 0xA0 ≤ b.toNat) ∧
      (a.toNat = 0xED → b.toNat ≤ 0x9F) ∧ (a.toNat = 0xF0 → 0x90 ≤ b.toNat) ∧
      (a.toNat = 0xF4 → b.toNat ≤ 0x8F) := by
  have number {n : Nat} (byte : n < 0x100) : a = UInt8.ofNat n ↔ a.toNat = n := by
    rw [← UInt8.toNat_inj, UInt8.toNat_ofNat_of_lt' byte]
  have e0 : a = 0xE0 ↔ a.toNat = 0xE0 := number (by decide)
  have ed : a = 0xED ↔ a.toNat = 0xED := number (by decide)
  have f0 : a = 0xF0 ↔ a.toNat = 0xF0 := number (by decide)
  have f4 : a = 0xF4 ↔ a.toNat = 0xF4 := number (by decide)
  simp only [second, e0, ed, f0, f4]
  repeat' split
  all_goals
    simp only [continues, Bool.and_eq_true, decide_eq_true_eq, UInt8.le_iff_toNat_le,
      UInt8.toNat_ofNat]
    omega

theorem isSingle_two {a b : UInt8} (low : 0xC2 ≤ a.toNat) (high : a.toNat < 0xE0) :
    isSingle (Char.ofNat (extend (a.toNat % 32) b)) = false := by
  apply isSingle_ofNat <;> rw [extend] <;> omega

theorem isSingle_three {a b c : UInt8} (low : 0xE0 ≤ a.toNat) (high : a.toNat < 0xF0)
    (h : second a b = true) : isSingle (Char.ofNat (extend (extend (a.toNat % 16) b) c)) = false := by
  have := second_eq_true_iff.mp h
  apply isSingle_ofNat <;> rw [extend, extend] <;> omega

theorem isSingle_four {a b c d : UInt8} (low : 0xF0 ≤ a.toNat) (high : a.toNat ≤ 0xF4)
    (h : second a b = true) :
    isSingle (Char.ofNat (extend (extend (extend (a.toNat % 8) b) c) d)) = false := by
  have := second_eq_true_iff.mp h
  apply isSingle_ofNat <;> rw [extend, extend, extend] <;> omega

/-- The first piece of bytes is a character of one byte, or it is shown as no such character. -/
theorem pieces_cons (a : UInt8) (bs : List UInt8) :
    (a < 0x80 ∧ pieces (a :: bs) = .char (Char.ofNat a.toNat) :: pieces bs) ∨
      ∃ piece rest, pieces (a :: bs) = piece :: pieces rest ∧ rest <:+ bs ∧
        isSingle piece.shown = false := by
  have unshown (lead : List UInt8) : isSingle (Piece.broken lead).shown = false := rfl
  rw [pieces.eq_def]
  by_cases small : a < 0x80
  · exact .inl ⟨small, if_pos small⟩
  right
  simp only [if_neg small]
  split
  · exact ⟨_, bs, rfl, List.suffix_refl bs, unshown _⟩
  next lead =>
  simp only [UInt8.lt_iff_toNat_lt, not_or, Nat.not_lt, UInt8.toNat_ofNat] at lead
  rcases bs with _ | ⟨b, bs⟩
  · exact ⟨_, [], rfl, List.suffix_refl [], unshown _⟩
  dsimp only
  split
  · exact ⟨_, b :: bs, rfl, List.suffix_refl _, unshown _⟩
  next admitted =>
  rw [Bool.not_eq_true, Bool.not_eq_false'] at admitted
  split
  · next two =>
    refine ⟨_, bs, rfl, List.suffix_cons b bs, isSingle_two lead.1 ?_⟩
    simpa [UInt8.lt_iff_toNat_lt] using two
  next two =>
  simp only [UInt8.lt_iff_toNat_lt, UInt8.toNat_ofNat, Nat.not_lt] at two
  rcases bs with _ | ⟨c, bs⟩
  · exact ⟨_, [], rfl, List.nil_suffix, unshown _⟩
  dsimp only
  split
  · exact ⟨_, c :: bs, rfl, List.suffix_cons b _, unshown _⟩
  split
  · next three =>
    refine ⟨_, bs, rfl, ⟨[b, c], rfl⟩, isSingle_three two ?_ admitted⟩
    simpa [UInt8.lt_iff_toNat_lt] using three
  next three =>
  simp only [UInt8.lt_iff_toNat_lt, UInt8.toNat_ofNat, Nat.not_lt] at three
  rcases bs with _ | ⟨d, bs⟩
  · exact ⟨_, [], rfl, List.nil_suffix, unshown _⟩
  dsimp only
  split
  · exact ⟨_, d :: bs, rfl, ⟨[b, c], rfl⟩, unshown _⟩
  · exact ⟨_, bs, rfl, ⟨[b, c, d], rfl⟩, isSingle_four three lead.2 admitted⟩

/-- A byte that continues a character is no character of its own. -/
theorem continues_of_lt {b : UInt8} (small : b < 0x80) : continues b = false := by
  rw [UInt8.lt_iff_toNat_lt] at small
  have low : ¬ 0x80 ≤ b := by
    rw [UInt8.le_iff_toNat_le]
    exact Nat.not_le_of_lt small
  simp [continues, low]

theorem second_of_lt {a b : UInt8} (small : b < 0x80) : second a b = false := by
  rw [Bool.eq_false_iff]
  intro admitted
  have large := (second_eq_true_iff.mp admitted).1
  rw [UInt8.lt_iff_toNat_lt] at small
  exact Nat.not_le_of_lt small large

/-- Bytes are read apart at a character of one byte. -/
theorem pieces_append {b : UInt8} (small : b < 0x80) (bs cs : List UInt8) :
    pieces (bs ++ b :: cs) = pieces bs ++ pieces (b :: cs) := by
  have second (a : UInt8) := second_of_lt (a := a) small
  have third := continues_of_lt small
  fun_induction pieces bs with
  | case1 => rfl
  | _ =>
    -- A byte below `0x80` continues nothing, so that a piece ends before it as it does at the end.
    simp only [List.cons_append, List.nil_append] at *
    rw [pieces.eq_def]
    simp only [*, if_true, if_false, Bool.not_false, Bool.false_eq_true]

/-- What bytes are shown as: a byte below `0x80` as the character that it stands for, and any other
stretch of bytes as a character that no single byte stands for. -/
inductive Shows : List UInt8 → List Char → Prop
  | nil : Shows [] []
  | single {b : UInt8} {bs : List UInt8} {cs : List Char} : b < 0x80 → Shows bs cs →
      Shows (b :: bs) (Char.ofNat b.toNat :: cs)
  | broad {lead bs : List UInt8} {c : Char} {cs : List Char} : isSingle c = false → Shows bs cs →
      Shows (lead ++ bs) (c :: cs)

theorem toList_decodeLossy (bs : List UInt8) :
    (decodeLossy bs).toList = (pieces bs).map Piece.shown := String.toList_ofList

/-- Induction on the number of bytes, since a piece takes up several. -/
theorem shows_decodeLossy (bs : List UInt8) : Shows bs (decodeLossy bs).toList := by
  rw [toList_decodeLossy]
  induction size : bs.length using Nat.strongRecOn generalizing bs with
  | ind n ih =>
    cases bs with
    | nil =>
      rw [pieces]
      exact .nil
    | cons a bs =>
      rcases pieces_cons a bs with ⟨small, first⟩ | ⟨piece, rest, first, ⟨lead, rfl⟩, broad⟩
      · rw [first]
        exact .single small (ih bs.length (by simp [← size]) bs rfl)
      · have shorter : rest.length < n := by
          rw [← size, List.length_cons, List.length_append]
          omega
        rw [first]
        change Shows (a :: lead ++ rest) _
        exact .broad broad (ih rest.length shorter rest rfl)

variable {b : UInt8} {bs : List UInt8} {cs : List Char}

theorem toNat_single (small : b < 0x80) : (Char.ofNat b.toNat).toNat = b.toNat := by
  apply toNat_ofNat
  have less : b.toNat < 0x80 := UInt8.lt_iff_toNat_lt.mp small
  omega

theorem isSingle_of_lt (small : b < 0x80) : isSingle (Char.ofNat b.toNat) = true := by
  rw [isSingle, toNat_single small]
  exact decide_eq_true (UInt8.lt_iff_toNat_lt.mp small)

/-- Where a character of one byte is shown, that byte is. -/
theorem Shows.mem (h : Shows bs cs) (small : b < 0x80) (shown : Char.ofNat b.toNat ∈ cs) :
    b ∈ bs := by
  induction h with
  | nil => exact absurd shown List.not_mem_nil
  | @single a bs cs small' _ ih =>
    rcases List.mem_cons.mp shown with same | behind
    · have number := congrArg Char.toNat same
      rw [toNat_single small, toNat_single small'] at number
      rw [UInt8.toNat_inj.mp number]
      exact List.mem_cons_self
    · exact List.mem_cons_of_mem _ (ih behind)
  | broad broad _ ih =>
    rcases List.mem_cons.mp shown with same | behind
    · rw [← same, isSingle_of_lt small] at broad
      exact absurd broad (by simp)
    · exact List.mem_append_right _ (ih behind)

/-- Bytes that are shown as characters of one byte each are those bytes. -/
theorem Shows.eq (h : Shows bs cs) (singles : cs.all isSingle = true) :
    bs = cs.map fun c => UInt8.ofNat c.toNat := by
  induction h with
  | nil => rfl
  | @single a bs cs small _ ih =>
    rw [List.all_cons, Bool.and_eq_true] at singles
    rw [List.map_cons, toNat_single small, UInt8.ofNat_toNat, ← ih singles.2]
  | broad broad _ _ =>
    rw [List.all_cons, broad, Bool.false_and] at singles
    exact absurd singles (by simp)

/-- A character of one byte is shown between what is shown before it and behind it. -/
theorem decodeLossy_append (small : b < 0x80) (bs cs : List UInt8) :
    decodeLossy (bs ++ b :: cs) =
      decodeLossy bs ++ String.singleton (Char.ofNat b.toNat) ++ decodeLossy cs := by
  have first : pieces (b :: cs) = .char (Char.ofNat b.toNat) :: pieces cs := by
    rw [pieces.eq_def]
    exact if_pos small
  apply String.toList_injective
  simp [toList_decodeLossy, pieces_append small, first, Piece.shown]

/-! ## Texts -/

/-- The byte is no character, and it may begin one. -/
theorem begins_of_toNat {a : UInt8} (low : 0xC2 ≤ a.toNat) (high : a.toNat ≤ 0xF4) :
    ¬a < 0x80 ∧ ¬(a < 0xC2 ∨ 0xF4 < a) := by
  simp only [UInt8.lt_iff_toNat_lt, UInt8.toNat_ofNat]
  omega

theorem pieces_two {a b : UInt8} (low : 0xC2 ≤ a.toNat) (high : a.toNat < 0xE0)
    (h : second a b = true) (bs : List UInt8) :
    pieces (a :: b :: bs) = .char (Char.ofNat (extend (a.toNat % 32) b)) :: pieces bs := by
  obtain ⟨large, lead⟩ := begins_of_toNat low (by omega)
  have two : a < 0xE0 := by simpa only [UInt8.lt_iff_toNat_lt, UInt8.toNat_ofNat] using high
  rw [pieces.eq_def]
  simp only [large, lead, two, h, if_true, if_false, Bool.not_true, Bool.false_eq_true]

theorem pieces_three {a b c : UInt8} (low : 0xE0 ≤ a.toNat) (high : a.toNat < 0xF0)
    (h : second a b = true) (h' : continues c = true) (bs : List UInt8) :
    pieces (a :: b :: c :: bs) =
      .char (Char.ofNat (extend (extend (a.toNat % 16) b) c)) :: pieces bs := by
  obtain ⟨large, lead⟩ := begins_of_toNat (a := a) (by omega) (by omega)
  have two : ¬a < 0xE0 := by simpa only [UInt8.lt_iff_toNat_lt, UInt8.toNat_ofNat, Nat.not_lt]
  have three : a < 0xF0 := by simpa only [UInt8.lt_iff_toNat_lt, UInt8.toNat_ofNat] using high
  rw [pieces.eq_def]
  simp only [large, lead, two, three, h, h', if_true, if_false, Bool.not_true, Bool.false_eq_true]

theorem pieces_four {a b c d : UInt8} (low : 0xF0 ≤ a.toNat) (high : a.toNat ≤ 0xF4)
    (h : second a b = true) (h' : continues c = true) (h'' : continues d = true)
    (bs : List UInt8) :
    pieces (a :: b :: c :: d :: bs) =
      .char (Char.ofNat (extend (extend (extend (a.toNat % 8) b) c) d)) :: pieces bs := by
  obtain ⟨large, lead⟩ := begins_of_toNat (a := a) (by omega) high
  have two : ¬a < 0xE0 := by simp only [UInt8.lt_iff_toNat_lt, UInt8.toNat_ofNat]; omega
  have three : ¬a < 0xF0 := by simpa only [UInt8.lt_iff_toNat_lt, UInt8.toNat_ofNat, Nat.not_lt]
  rw [pieces.eq_def]
  simp only [large, lead, two, three, h, h', h'', if_false, Bool.not_true,
    Bool.false_eq_true]

theorem continues_eq_true_iff {b : UInt8} :
    continues b = true ↔ 0x80 ≤ b.toNat ∧ b.toNat ≤ 0xBF := by
  simp only [continues, Bool.and_eq_true, decide_eq_true_eq, UInt8.le_iff_toNat_le,
    UInt8.toNat_ofNat]

/-- The bytes of a character are read as that character. -/
theorem pieces_utf8EncodeChar (c : Char) (bs : List UInt8) :
    pieces (String.utf8EncodeChar c ++ bs) = .char c :: pieces bs := by
  have valid : c.val.toNat < 0xD800 ∨ 0xDFFF < c.val.toNat ∧ c.val.toNat < 0x110000 := c.valid
  -- What the payload bits of the bytes add up to is the number of the character.
  have same {n : Nat} (number : n = c.val.toNat) : Char.ofNat n = c := by
    rw [number]
    exact Char.ofNat_toNat c
  have byte {n : Nat} (small : n < 0x100) : (UInt8.ofNat n).toNat = n :=
    UInt8.toNat_ofNat_of_lt' small
  rw [String.utf8EncodeChar]
  split
  · next one =>
    have a := byte (n := c.val.toNat) (by omega)
    have small : UInt8.ofNat c.val.toNat < 0x80 := by
      simp only [UInt8.lt_iff_toNat_lt, a, UInt8.toNat_ofNat]
      omega
    rw [List.singleton_append, pieces.eq_def]
    simp only [small, if_true, same a]
  · split
    · next two =>
      have a := byte (n := c.val.toNat / 64 % 32 + 192) (by omega)
      have b := byte (n := c.val.toNat % 64 + 128) (by omega)
      refine (pieces_two ?_ ?_ ?_ bs).trans ?_
      · omega
      · omega
      · rw [second_eq_true_iff, a, b]
        omega
      · rw [same]
        rw [extend, a, b]
        omega
    · split
      · next three =>
        have a := byte (n := c.val.toNat / 4096 % 16 + 224) (by omega)
        have b := byte (n := c.val.toNat / 64 % 64 + 128) (by omega)
        have d := byte (n := c.val.toNat % 64 + 128) (by omega)
        refine (pieces_three ?_ ?_ ?_ ?_ bs).trans ?_
        · omega
        · omega
        · rw [second_eq_true_iff, a, b]
          omega
        · rw [continues_eq_true_iff, d]
          omega
        · rw [same]
          rw [extend, extend, a, b, d]
          omega
      · have a := byte (n := c.val.toNat / 262144 % 8 + 240) (by omega)
        have b := byte (n := c.val.toNat / 4096 % 64 + 128) (by omega)
        have d := byte (n := c.val.toNat / 64 % 64 + 128) (by omega)
        have e := byte (n := c.val.toNat % 64 + 128) (by omega)
        refine (pieces_four ?_ ?_ ?_ ?_ ?_ bs).trans ?_
        · omega
        · omega
        · rw [second_eq_true_iff, a, b]
          omega
        · rw [continues_eq_true_iff, d]
          omega
        · rw [continues_eq_true_iff, e]
          omega
        · rw [same]
          rw [extend, extend, extend, a, b, d, e]
          omega

/-- The bytes of a text are read as the text. -/
theorem decode?_encode (s : String) : decode? (encode s) = some s := by
  have characters (cs : List Char) :
      wholeText? (pieces (cs.flatMap String.utf8EncodeChar)) = some cs := by
    induction cs with
    | nil => rfl
    | cons c cs ih =>
      rw [List.flatMap_cons, pieces_utf8EncodeChar, wholeText?, ih, Option.map_some]
  rw [← String.ofList_toList (s := s), encode_ofList, decode?, characters, Option.map_some]

end RemoteIndex.Text.Utf8
