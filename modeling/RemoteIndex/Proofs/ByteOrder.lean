import RemoteIndex.Text.Utf8

/-!
# The order of texts and of their bytes

Texts are ordered by their characters, one after the other. UTF-8 keeps that order: the texts come
in the order of their bytes just as well.
-/

namespace RemoteIndex.Text.Utf8

theorem ofNat_cons_lt_iff {a b : Nat} (ha : a < 0x100) (hb : b < 0x100) {as bs : List UInt8} :
    UInt8.ofNat a :: as < UInt8.ofNat b :: bs ↔ a < b ∨ a = b ∧ as < bs := by
  rw [List.cons_lt_cons_iff, UInt8.lt_iff_toNat_lt, ← UInt8.toNat_inj,
    UInt8.toNat_ofNat_of_lt' ha, UInt8.toNat_ofNat_of_lt' hb]

/-- Of two numbers, the smaller one is smaller at the first place, to the base of 64, where they
differ. -/
theorem places_of_lt {m n : Nat} (h : m < n) :
    m / 262144 < n / 262144 ∨ m / 262144 = n / 262144 ∧
      (m / 4096 % 64 < n / 4096 % 64 ∨ m / 4096 % 64 = n / 4096 % 64 ∧
        (m / 64 % 64 < n / 64 % 64 ∨ m / 64 % 64 = n / 64 % 64 ∧ m % 64 < n % 64)) := by
  have place {a b : Nat} (h : a < b) : a / 64 < b / 64 ∨ a / 64 = b / 64 ∧ a % 64 < b % 64 := by
    omega
  have two (a : Nat) : a / 4096 = a / 64 / 64 := (Nat.div_div_eq_div_mul a 64 64).symm
  have three (a : Nat) : a / 262144 = a / 64 / 64 / 64 := by
    rw [Nat.div_div_eq_div_mul, Nat.div_div_eq_div_mul]
  rw [two, two, three, three]
  rcases place h with first | ⟨same, last⟩
  · rcases place first with first | ⟨same', last⟩
    · rcases place first with first | ⟨same'', last⟩
      · exact .inl first
      · exact .inr ⟨same'', .inl last⟩
    · rw [same']
      exact .inr ⟨rfl, .inr ⟨rfl, .inl last⟩⟩
  · rw [same]
    exact .inr ⟨rfl, .inr ⟨rfl, .inr ⟨rfl, last⟩⟩⟩

/-- The bytes of a smaller character come first, whatever is behind. -/
theorem utf8EncodeChar_append_lt {c d : Char} (h : c < d) (bs cs : List UInt8) :
    String.utf8EncodeChar c ++ bs < String.utf8EncodeChar d ++ cs := by
  have less : c.val.toNat < d.val.toNat := h
  have inside : d.val.toNat < 0x110000 := by
    rcases d.valid with low | high
    · exact Nat.lt_trans low (by decide)
    · exact high.2
  rw [String.utf8EncodeChar, String.utf8EncodeChar]
  generalize c.val.toNat = m at less
  generalize d.val.toNat = n at less inside
  have places := places_of_lt less
  have lead {k : Nat} (small : k < 0x110000) : k / 262144 % 8 = k / 262144 :=
    Nat.mod_eq_of_lt (by omega)
  have leadOfLess := lead (Nat.lt_trans less inside)
  have leadOfMore := lead inside
  -- The first byte tells how many there are; among equally many the first difference counts.
  repeat' split
  all_goals
    simp (disch := omega) only [List.cons_append, List.nil_append, ofNat_cons_lt_iff]
    omega

theorem encode_lt_encode_of_lt {s t : String} (h : s < t) : encode s < encode t := by
  rw [String.lt_iff] at h
  rw [← String.ofList_toList (s := s), ← String.ofList_toList (s := t), encode_ofList,
    encode_ofList]
  generalize s.toList = cs at h
  generalize t.toList = ds at h
  induction cs generalizing ds with
  | nil =>
    cases ds with
    | nil => exact absurd h (List.lt_irrefl _)
    | cons d ds =>
      obtain ⟨b, bs, bytes⟩ := List.exists_cons_of_ne_nil (String.utf8EncodeChar_ne_nil (c := d))
      rw [List.flatMap_cons, bytes]
      exact List.nil_lt_cons b _
  | cons c cs ih =>
    cases ds with
    | nil => exact absurd h (List.not_lt_nil _)
    | cons d ds =>
      rw [List.flatMap_cons, List.flatMap_cons]
      rcases List.cons_lt_cons_iff.mp h with less | ⟨rfl, less⟩
      · exact utf8EncodeChar_append_lt less _ _
      · exact List.append_left_lt (ih ds less)

/-- The order of texts is that of their bytes. -/
theorem encode_lt_encode_iff {s t : String} : encode s < encode t ↔ s < t := by
  constructor
  · intro h
    rcases Std.lt_trichotomy s t with less | rfl | less
    · exact less
    · exact absurd h (List.lt_irrefl _)
    · exact absurd h (List.lt_asymm (encode_lt_encode_of_lt less))
  · exact encode_lt_encode_of_lt

/-- Different texts have different bytes. -/
theorem encode_injective {s t : String} (h : encode s = encode t) : s = t := by
  rcases Std.lt_trichotomy s t with less | same | less
  · exact absurd (h ▸ encode_lt_encode_of_lt less) (List.lt_irrefl _)
  · exact same
  · exact absurd (h ▸ encode_lt_encode_of_lt less) (List.lt_irrefl _)

end RemoteIndex.Text.Utf8
