import RemoteIndex.Proofs.Grammar

/-!
# Reading what has been printed

A reader that takes a value gets it back from what is printed of it. A strict reader takes a value
that is not nested too deeply and has no number out of range; a skipping one takes every value, so
different values are never printed alike.
-/

namespace RemoteIndex.Json

/-! ## The tokens of a value are of the grammar -/

/-- A value with the tokens that it is printed with. -/
def printedItem (v : Json) : Item := ⟨v, v.tokens⟩

/-- A member with the tokens that it is printed with. -/
def printedMember (m : String × Json) : Member := ⟨m.1, true, printedItem m.2⟩

theorem itemTokens_eq (vs : List Json) :
    itemTokens vs = behindCommas ((vs.map printedItem).map Item.tokens) := by
  induction vs with
  | nil => rfl
  | cons v vs ih =>
    rw [itemTokens, ih]
    rfl

theorem memberTokens_eq (ms : List (String × Json)) :
    memberTokens ms = behindCommas ((ms.map printedMember).map Member.tokens) := by
  induction ms with
  | nil => rfl
  | cons m ms ih =>
    rw [memberTokens, ih]
    rfl

theorem map_value_printedItem (vs : List Json) : (vs.map printedItem).map Item.value = vs := by
  rw [List.map_map]
  exact List.map_id vs

theorem map_entry_printedMember (ms : List (String × Json)) :
    (ms.map printedMember).map Member.entry = ms := by
  rw [List.map_map]
  exact List.map_id ms

theorem forms_of_takes {mode : Mode} {opened : Nat} {v : Json} (h : Takes mode opened v) :
    Forms mode opened v v.tokens := by
  induction h with
  | null => exact .leaf .null
  | bool opened value => exact .leaf (.bool value)
  | ofNat opened taken => exact .leaf (.number taken)
  | text opened content => exact .leaf (.text (.inl rfl))
  | @list opened vs opens taken ih =>
    have items : ∀ i ∈ vs.map printedItem, Forms mode (opened + 1) i.value i.tokens :=
      List.forall_mem_map.mpr ih
    have forms := Forms.list opens items
    have written :
        (Json.list vs).tokens = bracketed '[' ']' ((vs.map printedItem).map Item.tokens) := by
      cases vs with
      | nil => rfl
      | cons v vs =>
        rw [tokens, itemTokens_eq]
        rfl
    rwa [map_value_printedItem, ← written] at forms
  | @object opened ms opens taken ih =>
    have whole : ∀ m ∈ ms.map printedMember, mode.Admits m.whole :=
      List.forall_mem_map.mpr fun m _ => .inl rfl
    have forms := Forms.object opens whole (List.forall_mem_map.mpr ih)
    have written : (Json.object ms).tokens =
        bracketed '\x7b' '\x7d' ((ms.map printedMember).map Member.tokens) := by
      cases ms with
      | nil => rfl
      | cons m ms =>
        rw [tokens, memberTokens_eq]
        rfl
    rwa [map_entry_printedMember, ← written] at forms

/-! ## Numbers -/

open Numeral (Kept maxKept)

/-- Digits that write a number of 64 bits are all kept. -/
theorem whole_eq_ofDigitChars {cs : List Char} {n : Nat}
    (fits : Nat.ofDigitChars 10 cs n ≤ maxKept) :
    Kept.whole ⟨n, 0⟩ cs = ⟨Nat.ofDigitChars 10 cs n, 0⟩ := by
  induction cs generalizing n with
  | nil => rfl
  | cons c cs ih =>
    rw [Nat.ofDigitChars_cons] at fits ⊢
    have next : n * 10 + Numeral.digit c = 10 * n + (c.toNat - '0'.toNat) := by
      rw [Nat.mul_comm]
      rfl
    have grows : 10 * n + (c.toNat - '0'.toNat) ≤
        Nat.ofDigitChars 10 cs (10 * n + (c.toNat - '0'.toNat)) := by
      rw [Nat.ofDigitChars_eq_ofDigitChars_zero]
      exact Nat.le_add_right_of_le (Nat.le_mul_of_pos_left _ (Nat.pow_pos (by decide)))
    have kept : n * 10 + Numeral.digit c ≤ maxKept := next ▸ Nat.le_trans grows fits
    rw [Kept.whole]
    simp only [decide_true, Bool.true_and, decide_eq_true kept, if_true]
    rw [next, ih fits]

theorem isFinite_toString {n : Nat} (fits : n ≤ maxKept) :
    Numeral.isFinite (toString n).toList [] [] false = true := by
  have kept : Kept.whole ⟨0, 0⟩ (toString n).toList = ⟨n, 0⟩ := by
    rw [Nat.toString_eq_ofList_toDigits, String.toList_ofList,
      whole_eq_ofDigitChars (Nat.ofDigitChars_ten_toDigits.symm ▸ fits),
      Nat.ofDigitChars_ten_toDigits]
  rw [Numeral.isFinite, kept]
  simp [Kept.fraction, Kept.isFinite]

/-! ## Documents -/

variable {mode : Mode} {v w : Json}

/-- A document that a value is printed on has the tokens of the value. -/
theorem tokensOf_print (h : Takes mode 0 v) : tokensOf (v.print ++ "\n") = v.tokens := by
  have shown := h.showsTokens 0 ['\n'] (endsNumeral_cons (by decide))
  rw [tokensOf, String.toList_append, print, String.toList_ofList]
  refine shown.trans ?_
  rw [scan_space rfl, Token.scan, List.append_nil]

theorem readValue_print (h : Takes mode 0 v) :
    readValue mode (tokensOf (v.print ++ "\n")) = .ok (v, []) := by
  rw [tokensOf_print h]
  exact readValue_eq_ok.mpr ⟨v.tokens, (List.append_nil _).symm, forms_of_takes h⟩

/-- What is printed of a value is one document, and its value is the one that was printed. -/
theorem parse_print (h : Takes (.strict maxDepth) 0 v) : parse (v.print ++ "\n") = .ok v := by
  rw [parse, readValue_print h]

/-- Different values are not printed alike. -/
theorem print_inj (hv : Takes .skipping 0 v) (hw : Takes .skipping 0 w) :
    v.print = w.print ↔ v = w := by
  constructor
  · intro alike
    have read := readValue_print hv
    rw [alike, readValue_print hw] at read
    cases read
    rfl
  · exact congrArg print

end RemoteIndex.Json
