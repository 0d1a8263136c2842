import RemoteIndex.Proofs.Numerals

/-!
# How tokens are spelled

The tokens of a document without a broken one are what its characters spell, and there are many ways
to spell them: white space is free between tokens, and most characters of a text can be escaped. The
grammar says so without a reader in mind; the tokenizer finds exactly the tokens that it allows.
-/

namespace RemoteIndex.Json.Token

/-! ## Texts -/

/-- Four hexadecimal digits. -/
structure IsUnit (digits : List Char) : Prop where
  length : digits.length = 4
  hexadecimal : ∀ d ∈ digits, isHexDigit d = true

/-- The first half of a surrogate pair. -/
def IsHigh (n : Nat) : Prop := 0xD800 ≤ n ∧ n < 0xDC00

/-- The second half of a surrogate pair. -/
def IsLow (n : Nat) : Prop := 0xDC00 ≤ n ∧ n < 0xE000

/-- The character that the halves of a surrogate pair stand for. -/
def paired (n m : Nat) : Char := Char.ofNat (0x10000 + (n - 0xD800) * 0x400 + (m - 0xDC00))

/-- An escape by four digits, with what is behind it. -/
def unit (digits behind : List Char) : List Char := '\\' :: 'u' :: (digits ++ behind)

/-- `Spells whole part content whole'`: between the quotes of a text, `part` spells `content`. The
text was `whole` before and is `whole'` behind it; it is no longer once half a surrogate pair stands
alone, and what digits stand for does not matter from there on. -/
inductive Spells : Bool → List Char → List Char → Bool → Prop
  | done {whole : Bool} : Spells whole [] [] whole
  | plain {whole last : Bool} {c : Char} {part content : List Char} :
      c ≠ '"' → c ≠ '\\' → ¬c.toNat < 0x20 → Spells whole part content last →
      Spells whole (c :: part) (c :: content) last
  | letter {whole last : Bool} {letter c : Char} {part content : List Char} :
      escaped? letter = some c → Spells whole part content last →
      Spells whole ('\\' :: letter :: part) (c :: content) last
  | digits {whole last : Bool} {digits part content : List Char} :
      IsUnit digits →
      (whole = true → ¬IsHigh (Text.hexNumber digits) ∧ ¬IsLow (Text.hexNumber digits)) →
      Spells whole part content last →
      Spells whole (unit digits part) (Char.ofNat (Text.hexNumber digits) :: content) last
  | pair {last : Bool} {first second part content : List Char} :
      IsUnit first → IsUnit second → IsHigh (Text.hexNumber first) →
      IsLow (Text.hexNumber second) → Spells true part content last →
      Spells true (unit first (unit second part))
        (paired (Text.hexNumber first) (Text.hexNumber second) :: content) last
  | half {last : Bool} {digits part content : List Char} :
      IsUnit digits →
      IsLow (Text.hexNumber digits) ∨ IsHigh (Text.hexNumber digits) ∧
        (∀ second behind, part = unit second behind → IsUnit second →
          ¬IsLow (Text.hexNumber second)) →
      Spells false part content last → Spells true (unit digits part) content last

theorem utf8Size_of_isHexDigit {c : Char} (h : isHexDigit c = true) : c.utf8Size = 1 := by
  simp only [isHexDigit, Char.isDigit, Bool.or_eq_true, Bool.and_eq_true, decide_eq_true_eq,
    Char.le_def, UInt32.le_iff_toNat_le] at h
  rw [Char.utf8Size_eq_one_iff, UInt32.le_iff_toNat_le]
  have upper : 'f'.val.toNat = 102 := rfl
  have capital : 'F'.val.toNat = 70 := rfl
  have digit : '9'.val.toNat = 57 := rfl
  have bound : (127 : UInt32).toNat = 127 := rfl
  omega

theorem size_of_hexadecimal {cs : List Char} (h : ∀ d ∈ cs, isHexDigit d = true) :
    (cs.map Char.utf8Size).foldl (· + ·) 0 = cs.length := by
  rw [← List.sum_eq_foldl_nat]
  induction cs with
  | nil => rfl
  | cons c cs ih =>
    obtain ⟨here, behind⟩ := List.forall_mem_cons.mp h
    rw [List.map_cons, List.sum_cons, utf8Size_of_isHexDigit here, ih behind, List.length_cons,
      Nat.add_comm]

theorem fourDigits_eq_ok {cs : List Char} {n : Nat} :
    fourDigits cs = .ok n ↔
      ∃ digits behind, cs = digits ++ behind ∧ IsUnit digits ∧ Text.hexNumber digits = n := by
  constructor
  · intro h
    simp only [fourDigits] at h
    split at h
    · exact absurd h (by simp)
    · next long =>
      split at h
      · next all =>
        have hexadecimal : ∀ d ∈ cs.take 4, isHexDigit d = true := List.all_eq_true.mp all
        rw [size_of_hexadecimal hexadecimal, List.length_take] at long
        refine ⟨cs.take 4, cs.drop 4, (List.take_append_drop 4 cs).symm, ⟨?_, hexadecimal⟩,
          Except.ok.inj h⟩
        rw [List.length_take]
        omega
      · exact absurd h (by simp)
  · rintro ⟨digits, behind, rfl, ⟨length, hexadecimal⟩, rfl⟩
    have next : (digits ++ behind).take 4 = digits := List.take_left' length
    simp only [fourDigits, next]
    rw [if_neg (by rw [size_of_hexadecimal hexadecimal, length]; decide),
      if_pos (List.all_eq_true.mpr hexadecimal)]

/-- The digits of an escape are passed over. -/
theorem scan_digits_append {digits : List Char} {left : Nat} (length : digits.length = left + 1)
    (content : List Char) (whole : Bool) (rest : List Char) :
    scan (.digits (left + 1) content whole) (digits ++ rest) = scan (.text content whole) rest := by
  induction left generalizing digits with
  | zero =>
    obtain ⟨d, rfl⟩ := List.length_eq_one_iff.mp length
    rfl
  | succ left ih =>
    obtain ⟨d, digits, rfl⟩ := List.exists_cons_of_length_eq_add_one length
    rw [List.cons_append, scan, if_neg (by omega), Nat.add_sub_cancel]
    exact ih (Nat.succ.inj length)

/-- Behind `\u` and digits the tokenizer goes on as `unicode` says. -/
theorem scan_unit {digits : List Char} (h : IsUnit digits) (content behind : List Char)
    (whole : Bool) :
    scan (.text content whole) (unit digits behind) =
      (unicode content whole (Text.hexNumber digits) (digits ++ behind)).elim
        (fun state => scan state (digits ++ behind)) fun token => [token] := by
  have read := fourDigits_eq_ok.mpr ⟨digits, behind, rfl, h, rfl⟩
  have opened : scan (.text content whole) (unit digits behind) =
      scan (.escape content whole) ('u' :: (digits ++ behind)) := rfl
  rw [opened, scan, if_pos rfl, read]
  cases begun : unicode content whole (Text.hexNumber digits) (digits ++ behind) with
  | inl state => simp only [begun, Sum.elim_inl]
  | inr token => simp only [begun, Sum.elim_inr]

variable {n m : Nat} {content cs : List Char} {whole : Bool}

theorem unicode_single (single : whole = true → ¬IsHigh n ∧ ¬IsLow n) :
    unicode content whole n cs = .inl (.digits 4 (Char.ofNat n :: content) whole) := by
  rw [unicode, if_pos]
  cases whole with
  | false => rfl
  | true =>
    obtain ⟨noHigh, noLow⟩ := single rfl
    rw [IsHigh] at noHigh
    rw [IsLow] at noLow
    simp only [Bool.or_eq_true, decide_eq_true_eq]
    omega

theorem unicode_low (low : IsLow n) :
    unicode content true n cs = .inl (.digits 4 content false) := by
  obtain ⟨above, below⟩ := low
  rw [unicode, if_neg, if_pos above]
  simp only [Bool.or_eq_true, decide_eq_true_eq]
  simp
  omega

/-- Behind the first half of a pair, everything depends on what follows its digits. -/
theorem unicode_high (high : IsHigh n) :
    unicode content true n cs =
      match cs.drop 4 with
      | [] => .inr (textComplaint true .unfinished)
      | '\\' :: [] => .inr (textComplaint true .unfinished)
      | '\\' :: 'u' :: rest =>
        match fourDigits rest with
        | .error fault => .inr (textComplaint true fault)
        | .ok m =>
          if 0xDC00 ≤ m && m < 0xE000 then .inl (.digits 10 (paired n m :: content) true)
          else .inl (.digits 4 content false)
      | _ => .inl (.digits 4 content false) := by
  obtain ⟨above, below⟩ := high
  rw [unicode, if_neg, if_neg (by omega)]
  · rfl
  · simp only [Bool.or_eq_true, decide_eq_true_eq]
    simp
    omega

/-- Behind both halves of a pair, the text has one more character. -/
theorem unicode_pair {first second behind : List Char} (four : IsUnit first)
    (four' : IsUnit second) (high : IsHigh (Text.hexNumber first))
    (low : IsLow (Text.hexNumber second)) :
    unicode content true (Text.hexNumber first) (first ++ unit second behind) =
      .inl (.digits 10 (paired (Text.hexNumber first) (Text.hexNumber second) :: content)
        true) := by
  have read := fourDigits_eq_ok.mpr ⟨second, behind, rfl, four', rfl⟩
  rw [unicode_high high, List.drop_left' four.length, unit]
  simp only [read]
  rw [if_pos]
  simp only [Bool.and_eq_true, decide_eq_true_eq]
  exact low

/-- Behind the first half of a pair that has no second one, the text is not whole. -/
theorem unicode_half {digits part rest : List Char} {last : Bool} (four : IsUnit digits)
    (high : IsHigh n)
    (lonely : ∀ second behind, part = unit second behind → IsUnit second →
      ¬IsLow (Text.hexNumber second))
    (h : Spells false part cs last) :
    unicode content true n (digits ++ (part ++ '"' :: rest)) =
      .inl (.digits 4 content false) := by
  rw [unicode_high high, List.drop_left' four.length]
  cases h with
  | done => rfl
  | @plain _ _ c part _ _ noBackslash _ _ =>
    rw [List.cons_append]
    split
    · next nothing => exact absurd nothing (by simp)
    · next same => exact absurd (List.cons.inj same).1 noBackslash
    · next same => exact absurd (List.cons.inj same).1 noBackslash
    · rfl
  | @letter _ _ letter c part _ escaped _ =>
    rw [List.cons_append, List.cons_append]
    split
    · next nothing => exact absurd nothing (by simp)
    · next alone => exact absurd alone (by simp)
    · next same =>
      obtain rfl : letter = 'u' := (List.cons.inj (List.cons.inj same).2).1
      simp [escaped?] at escaped
    · rfl
  | @digits _ _ second behind _ four' _ _ =>
    have read := fourDigits_eq_ok.mpr ⟨second, behind ++ '"' :: rest, rfl, four', rfl⟩
    have alone := lonely second behind rfl four'
    rw [unit, List.cons_append, List.cons_append, List.append_assoc]
    simp only [read]
    rw [if_neg]
    rw [IsLow] at alone
    simp only [Bool.and_eq_true, decide_eq_true_eq]
    exact alone

/-- How a text that begins with `part` is read: its content is what the part spells. -/
theorem scan_spells {whole last : Bool} {part content : List Char}
    (h : Spells whole part content last) (done rest : List Char) :
    scan (.text done whole) (part ++ '"' :: rest) =
      .text (String.ofList (done.reverse ++ content)) last :: scan .between rest := by
  induction h generalizing done with
  | done =>
    rw [List.append_nil]
    rfl
  | plain noQuote noBackslash visible _ ih =>
    rw [List.cons_append, scan, if_neg noQuote, if_neg noBackslash, if_neg visible, ih]
    simp
  | @letter whole last letter c part content escaped _ ih =>
    have noUnit : letter ≠ 'u' := by
      rintro rfl
      simp [escaped?] at escaped
    have opened : scan (.text done whole) ('\\' :: letter :: part ++ '"' :: rest) =
        scan (.escape done whole) (letter :: (part ++ '"' :: rest)) := rfl
    rw [opened, scan, if_neg noUnit, escaped]
    simp only [ih, List.reverse_cons, List.append_assoc, List.singleton_append]
  | @digits whole last digits part content four single _ ih =>
    have ahead : unit digits part ++ '"' :: rest = unit digits (part ++ '"' :: rest) := by
      simp [unit]
    have read : unicode done whole (Text.hexNumber digits) (digits ++ (part ++ '"' :: rest)) =
        .inl (.digits 4 (Char.ofNat (Text.hexNumber digits) :: done) whole) := unicode_single single
    rw [ahead, scan_unit four, read]
    simp only [Sum.elim_inl, scan_digits_append four.length, ih, List.reverse_cons,
      List.append_assoc, List.singleton_append]
  | @pair last first second part content four four' high low _ ih =>
    have ahead : unit first (unit second part) ++ '"' :: rest =
        unit first (unit second (part ++ '"' :: rest)) := by simp [unit]
    have ten : (first ++ '\\' :: 'u' :: second).length = 9 + 1 := by
      simp [four.length, four'.length]
    have passed : first ++ unit second (part ++ '"' :: rest) =
        (first ++ '\\' :: 'u' :: second) ++ (part ++ '"' :: rest) := by simp [unit]
    rw [ahead, scan_unit four, unicode_pair four four' high low, Sum.elim_inl, passed,
      scan_digits_append ten, ih, List.reverse_cons, List.append_assoc]
    rfl
  | @half last digits part content four alone behind ih =>
    have ahead : unit digits part ++ '"' :: rest = unit digits (part ++ '"' :: rest) := by
      simp [unit]
    have read : unicode done true (Text.hexNumber digits) (digits ++ (part ++ '"' :: rest)) =
        .inl (.digits 4 done false) := by
      rcases alone with low | ⟨high, lonely⟩
      · exact unicode_low low
      · exact unicode_half four high lonely behind
    rw [ahead, scan_unit four, read]
    simp only [Sum.elim_inl, scan_digits_append four.length, ih]

/-- What follows is not the second half of a surrogate pair. -/
def NoLow (behind : List Char) : Prop :=
  ∀ second further, behind = unit second further → IsUnit second →
    ¬IsLow (Text.hexNumber second)

/-- Behind the first half of a pair the text is broken off, or the second half follows, or it does
not. -/
theorem unicode_high_cases {digits behind : List Char} (four : IsUnit digits) (high : IsHigh n) :
    (∃ token, unicode content true n (digits ++ behind) = .inr token ∧ ¬token.IsSound) ∨
      (∃ second further, behind = unit second further ∧ IsUnit second ∧
        IsLow (Text.hexNumber second)) ∨
      unicode content true n (digits ++ behind) = .inl (.digits 4 content false) ∧
        NoLow behind := by
  rw [unicode_high high, List.drop_left' four.length]
  split
  · exact .inl ⟨_, rfl, id⟩
  · exact .inl ⟨_, rfl, id⟩
  · next rest =>
    cases read : fourDigits rest with
    | error fault => exact .inl ⟨_, rfl, id⟩
    | ok m =>
      obtain ⟨second, further, rfl, four', rfl⟩ := fourDigits_eq_ok.mp read
      dsimp only
      split
      · next low =>
        rw [Bool.and_eq_true, decide_eq_true_eq, decide_eq_true_eq] at low
        exact .inr (.inl ⟨second, further, rfl, four', low⟩)
      · next other =>
        rw [Bool.and_eq_true, decide_eq_true_eq, decide_eq_true_eq] at other
        refine .inr (.inr ⟨rfl, ?_⟩)
        intro second' further' same four''
        have parts : second ++ further = second' ++ further' := by simpa [unit] using same
        rwa [← (List.append_inj parts (four'.length.trans four''.length.symm)).1]
  · next cs nothing alone opened =>
    refine .inr (.inr ⟨rfl, ?_⟩)
    intro second further same
    exact absurd same (opened _)

/-- The text is spelled up to its closing quote. -/
def Closes (whole : Bool) (cs : List Char) : Prop :=
  ∃ part content last rest, cs = part ++ '"' :: rest ∧ Spells whole part content last

theorem Closes.plain {c : Char} (h : Closes whole cs) (noQuote : c ≠ '"') (noBackslash : c ≠ '\\')
    (visible : ¬c.toNat < 0x20) : Closes whole (c :: cs) := by
  obtain ⟨part, content, last, rest, rfl, spells⟩ := h
  exact ⟨c :: part, _, last, rest, rfl, .plain noQuote noBackslash visible spells⟩

theorem Closes.letter {letter c : Char} (h : Closes whole cs) (escaped : escaped? letter = some c) :
    Closes whole ('\\' :: letter :: cs) := by
  obtain ⟨part, content, last, rest, rfl, spells⟩ := h
  exact ⟨'\\' :: letter :: part, _, last, rest, rfl, .letter escaped spells⟩

theorem Closes.digits {digits : List Char} (h : Closes whole cs) (four : IsUnit digits)
    (single : whole = true → ¬IsHigh (Text.hexNumber digits) ∧ ¬IsLow (Text.hexNumber digits)) :
    Closes whole (unit digits cs) := by
  obtain ⟨part, content, last, rest, rfl, spells⟩ := h
  exact ⟨unit digits part, _, last, rest, by simp [unit], .digits four single spells⟩

theorem Closes.pair {first second : List Char} (h : Closes true cs) (four : IsUnit first)
    (four' : IsUnit second) (high : IsHigh (Text.hexNumber first))
    (low : IsLow (Text.hexNumber second)) : Closes true (unit first (unit second cs)) := by
  obtain ⟨part, content, last, rest, rfl, spells⟩ := h
  exact ⟨unit first (unit second part), _, last, rest, by simp [unit],
    .pair four four' high low spells⟩

theorem Closes.half {digits : List Char} (h : Closes false cs) (four : IsUnit digits)
    (alone : IsLow (Text.hexNumber digits) ∨ IsHigh (Text.hexNumber digits) ∧ NoLow cs) :
    Closes true (unit digits cs) := by
  obtain ⟨part, content, last, rest, rfl, spells⟩ := h
  refine ⟨unit digits part, content, last, rest, by simp [unit], .half four ?_ spells⟩
  refine alone.imp_right fun ⟨high, lonely⟩ => ⟨high, fun second behind same four' => ?_⟩
  exact lonely second (behind ++ '"' :: rest) (by simp [same, unit]) four'

/-- If an escape by digits is read on to the end of the text, the text is spelled. -/
theorem closes_unit {digits behind done : List Char} (four : IsUnit digits)
    (sound : ∀ t ∈ scan (.text done whole) (unit digits behind), t.IsSound)
    (further : ∀ whole done cs, cs.length ≤ behind.length →
      (∀ t ∈ scan (.text done whole) cs, t.IsSound) → Closes whole cs) :
    Closes whole (unit digits behind) := by
  rw [scan_unit four] at sound
  by_cases single : whole = true →
      ¬IsHigh (Text.hexNumber digits) ∧ ¬IsLow (Text.hexNumber digits)
  · rw [unicode_single single, Sum.elim_inl, scan_digits_append four.length] at sound
    exact (further _ _ _ (Nat.le_refl _) sound).digits four single
  · obtain ⟨rfl, surrogate⟩ := Classical.not_imp.mp single
    by_cases low : IsLow (Text.hexNumber digits)
    · rw [unicode_low low, Sum.elim_inl, scan_digits_append four.length] at sound
      exact (further _ _ _ (Nat.le_refl _) sound).half four (.inl low)
    · have high : IsHigh (Text.hexNumber digits) :=
        Classical.byContradiction fun noHigh => surrogate ⟨noHigh, low⟩
      have follows : (∃ token, unicode done true (Text.hexNumber digits) (digits ++ behind) =
            .inr token ∧ ¬token.IsSound) ∨ _ := unicode_high_cases four high
      rcases follows with
        ⟨token, broken, unsound⟩ | ⟨second, more, rfl, four', low'⟩ | ⟨alone, lonely⟩
      · rw [broken] at sound
        exact absurd (sound token List.mem_cons_self) unsound
      · have ten : (digits ++ '\\' :: 'u' :: second).length = 9 + 1 := by
          simp [four.length, four'.length]
        have passed : digits ++ unit second more = (digits ++ '\\' :: 'u' :: second) ++ more := by
          simp [unit]
        rw [unicode_pair four four' high low', Sum.elim_inl, passed,
          scan_digits_append ten] at sound
        refine (further _ _ _ ?_ sound).pair four four' high low'
        simp only [unit, List.length_cons, List.length_append]
        omega
      · rw [alone, Sum.elim_inl, scan_digits_append four.length] at sound
        exact (further _ _ _ (Nat.le_refl _) sound).half four (.inr ⟨high, lonely⟩)

/-- A text that is read to its end is spelled up to its closing quote. -/
theorem closes_of_sound (whole : Bool) (done cs : List Char)
    (sound : ∀ t ∈ scan (.text done whole) cs, t.IsSound) : Closes whole cs := by
  -- On the length of what is left, because an escape takes several characters at once.
  induction length : cs.length using Nat.strongRecOn generalizing whole done cs with
  | ind size ih =>
    subst length
    cases cs with
    | nil => exact absurd (sound _ List.mem_cons_self) id
    | cons c cs =>
      by_cases quote : c = '"'
      · subst quote
        exact ⟨[], [], whole, cs, rfl, .done⟩
      by_cases backslash : c = '\\'
      · subst backslash
        change ∀ t ∈ scan (.escape done whole) cs, t.IsSound at sound
        cases cs with
        | nil => exact absurd (sound _ List.mem_cons_self) id
        | cons letter cs =>
          by_cases isUnit : letter = 'u'
          · subst isUnit
            cases read : fourDigits cs with
            | error fault =>
              rw [scan, if_pos rfl, read] at sound
              exact absurd (sound _ List.mem_cons_self) id
            | ok n =>
              obtain ⟨digits, behind, rfl, four, rfl⟩ := fourDigits_eq_ok.mp read
              refine closes_unit four sound fun whole done cs shorter sound => ?_
              refine ih _ ?_ _ _ _ sound rfl
              simp only [List.length_cons, List.length_append]
              omega
          · rw [scan, if_neg isUnit] at sound
            split at sound
            · next d escaped =>
              exact (ih _ (by simp only [List.length_cons]; omega) _ _ _ sound rfl).letter escaped
            · exact absurd (sound _ List.mem_cons_self) id
      · rw [scan, if_neg quote, if_neg backslash] at sound
        split at sound
        · exact absurd (sound _ List.mem_cons_self) id
        · next visible =>
          exact (ih _ (Nat.lt_succ_self _) _ _ _ sound rfl).plain quote backslash visible

/-! ## Tokens -/

open Numeral (scan_between_digit begins_written)

/-- The characters of a word. -/
def wordOf : Token → List Char
  | .null => ['n', 'u', 'l', 'l']
  | .bool true => ['t', 'r', 'u', 'e']
  | .bool false => ['f', 'a', 'l', 's', 'e']
  | _ => []

/-- The characters spell the token. -/
inductive SpelledBy : Token → List Char → Prop
  | mark {c : Char} : isMark c = true → SpelledBy (.mark c) [c]
  | null : SpelledBy .null (wordOf .null)
  | bool (value : Bool) : SpelledBy (.bool value) (wordOf (.bool value))
  | text {part content : List Char} {whole : Bool} :
      Spells true part content whole →
      SpelledBy (.text (String.ofList content) whole) ('"' :: (part ++ ['"']))
  | number {p : Numeral.Parts} : p.Proper → SpelledBy p.token p.written

/-- The token is a numeral, which has no end of its own. -/
def IsNumber : Token → Prop
  | .number _ _ => True
  | _ => False

/-- The characters spell the tokens one behind the other, with white space between them. -/
inductive Spelled : List Token → List Char → Prop
  | done : Spelled [] []
  | space {ts : List Token} {c : Char} {cs : List Char} :
      isSpace c = true → Spelled ts cs → Spelled ts (c :: cs)
  | token {t : Token} {ts : List Token} {part rest : List Char} :
      SpelledBy t part → (t.IsNumber → EndsNumeral rest) → Spelled ts rest →
      Spelled (t :: ts) (part ++ rest)

theorem SpelledBy.isSound {t : Token} {part : List Char} (h : SpelledBy t part) : t.IsSound := by
  cases h <;> trivial

theorem Spelled.isSound {ts : List Token} (h : Spelled ts cs) : ∀ t ∈ ts, t.IsSound := by
  induction h with
  | done => exact fun t member => absurd member List.not_mem_nil
  | space _ _ ih => exact ih
  | token spells _ _ ih => exact List.forall_mem_cons.mpr ⟨spells.isSound, ih⟩

/-- What spells a token is read as that token. -/
theorem SpelledBy.scan {t : Token} {part rest : List Char} (h : SpelledBy t part)
    (ends : t.IsNumber → EndsNumeral rest) :
    scan .between (part ++ rest) = t :: scan .between rest := by
  cases h with
  | mark mark => exact scan_mark mark rest
  | null => exact scan_word .null rest
  | bool value => cases value <;> exact scan_word _ rest
  | @text part content whole spells =>
    have read := scan_spells spells [] rest
    rw [List.reverse_nil, List.nil_append] at read
    rw [List.cons_append, List.append_assoc]
    exact read
  | number proper => exact Numeral.Parts.scan_written proper (ends trivial)

theorem Spelled.scan {ts : List Token} (h : Spelled ts cs) : scan .between cs = ts := by
  induction h with
  | done => rfl
  | space space _ ih => rw [scan_space space, ih]
  | token spells ends _ ih => rw [spells.scan ends, ih]

/-- A word that is read to its end is there. -/
theorem exists_of_word {letters cs : List Char} {token : Token}
    (sound : ∀ t ∈ scan (.word letters token) cs, t.IsSound) : ∃ rest, cs = letters ++ rest := by
  induction letters generalizing cs with
  | nil => exact ⟨cs, rfl⟩
  | cons letter letters ih =>
    cases cs with
    | nil => exact absurd (sound _ List.mem_cons_self) id
    | cons c cs =>
      rw [scan] at sound
      split at sound
      · next same =>
        obtain ⟨rest, rfl⟩ := ih sound
        exact ⟨rest, by rw [same]; rfl⟩
      · exact absurd (sound _ List.mem_cons_self) id

/-- Where no token is broken, what does not begin with white space begins with what spells a
token. -/
theorem exists_spelledBy {c : Char} (visible : isSpace c = false)
    (sound : ∀ t ∈ scan .between (c :: cs), t.IsSound) :
    ∃ t part rest, c :: cs = part ++ rest ∧ part ≠ [] ∧ SpelledBy t part ∧
      (t.IsNumber → EndsNumeral rest) := by
  have noEnd {t : Token} (h : ¬t.IsNumber) {rest : List Char} : t.IsNumber → EndsNumeral rest :=
    fun number => absurd number h
  have entered : scan .between (c :: cs) =
      (start c).elim (fun state => scan state cs) fun token => token :: scan .between cs := by
    rw [scan, enter, visible, if_neg Bool.false_ne_true]
    cases start c <;> rfl
  have word {t : Token} (letters : List Char) (spelled : SpelledBy t (c :: letters))
      (begun : start c = .inl (.word letters t)) (plain : ¬t.IsNumber) :
      ∃ t part rest, c :: cs = part ++ rest ∧ part ≠ [] ∧ SpelledBy t part ∧
        (t.IsNumber → EndsNumeral rest) := by
    rw [entered, begun] at sound
    obtain ⟨rest, rfl⟩ := exists_of_word sound
    exact ⟨t, c :: letters, rest, rfl, List.cons_ne_nil _ _, spelled, noEnd plain⟩
  by_cases mark : isMark c = true
  · exact ⟨.mark c, [c], cs, rfl, List.cons_ne_nil _ _, .mark mark, noEnd id⟩
  by_cases quote : c = '"'
  · subst quote
    obtain ⟨part, content, last, rest, rfl, spells⟩ := closes_of_sound true [] cs sound
    exact ⟨_, '"' :: (part ++ ['"']), rest, by simp, List.cons_ne_nil _ _, .text spells, noEnd id⟩
  by_cases minus : c = '-'
  · subst minus
    obtain ⟨p, proper, -, rest, same, ends⟩ := begins_written true sound
    exact ⟨p.token, p.written, rest, same, proper.written_ne_nil, .number proper, fun _ => ends⟩
  by_cases null : c = 'n'
  · subst null
    exact word ['u', 'l', 'l'] .null rfl id
  by_cases yes : c = 't'
  · subst yes
    exact word ['r', 'u', 'e'] (.bool true) rfl id
  by_cases no : c = 'f'
  · subst no
    exact word ['a', 'l', 's', 'e'] (.bool false) rfl id
  by_cases digit : c.isDigit = true
  · rw [scan_between_digit digit] at sound
    obtain ⟨p, proper, -, rest, same, ends⟩ := begins_written false sound
    exact ⟨p.token, p.written, rest, same, proper.written_ne_nil, .number proper, fun _ => ends⟩
  · have noZero : c ≠ '0' := by
      rintro rfl
      exact digit rfl
    have stray : start c = .inr .stray := by
      simp [start, mark, quote, minus, null, yes, no, Part.next?, digit, noZero]
    rw [entered, stray] at sound
    exact absurd (sound _ List.mem_cons_self) id

/-- Where no token is broken, the characters spell the tokens that are found. -/
theorem spelled_of_sound (sound : ∀ t ∈ scan .between cs, t.IsSound) :
    Spelled (scan .between cs) cs := by
  induction length : cs.length using Nat.strongRecOn generalizing cs with
  | ind size ih =>
    subst length
    cases cs with
    | nil => exact .done
    | cons c cs =>
      cases space : isSpace c with
      | true =>
        rw [scan_space space] at sound ⊢
        exact .space space (ih _ (Nat.lt_succ_self _) sound rfl)
      | false =>
        obtain ⟨t, part, rest, same, nonempty, spells, ends⟩ := exists_spelledBy space sound
        rw [same, spells.scan ends] at sound ⊢
        refine .token spells ends (ih _ ?_ (List.forall_mem_cons.mp sound).2 rfl)
        have shorter := List.length_pos_iff.mpr nonempty
        rw [same, List.length_append]
        omega

/-- The characters spell tokens just where these are all that is found and none is broken. -/
theorem spelled_iff {ts : List Token} :
    Spelled ts cs ↔ scan .between cs = ts ∧ ∀ t ∈ ts, t.IsSound := by
  constructor
  · exact fun h => ⟨h.scan, h.isSound⟩
  · rintro ⟨rfl, sound⟩
    exact spelled_of_sound sound

end RemoteIndex.Json.Token
