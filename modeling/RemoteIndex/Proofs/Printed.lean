import RemoteIndex.Json.Printer
import RemoteIndex.Json.Reader

/-!
# The tokens of printed values

The tokenizer finds in a printed value the tokens that the value is made of, and nothing else,
whatever characters its texts have. Only a numeral has no end of its own, so what is behind it must
not go on with it; in a printed value nothing ever does.
-/

namespace RemoteIndex.Json

open Token (scan enter isSpace fourDigits escaped? unicode)

/-! ## The tokens of a value -/

mutual

/-- The tokens that a value is made of. -/
def tokens : Json → List Token
  | .null => [.null]
  | .bool value => [.bool value]
  | .number numeral => [.number numeral (Numeral.isFinite numeral.toList [] [] false)]
  | .text content => [.text content true]
  | .list [] => [.mark '[', .mark ']']
  | .list (v :: vs) => .mark '[' :: (tokens v ++ itemTokens vs ++ [.mark ']'])
  | .object [] => [.mark '\x7b', .mark '\x7d']
  | .object ((k, v) :: ms) =>
    .mark '\x7b' :: .text k true :: .mark ':' :: (tokens v ++ memberTokens ms ++ [.mark '\x7d'])

/-- The tokens of the items behind the first one. -/
def itemTokens : List Json → List Token
  | [] => []
  | v :: vs => .mark ',' :: (tokens v ++ itemTokens vs)

/-- The tokens of the members behind the first one. -/
def memberTokens : List (String × Json) → List Token
  | [] => []
  | (k, v) :: ms => .mark ',' :: .text k true :: .mark ':' :: (tokens v ++ memberTokens ms)

end

/-- May one more value be opened where so many are open? -/
def Mode.Opens : Mode → Nat → Prop
  | .strict depth, opened => opened < depth
  | .skipping, _ => True

/-- Has a reader of this mode no objection to the number? -/
def TakesNumber (mode : Mode) (n : Nat) : Prop :=
  Numeral.isFinite (toString n).toList [] [] false = true ∨ mode = .skipping

/-- A reader of this mode takes the value where so many values are open: the value is not nested too
deeply, and its numbers are natural numbers in range. -/
inductive Takes (mode : Mode) : Nat → Json → Prop
  | null (opened : Nat) : Takes mode opened .null
  | bool (opened : Nat) (value : Bool) : Takes mode opened (.bool value)
  | ofNat (opened : Nat) {n : Nat} : TakesNumber mode n → Takes mode opened (.ofNat n)
  | text (opened : Nat) (content : String) : Takes mode opened (.text content)
  | list {opened : Nat} {vs : List Json} :
      mode.Opens opened → (∀ v ∈ vs, Takes mode (opened + 1) v) → Takes mode opened (.list vs)
  | object {opened : Nat} {ms : List (String × Json)} :
      mode.Opens opened → (∀ m ∈ ms, Takes mode (opened + 1) m.2) → Takes mode opened (.object ms)

/-! ## Between tokens -/

theorem scan_space {c : Char} (space : isSpace c = true) (cs : List Char) :
    scan .between (c :: cs) = scan .between cs := by
  rw [scan, enter, if_pos space, List.nil_append]

/-- The beginning of a line is white space. -/
theorem scan_newline (level : Nat) (cs : List Char) :
    scan .between (Printer.newline level ++ cs) = scan .between cs := by
  have blanks (n : Nat) :
      scan .between (List.replicate n ' ' ++ cs) = scan .between cs := by
    induction n with
    | zero => rfl
    | succ n ih => rw [List.replicate_succ, List.cons_append, scan_space rfl, ih]
  rw [Printer.newline, List.cons_append, scan_space rfl, blanks]

theorem scan_mark {c : Char} (mark : Token.isMark c = true) (cs : List Char) :
    scan .between (c :: cs) = .mark c :: scan .between cs := by
  have visible : isSpace c = false := by
    rw [Bool.eq_false_iff]
    intro space
    simp only [Token.isMark, isSpace, Bool.or_eq_true, decide_eq_true_eq] at mark space
    rcases space with ((rfl | rfl) | rfl) | rfl <;> simp at mark
  rw [scan, enter, visible, if_neg (by simp), Token.start, if_pos mark]
  rfl

/-- A word whose letters have all been read is a token, whatever is behind it. -/
theorem scan_word (t : Token) (rest : List Char) :
    scan (.word [] t) rest = t :: scan .between rest := by
  cases rest <;> rfl

/-! ## Texts -/

/-- The four digits that a control character is written in. -/
def controlDigits (n : Nat) : List Char :=
  ['0', '0', Nat.digitChar (n / 16), Nat.digitChar (n % 16)]

theorem fourDigits_controlDigits {n : Nat} (control : n < 0x20) (rest : List Char) :
    fourDigits (controlDigits n ++ rest) = .ok n := by
  have digits : ∀ n < 0x20,
      ¬ ((controlDigits n).map Char.utf8Size).foldl (· + ·) 0 < 4 ∧
        (controlDigits n).all Token.isHexDigit = true ∧ Text.hexNumber (controlDigits n) = n := by
    decide
  obtain ⟨long, hexadecimal, number⟩ := digits n control
  have next : (controlDigits n ++ rest).take 4 = controlDigits n := rfl
  rw [fourDigits]
  simp only [next]
  rw [if_neg long, if_pos hexadecimal, number]

theorem scan_control {c : Char} (control : c.toNat < 0x20) (content rest : List Char) :
    scan (.text content true) ('\\' :: 'u' :: (controlDigits c.toNat ++ rest)) =
      scan (.text (c :: content) true) rest := by
  have small : c.toNat < 0xD800 := Nat.lt_trans control (by decide)
  have read : unicode content true c.toNat (controlDigits c.toNat ++ rest) =
      .inl (.digits 4 (c :: content) true) := by
    rw [unicode, if_pos (by simp [small]), Char.ofNat_toNat]
  have begun : scan (.text content true) ('\\' :: 'u' :: (controlDigits c.toNat ++ rest)) =
      scan (.escape content true) ('u' :: (controlDigits c.toNat ++ rest)) := rfl
  rw [begun, scan, if_pos rfl, fourDigits_controlDigits control]
  simp only [read]
  rfl

/-- However a character of a text is written, it is read back. -/
theorem scan_char (c : Char) (content rest : List Char) :
    scan (.text content true) (Printer.char c ++ rest) = scan (.text (c :: content) true) rest := by
  rw [Printer.char]
  split
  · next same => subst same; rfl
  · next notQuote =>
    split
    · next same => subst same; rfl
    · next notBackslash =>
      split
      · next same => subst same; rfl
      · split
        · next same => subst same; rfl
        · split
          · next same => subst same; rfl
          · split
            · next same => subst same; rfl
            · split
              · next same => subst same; rfl
              · split
                · next control => exact scan_control control content rest
                · next plain =>
                  rw [List.singleton_append, scan, if_neg notQuote, if_neg notBackslash,
                    if_neg plain]

theorem scan_text (content : String) (rest : List Char) :
    scan .between (Printer.text content ++ rest) = .text content true :: scan .between rest := by
  have characters (cs done : List Char) :
      scan (.text done true) (cs.flatMap Printer.char ++ '"' :: rest) =
        .text (String.ofList (done.reverse ++ cs)) true :: scan .between rest := by
    induction cs generalizing done with
    | nil => rw [List.append_nil]; rfl
    | cons c cs ih =>
      rw [List.flatMap_cons, List.append_assoc, scan_char, ih, List.reverse_cons,
        List.append_assoc]
      rfl
  have opened : scan .between ('"' :: (content.toList.flatMap Printer.char ++ '"' :: rest)) =
      scan (.text [] true) (content.toList.flatMap Printer.char ++ '"' :: rest) := rfl
  have whole : Printer.text content ++ rest =
      '"' :: (content.toList.flatMap Printer.char ++ '"' :: rest) := by
    rw [Printer.text, List.append_assoc]
    rfl
  rw [whole, opened, characters, List.reverse_nil, List.nil_append, String.ofList_toList]

/-! ## Numerals -/

open Token (Part Digits)

/-- What is behind a numeral does not go on with it. -/
def EndsNumeral (rest : List Char) : Prop :=
  ∀ c ∈ rest.head?, c.isDigit = false ∧ c ≠ '.' ∧ c ≠ 'e' ∧ c ≠ 'E'

theorem endsNumeral_nil : EndsNumeral [] := by
  intro first member
  cases member

theorem endsNumeral_cons {c : Char} {cs : List Char}
    (other : c.isDigit = false ∧ c ≠ '.' ∧ c ≠ 'e' ∧ c ≠ 'E') : EndsNumeral (c :: cs) := by
  intro first member
  obtain rfl := Option.some.inj member
  exact other

theorem next?_eq_none {part : Part} {c : Char} (d : Digits) (complete : part.complete = true)
    (other : c.isDigit = false ∧ c ≠ '.' ∧ c ≠ 'e' ∧ c ≠ 'E') : part.next? d c = none := by
  obtain ⟨noDigit, noPoint, noLetter, noCapital⟩ := other
  cases part with
  | zero => simp [Part.next?, noPoint, noLetter, noCapital]
  | whole => simp [Part.next?, noDigit, noPoint, noLetter, noCapital]
  | fraction => simp [Part.next?, noDigit, noLetter, noCapital]
  | exponent => simp [Part.next?, noDigit]
  | sign => exact absurd complete (by decide)
  | point => exact absurd complete (by decide)
  | letter => exact absurd complete (by decide)
  | exponentSign => exact absurd complete (by decide)

/-- A numeral that is complete ends where nothing goes on with it. -/
theorem scan_complete {part : Part} {rest : List Char} (d : Digits)
    (complete : part.complete = true) (ends : EndsNumeral rest) :
    scan (.number part d) rest = d.token :: scan .between rest := by
  cases rest with
  | nil => simp [scan, complete]
  | cons c cs =>
    have other := ends c rfl
    simp [scan, next?_eq_none d complete other, complete, other.1]

theorem scan_digits {digits : List Char} (all : ∀ c ∈ digits, c.isDigit = true) (d : Digits)
    (rest : List Char) :
    scan (.number .whole d) (digits ++ rest) =
      scan (.number .whole
        { d with whole := digits.reverse ++ d.whole, written := digits.reverse ++ d.written })
        rest := by
  induction digits generalizing d with
  | nil => rfl
  | cons c cs ih =>
    obtain ⟨digit, behind⟩ := List.forall_mem_cons.mp all
    have goesOn : Part.next? .whole d c =
        some (.whole, { d with whole := c :: d.whole, written := c :: d.written }) := by
      rw [Part.next?]
      exact if_pos digit
    rw [List.cons_append, scan, goesOn]
    simp only [ih behind, List.reverse_cons, List.append_assoc, List.singleton_append]

/-- The state behind the first digit of a numeral. -/
theorem scan_firstDigit {c : Char} (digit : c.isDigit = true) (cs : List Char) :
    scan .between (c :: cs) =
      scan (.number (if c = '0' then .zero else .whole) ⟨false, [c], [], false, [], [c]⟩) cs := by
  have apart {e : Char} (other : e.isDigit = false) : c ≠ e := by
    rintro rfl
    exact absurd (digit.symm.trans other) (by simp)
  have visible : isSpace c = false := by
    simp [isSpace, apart (e := ' ') rfl, apart (e := '\n') rfl, apart (e := '\t') rfl,
      apart (e := '\r') rfl]
  have noMark : Token.isMark c = false := by
    simp [Token.isMark, apart (e := '[') rfl, apart (e := ']') rfl, apart (e := '\x7b') rfl,
      apart (e := '\x7d') rfl, apart (e := ',') rfl, apart (e := ':') rfl]
  rw [scan, enter, visible, if_neg (by simp), Token.start, noMark, if_neg (by simp),
    if_neg (apart rfl), if_neg (apart rfl), if_neg (apart rfl), if_neg (apart rfl),
    if_neg (apart rfl)]
  by_cases zero : c = '0'
  · simp [Part.next?, zero]
  · simp [Part.next?, zero, digit]

/-- Only zero is written with a zero in front. -/
theorem exists_toDigits_eq_cons (n : Nat) :
    ∃ c cs, Nat.toDigits 10 n = c :: cs ∧ (c = '0' → cs = []) := by
  induction n using Nat.strongRecOn with
  | ind n ih =>
    by_cases small : n < 10
    · exact ⟨n.digitChar, [], Nat.toDigits_of_lt_base small, fun _ => rfl⟩
    · have large : 10 ≤ n := Nat.le_of_not_lt small
      obtain ⟨c, cs, digits, leading⟩ := ih (n / 10) (Nat.div_lt_self (by omega) (by decide))
      refine ⟨c, cs ++ [(n % 10).digitChar], ?_, ?_⟩
      · rw [Nat.toDigits_of_base_le (by decide) large, digits]
        rfl
      · intro zero
        have read := Nat.ofDigitChars_ten_toDigits (n := n / 10)
        rw [digits, leading zero, zero] at read
        have none : n / 10 = 0 := read.symm
        omega

/-- A natural number is written as one numeral. -/
theorem scan_ofNat {rest : List Char} (ends : EndsNumeral rest) (n : Nat) :
    scan .between ((toString n).toList ++ rest) =
      .number (toString n) (Numeral.isFinite (toString n).toList [] [] false)
        :: scan .between rest := by
  obtain ⟨c, cs, written, leading⟩ := exists_toDigits_eq_cons n
  have digits : ∀ d ∈ c :: cs, d.isDigit = true := by
    intro d member
    rw [← written] at member
    exact Nat.isDigit_of_mem_toDigits (by decide) (by decide) member
  obtain ⟨first, behind⟩ := List.forall_mem_cons.mp digits
  rw [Nat.toString_eq_ofList_toDigits, String.toList_ofList, written, List.cons_append,
    scan_firstDigit first]
  by_cases zero : c = '0'
  · rw [leading zero, if_pos zero, List.nil_append, scan_complete _ rfl ends]
    rfl
  · rw [if_neg zero, scan_digits behind, scan_complete _ rfl ends]
    simp [Digits.token]

/-! ## Values -/

/-- Printed at any level and with anything behind it, the value shows its tokens. -/
def ShowsTokens (v : Json) : Prop :=
  ∀ level rest, EndsNumeral rest →
    scan .between (Printer.value level v ++ rest) = v.tokens ++ scan .between rest

theorem endsNumeral_newline (level : Nat) (rest : List Char) :
    EndsNumeral (Printer.newline level ++ rest) := endsNumeral_cons (by decide)

theorem endsNumeral_items {level : Nat} {vs : List Json} {rest : List Char}
    (ends : EndsNumeral rest) : EndsNumeral (Printer.items level vs ++ rest) := by
  cases vs with
  | nil => exact ends
  | cons v vs => exact endsNumeral_cons (by decide)

theorem endsNumeral_members {level : Nat} {ms : List (String × Json)} {rest : List Char}
    (ends : EndsNumeral rest) : EndsNumeral (Printer.members level ms ++ rest) := by
  cases ms with
  | nil => exact ends
  | cons m ms => exact endsNumeral_cons (by decide)

theorem scan_items {vs : List Json} (shown : ∀ v ∈ vs, v.ShowsTokens) (level : Nat)
    {rest : List Char} (ends : EndsNumeral rest) :
    scan .between (Printer.items level vs ++ rest) = itemTokens vs ++ scan .between rest := by
  induction vs with
  | nil => rfl
  | cons v vs ih =>
    obtain ⟨here, behind⟩ := List.forall_mem_cons.mp shown
    have printed : Printer.items level (v :: vs) ++ rest =
        ',' :: (Printer.newline level ++
          (Printer.value level v ++ (Printer.items level vs ++ rest))) := by
      simp only [Printer.items, List.cons_append, List.append_assoc]
    rw [printed, scan_mark rfl, scan_newline, here level _ (endsNumeral_items ends), ih behind,
      itemTokens, List.cons_append, List.append_assoc]

/-- A member shows its key, a colon and its value. -/
theorem scan_member {k : String} {v : Json} (shown : v.ShowsTokens) (level : Nat)
    {rest : List Char} (ends : EndsNumeral rest) :
    scan .between (Printer.newline level ++
        (Printer.text k ++ (':' :: ' ' :: (Printer.value level v ++ rest)))) =
      .text k true :: .mark ':' :: (v.tokens ++ scan .between rest) := by
  rw [scan_newline, scan_text, scan_mark rfl, scan_space rfl, shown level rest ends]

theorem scan_members {ms : List (String × Json)} (shown : ∀ m ∈ ms, m.2.ShowsTokens)
    (level : Nat) {rest : List Char} (ends : EndsNumeral rest) :
    scan .between (Printer.members level ms ++ rest) = memberTokens ms ++ scan .between rest := by
  induction ms with
  | nil => rfl
  | cons m ms ih =>
    obtain ⟨k, v⟩ := m
    obtain ⟨here, behind⟩ := List.forall_mem_cons.mp shown
    have printed : Printer.members level ((k, v) :: ms) ++ rest =
        ',' :: (Printer.newline level ++ (Printer.text k ++
          (':' :: ' ' :: (Printer.value level v ++ (Printer.members level ms ++ rest))))) := by
      simp only [Printer.members, List.cons_append, List.append_assoc, List.nil_append]
    rw [printed, scan_mark rfl, scan_member here level (endsNumeral_members ends), ih behind,
      memberTokens, List.cons_append, List.cons_append, List.cons_append, List.append_assoc]

theorem Takes.showsTokens {mode : Mode} {opened : Nat} {v : Json} (h : Takes mode opened v) :
    v.ShowsTokens := by
  induction h with
  | null opened =>
    intro level rest ends
    have letters : scan .between (Printer.value level .null ++ rest) = scan (.word [] .null) rest :=
      rfl
    exact letters.trans (scan_word _ rest)
  | bool opened value =>
    intro level rest ends
    have letters : scan .between (Printer.value level (.bool value) ++ rest) =
        scan (.word [] (.bool value)) rest := by cases value <;> rfl
    exact letters.trans (scan_word _ rest)
  | @ofNat opened n taken =>
    intro level rest ends
    exact scan_ofNat ends n
  | text opened content =>
    intro level rest ends
    exact scan_text content rest
  | @list opened vs opens taken ih =>
    intro level rest ends
    cases vs with
    | nil => exact (scan_mark rfl _).trans (congrArg _ (scan_mark rfl _))
    | cons v vs =>
      obtain ⟨here, behind⟩ := List.forall_mem_cons.mp ih
      have printed : Printer.value level (.list (v :: vs)) ++ rest =
          '[' :: (Printer.newline (level + 1) ++ (Printer.value (level + 1) v ++
            (Printer.items (level + 1) vs ++ (Printer.newline level ++ (']' :: rest))))) := by
        simp only [Printer.value, List.cons_append, List.append_assoc, List.nil_append]
      rw [printed, scan_mark rfl, scan_newline,
        here (level + 1) _ (endsNumeral_items (endsNumeral_newline level _)),
        scan_items behind (level + 1) (endsNumeral_newline level _), scan_newline, scan_mark rfl,
        tokens]
      simp only [List.cons_append, List.append_assoc, List.nil_append]
  | @object opened ms opens taken ih =>
    intro level rest ends
    cases ms with
    | nil => exact (scan_mark rfl _).trans (congrArg _ (scan_mark rfl _))
    | cons m ms =>
      obtain ⟨k, v⟩ := m
      obtain ⟨here, behind⟩ := List.forall_mem_cons.mp ih
      have printed : Printer.value level (.object ((k, v) :: ms)) ++ rest =
          '\x7b' :: (Printer.newline (level + 1) ++ (Printer.text k ++ (':' :: ' ' ::
            (Printer.value (level + 1) v ++ (Printer.members (level + 1) ms ++
              (Printer.newline level ++ ('\x7d' :: rest))))))) := by
        simp only [Printer.value, List.cons_append, List.append_assoc, List.nil_append]
      rw [printed, scan_mark rfl,
        scan_member here (level + 1) (endsNumeral_members (endsNumeral_newline level _)),
        scan_members behind (level + 1) (endsNumeral_newline level _), scan_newline,
        scan_mark rfl, tokens]
      simp only [List.cons_append, List.append_assoc, List.nil_append]

end RemoteIndex.Json
