import RemoteIndex.Proofs.Printed

/-!
# How numerals are spelled

A numeral has a sign or none, digits without a zero in front of others, perhaps digits behind a
point and perhaps an exponent. The tokenizer, which goes from one part of a numeral to the next,
takes exactly these as numbers.
-/

namespace RemoteIndex.Json

/-- The token is not broken. -/
def Token.IsSound : Token → Prop
  | .brokenText _ | .brokenValue _ | .stray => False
  | _ => True

namespace Numeral

open Token (scan enter Part Digits)

/-- The characters are decimal digits. -/
def AllDigits (cs : List Char) : Prop := ∀ c ∈ cs, c.isDigit = true

theorem allDigits_nil : AllDigits [] := List.forall_mem_nil _

/-- An exponent: its letter, its sign if it has one, and its digits. -/
structure Exponent where
  letter : Char
  sign : List Char
  digits : List Char

namespace Exponent

/-- The exponent is one of a numeral. -/
structure Proper (e : Exponent) : Prop where
  letter : e.letter = 'e' ∨ e.letter = 'E'
  sign : e.sign = [] ∨ e.sign = ['+'] ∨ e.sign = ['-']
  nonempty : e.digits ≠ []
  digits : AllDigits e.digits

/-- The characters of an exponent. -/
def written (e : Exponent) : List Char := e.letter :: (e.sign ++ e.digits)

end Exponent

/-- The digits behind the point and the point before them; without any there is no point. -/
def pointed : List Char → List Char
  | [] => []
  | digits => '.' :: digits

/-- The characters of the exponent that there may be. -/
def writtenExponent : Option Exponent → List Char
  | none => []
  | some e => e.written

/-- The parts of a numeral. -/
structure Parts where
  negative : Bool
  whole : List Char
  fraction : List Char
  exponent : Option Exponent

namespace Parts

/-- The parts are those of a numeral. -/
structure Proper (p : Parts) : Prop where
  whole : p.whole = ['0'] ∨ ∃ d ds, p.whole = d :: ds ∧ d ≠ '0' ∧ AllDigits (d :: ds)
  fraction : AllDigits p.fraction
  exponent : ∀ e ∈ p.exponent, e.Proper

/-- The characters of a numeral. -/
def written (p : Parts) : List Char :=
  (if p.negative then ['-'] else []) ++
    (p.whole ++ (pointed p.fraction ++ writtenExponent p.exponent))

/-- The token of a numeral. -/
def token (p : Parts) : Token :=
  .number (String.ofList p.written)
    (isFinite p.whole p.fraction (p.exponent.elim [] Exponent.digits)
      (p.exponent.elim false fun e => e.sign = ['-']))

end Parts

variable {d : Digits} {c : Char} {cs rest digits : List Char} {part : Part}

/-! ## What the tokenizer makes of a numeral -/

/-- The digits read so far with more of them, in the part of the numeral that they belong to. -/
def add (part : Part) (digits : List Char) (d : Digits) : Digits :=
  let d' := { d with written := digits.reverse ++ d.written }
  match part with
  | .fraction => { d' with fraction := digits.reverse ++ d.fraction }
  | .exponent => { d' with exponent := digits.reverse ++ d.exponent }
  | _ => { d' with whole := digits.reverse ++ d.whole }

/-- The part of a numeral goes on with digits. -/
def Collects (part : Part) : Prop := part = .whole ∨ part = .fraction ∨ part = .exponent

theorem next?_digit (collects : Collects part) (digit : c.isDigit = true) (d : Digits) :
    part.next? d c = some (part, add part [c] d) := by
  rcases collects with rfl | rfl | rfl
  · exact if_pos digit
  · exact if_pos digit
  · exact if_pos digit

theorem add_add (part : Part) (digits more : List Char) (d : Digits) :
    add part more (add part digits d) = add part (digits ++ more) d := by
  cases part <;> simp [add]

theorem scan_append (collects : Collects part) (all : AllDigits digits) (d : Digits)
    (rest : List Char) :
    scan (.number part d) (digits ++ rest) = scan (.number part (add part digits d)) rest := by
  induction digits generalizing d with
  | nil => cases part <;> rfl
  | cons c cs ih =>
    obtain ⟨digit, behind⟩ := List.forall_mem_cons.mp all
    rw [List.cons_append, scan, next?_digit collects digit]
    simp only [ih behind, add_add, List.singleton_append]

/-- Digits behind a part that has to go on with one. -/
theorem scan_first {next : Part} (collects : Collects next)
    (goesOn : ∀ c : Char, c.isDigit = true → part.next? d c = some (next, add next [c] d))
    (nonempty : digits ≠ []) (all : AllDigits digits) (rest : List Char) :
    scan (.number part d) (digits ++ rest) = scan (.number next (add next digits d)) rest := by
  obtain ⟨c, cs, rfl⟩ := List.exists_cons_of_ne_nil nonempty
  obtain ⟨digit, behind⟩ := List.forall_mem_cons.mp all
  rw [List.cons_append, scan, goesOn c digit]
  simp only [scan_append collects behind, add_add, List.singleton_append]

/-- Behind its whole part or its fraction a numeral may end, or have an exponent. -/
def MayEnd (part : Part) : Prop := part = .zero ∨ part = .whole ∨ part = .fraction

/-- What has been read once the exponent has been. -/
def addExponent (e : Exponent) (d : Digits) : Digits :=
  add .exponent e.digits
    { d with
      negativeExponent := if e.sign = ['-'] then true else d.negativeExponent
      written := e.sign.reverse ++ e.letter :: d.written }

theorem scan_exponent {e : Exponent} (proper : e.Proper) (mayEnd : MayEnd part) (d : Digits)
    (rest : List Char) :
    scan (.number part d) (e.written ++ rest) =
      scan (.number .exponent (addExponent e d)) rest := by
  obtain ⟨letter, sign, digits⟩ := e
  have opened : scan (.number part d) (letter :: (sign ++ digits ++ rest)) =
      scan (.number .letter { d with written := letter :: d.written })
        (sign ++ digits ++ rest) := by
    have next :
        part.next? d letter = some (.letter, { d with written := letter :: d.written }) := by
      rcases proper.letter with rfl | rfl <;> rcases mayEnd with rfl | rfl | rfl <;> rfl
    rw [scan, next]
  have collects : Collects .exponent := .inr (.inr rfl)
  have signed (d : Digits) (c : Char) (digit : c.isDigit = true) :
      Part.next? .exponentSign d c = some (.exponent, add .exponent [c] d) := if_pos digit
  have unsigned (d : Digits) (c : Char) (digit : c.isDigit = true) :
      Part.next? .letter d c = some (.exponent, add .exponent [c] d) := by
    have noPlus : c ≠ '+' := by rintro rfl; exact absurd digit (by decide)
    have noMinus : c ≠ '-' := by rintro rfl; exact absurd digit (by decide)
    rw [Part.next?]
    simp only [if_neg noPlus, if_neg noMinus, if_pos digit]
    rfl
  rw [Exponent.written, List.cons_append, opened, List.append_assoc]
  rcases proper.sign with same | same | same
  · obtain rfl : sign = [] := same
    rw [List.nil_append, scan_first collects (unsigned _) proper.nonempty proper.digits]
    rfl
  · obtain rfl : sign = ['+'] := same
    have plus : scan (.number .letter { d with written := letter :: d.written })
          (['+'] ++ (digits ++ rest)) =
        scan (.number .exponentSign { d with written := '+' :: letter :: d.written })
          (digits ++ rest) := rfl
    rw [plus, scan_first collects (signed _) proper.nonempty proper.digits]
    rfl
  · obtain rfl : sign = ['-'] := same
    have minus : scan (.number .letter { d with written := letter :: d.written })
          (['-'] ++ (digits ++ rest)) =
        scan (.number .exponentSign
          { d with negativeExponent := true, written := '-' :: letter :: d.written })
          (digits ++ rest) := rfl
    rw [minus, scan_first collects (signed _) proper.nonempty proper.digits]
    rfl

/-- What has been read once the fraction has been. -/
def addFraction (fraction : List Char) (d : Digits) : Digits :=
  match fraction with
  | [] => d
  | digits => add .fraction digits { d with written := '.' :: d.written }

/-- The part of a numeral behind what may be its fraction. -/
def behindFraction (part : Part) : List Char → Part
  | [] => part
  | _ => .fraction

theorem scan_pointed (mayEnd : part = .zero ∨ part = .whole) (all : AllDigits digits) (d : Digits)
    (rest : List Char) :
    scan (.number part d) (pointed digits ++ rest) =
      scan (.number (behindFraction part digits) (addFraction digits d)) rest := by
  cases digits with
  | nil => rfl
  | cons c cs =>
    have point : scan (.number part d) ('.' :: (c :: cs ++ rest)) =
        scan (.number .point { d with written := '.' :: d.written }) (c :: cs ++ rest) := by
      have next : part.next? d '.' = some (.point, { d with written := '.' :: d.written }) := by
        rcases mayEnd with rfl | rfl <;> rfl
      rw [scan, next]
    rw [pointed, List.cons_append, point]
    · have goesOn (c : Char) (digit : c.isDigit = true) :
          Part.next? .point { d with written := '.' :: d.written } c =
            some (.fraction, add .fraction [c] { d with written := '.' :: d.written }) :=
        if_pos digit
      exact scan_first (.inr (.inl rfl)) goesOn (List.cons_ne_nil _ _) all rest
    · simp

/-- The part of a numeral behind its whole part. -/
def behindWhole (whole : List Char) : Part := if whole = ['0'] then .zero else .whole

theorem scan_whole (proper : digits = ['0'] ∨ ∃ d ds, digits = d :: ds ∧ d ≠ '0' ∧
    AllDigits (d :: ds)) (d : Digits) (rest : List Char) :
    scan (.number .sign d) (digits ++ rest) =
      scan (.number (behindWhole digits) (add .whole digits d)) rest := by
  rcases proper with rfl | ⟨c, cs, rfl, noZero, all⟩
  · rfl
  · have part : behindWhole (c :: cs) = .whole := if_neg fun same => noZero (List.cons.inj same).1
    obtain ⟨digit, behind⟩ := List.forall_mem_cons.mp all
    have next : Part.next? .sign d c = some (.whole, add .whole [c] d) := by
      rw [Part.next?]
      simp only [if_neg noZero, if_pos digit]
      rfl
    rw [part, List.cons_append, scan, next]
    simp only [scan_append (.inl rfl) behind, add_add, List.singleton_append]

/-- The digits before anything has been read. -/
def unread : Digits := ⟨false, [], [], false, [], []⟩

/-- A digit begins a numeral. -/
theorem scan_between_digit (digit : c.isDigit = true) (cs : List Char) :
    scan .between (c :: cs) = scan (.number .sign unread) (c :: cs) := by
  rw [scan_firstDigit digit, scan, Part.next?]
  by_cases zero : c = '0'
  · simp [zero, unread]
  · simp [zero, digit, unread]

theorem scan_sign (negative : Bool) {whole : List Char} (nonempty : whole ≠ [])
    (all : AllDigits whole) (rest : List Char) :
    scan .between ((if negative then ['-'] else []) ++ (whole ++ rest)) =
      scan (.number .sign { unread with
        negative := negative
        written := if negative then ['-'] else [] }) (whole ++ rest) := by
  cases negative with
  | true => rfl
  | false =>
    obtain ⟨c, cs, rfl⟩ := List.exists_cons_of_ne_nil nonempty
    exact scan_between_digit (all c List.mem_cons_self) (cs ++ rest)

namespace Parts

theorem Proper.whole_ne_nil {p : Parts} (proper : p.Proper) : p.whole ≠ [] := by
  rcases proper.whole with same | ⟨d, ds, same, -⟩ <;> rw [same] <;> exact List.cons_ne_nil _ _

theorem Proper.written_ne_nil {p : Parts} (proper : p.Proper) : p.written ≠ [] := by
  simp [written, proper.whole_ne_nil]

theorem Proper.allDigits_whole {p : Parts} (proper : p.Proper) : AllDigits p.whole := by
  rcases proper.whole with same | ⟨d, ds, same, -, all⟩
  · rw [same]
    exact List.forall_mem_singleton.mpr rfl
  · exact same ▸ all

/-- What has been read once all of a numeral has been. -/
def read (p : Parts) : Digits :=
  let d := addFraction p.fraction (add .whole p.whole { unread with
    negative := p.negative
    written := if p.negative then ['-'] else [] })
  p.exponent.elim d fun e => addExponent e d

/-- The part that a numeral ends in. -/
def last (p : Parts) : Part :=
  match p.exponent with
  | some _ => .exponent
  | none => behindFraction (behindWhole p.whole) p.fraction

theorem token_read (p : Parts) : p.read.token = p.token := by
  obtain ⟨negative, whole, fraction, exponent⟩ := p
  cases negative <;> cases fraction <;> cases exponent <;>
    simp [read, token, written, pointed, writtenExponent, addFraction, addExponent, add, unread,
      Exponent.written, Digits.token]

theorem mayEnd_behindWhole (whole : List Char) :
    behindWhole whole = .zero ∨ behindWhole whole = .whole := by
  rw [behindWhole]
  split
  · exact .inl rfl
  · exact .inr rfl

theorem mayEnd_behindFraction (whole fraction : List Char) :
    MayEnd (behindFraction (behindWhole whole) fraction) := by
  cases fraction with
  | nil => exact (mayEnd_behindWhole whole).imp_right .inl
  | cons c cs => exact .inr (.inr rfl)

theorem complete_last (p : Parts) : p.last.complete = true := by
  rw [last]
  split
  · rfl
  · rcases mayEnd_behindFraction p.whole p.fraction with same | same | same <;> rw [same] <;> rfl

/-- A numeral is read as one token, whatever is behind it that does not go on with it. -/
theorem scan_written {p : Parts} (proper : p.Proper) (ends : EndsNumeral rest) :
    scan .between (p.written ++ rest) = p.token :: scan .between rest := by
  have read : scan .between (p.written ++ rest) = scan (.number p.last p.read) rest := by
    simp only [written, List.append_assoc]
    rw [scan_sign p.negative proper.whole_ne_nil proper.allDigits_whole, scan_whole proper.whole,
      scan_pointed (mayEnd_behindWhole p.whole) proper.fraction, Parts.read, last]
    cases exponent : p.exponent with
    | none => rfl
    | some e => exact scan_exponent (proper.exponent e exponent) (mayEnd_behindFraction _ _) _ rest
  rw [read, scan_complete p.read p.complete_last ends, token_read]

end Parts

/-! ## What the tokenizer takes as a numeral -/

/-- The characters begin with a part of this shape, and what is behind it does not go on with the
numeral. -/
def Begins (shape : List Char → Prop) (cs : List Char) : Prop :=
  ∃ part rest, cs = part ++ rest ∧ shape part ∧ EndsNumeral rest

theorem Begins.cons {shape other : List Char → Prop} (h : Begins shape cs)
    (extends' : ∀ part, shape part → other (c :: part)) : Begins other (c :: cs) := by
  obtain ⟨part, rest, rfl, shaped, ends⟩ := h
  exact ⟨c :: part, rest, rfl, extends' part shaped, ends⟩

theorem Begins.imp {shape other : List Char → Prop} (h : Begins shape cs)
    (implies : ∀ part, shape part → other part) : Begins other cs := by
  obtain ⟨part, rest, same, shaped, ends⟩ := h
  exact ⟨part, rest, same, implies part shaped, ends⟩

/-- Where nothing broken follows, a numeral that may end and does not go on has ended. -/
theorem endsNumeral_of_sound (complete : part.complete = true)
    (stops : ∀ c ∈ cs.head?, part.next? d c = none)
    (sound : ∀ t ∈ scan (.number part d) cs, t.IsSound) : EndsNumeral cs := by
  cases cs with
  | nil => exact endsNumeral_nil
  | cons c cs =>
    have stop := stops c rfl
    rw [scan, stop] at sound
    dsimp only at sound
    split at sound
    · next goes =>
      have entered : ∀ t ∈ (enter c).2, t.IsSound := fun t member =>
        sound t (List.mem_cons_of_mem _ (List.mem_append_left _ member))
      have stray {e : Char} (h : (enter e).2 = [.stray]) : c ≠ e := by
        rintro rfl
        rw [h] at entered
        exact entered _ List.mem_cons_self
      have noDigit : c.isDigit = false := by
        rw [Bool.eq_false_iff]
        intro digit
        cases part with
        | zero => simp [digit] at goes
        | whole => exact absurd (stop.symm.trans (next?_digit (.inl rfl) digit d)) (by simp)
        | fraction =>
          exact absurd (stop.symm.trans (next?_digit (.inr (.inl rfl)) digit d)) (by simp)
        | exponent =>
          exact absurd (stop.symm.trans (next?_digit (.inr (.inr rfl)) digit d)) (by simp)
        | _ => exact absurd complete (by decide)
      exact endsNumeral_cons ⟨noDigit, stray rfl, stray rfl, stray rfl⟩
    · exact absurd (sound _ List.mem_cons_self) id

/-- A numeral that has to go on does. -/
theorem next?_of_sound (incomplete : part.complete = false)
    (sound : ∀ t ∈ scan (.number part d) cs, t.IsSound) :
    ∃ c rest next, cs = c :: rest ∧ part.next? d c = some next ∧
      ∀ t ∈ scan (.number next.1 next.2) rest, t.IsSound := by
  cases cs with
  | nil =>
    rw [scan, if_neg (by simp [incomplete])] at sound
    exact absurd (sound _ List.mem_cons_self) id
  | cons c cs =>
    rw [scan] at sound
    cases next : part.next? d c with
    | none =>
      rw [next] at sound
      simp only [incomplete] at sound
      exact absurd (sound _ List.mem_cons_self) id
    | some next' =>
      rw [next] at sound
      exact ⟨c, cs, next', rfl, next, sound⟩

theorem begins_exponent (sound : ∀ t ∈ scan (.number .exponent d) cs, t.IsSound) :
    Begins AllDigits cs := by
  induction cs generalizing d with
  | nil => exact ⟨[], [], rfl, allDigits_nil, endsNumeral_nil⟩
  | cons c cs ih =>
    by_cases digit : c.isDigit = true
    · rw [scan, next?_digit (.inr (.inr rfl)) digit d] at sound
      exact (ih sound).cons fun part all => List.forall_mem_cons.mpr ⟨digit, all⟩
    · refine ⟨[], c :: cs, rfl, allDigits_nil, endsNumeral_of_sound rfl ?_ sound⟩
      intro first member
      obtain rfl := Option.some.inj member
      exact if_neg digit

theorem begins_exponentSign (sound : ∀ t ∈ scan (.number .exponentSign d) cs, t.IsSound) :
    Begins (fun part => part ≠ [] ∧ AllDigits part) cs := by
  obtain ⟨c, rest, next, rfl, goesOn, further⟩ := next?_of_sound rfl sound
  simp only [Part.next?] at goesOn
  split at goesOn
  · next digit =>
    obtain rfl := Option.some.inj goesOn
    exact (begins_exponent further).cons fun part all =>
      ⟨List.cons_ne_nil _ _, List.forall_mem_cons.mpr ⟨digit, all⟩⟩
  · exact absurd goesOn (by simp)

/-- The sign and the digits of an exponent. -/
def IsSigned (part : List Char) : Prop :=
  ∃ sign digits, part = sign ++ digits ∧ (sign = [] ∨ sign = ['+'] ∨ sign = ['-']) ∧
    digits ≠ [] ∧ AllDigits digits

theorem begins_letter (sound : ∀ t ∈ scan (.number .letter d) cs, t.IsSound) :
    Begins IsSigned cs := by
  obtain ⟨c, rest, next, rfl, goesOn, further⟩ := next?_of_sound rfl sound
  simp only [Part.next?] at goesOn
  split at goesOn
  · next plus =>
    obtain rfl := Option.some.inj goesOn
    exact (begins_exponentSign further).cons fun part digits =>
      ⟨['+'], part, by rw [plus]; rfl, .inr (.inl rfl), digits⟩
  · split at goesOn
    · next minus =>
      obtain rfl := Option.some.inj goesOn
      exact (begins_exponentSign further).cons fun part digits =>
        ⟨['-'], part, by rw [minus]; rfl, .inr (.inr rfl), digits⟩
    · split at goesOn
      · next digit =>
        obtain rfl := Option.some.inj goesOn
        exact (begins_exponent further).cons fun part all =>
          ⟨[], c :: part, rfl, .inl rfl, List.cons_ne_nil _ _,
            List.forall_mem_cons.mpr ⟨digit, all⟩⟩
      · exact absurd goesOn (by simp)

/-- What there may be of a numeral behind its fraction. -/
def IsEnd (part : List Char) : Prop :=
  ∃ exponent, (∀ e ∈ exponent, e.Proper) ∧ part = writtenExponent exponent

theorem begins_end (mayEnd : MayEnd part)
    (others : ∀ c ∈ cs.head?, ¬(c = 'e' ∨ c = 'E') → part.next? d c = none)
    (sound : ∀ t ∈ scan (.number part d) cs, t.IsSound) : Begins IsEnd cs := by
  have nothing : IsEnd [] := ⟨none, by simp, rfl⟩
  have complete : part.complete = true := by rcases mayEnd with rfl | rfl | rfl <;> rfl
  cases cs with
  | nil => exact ⟨[], [], rfl, nothing, endsNumeral_nil⟩
  | cons c cs =>
    by_cases letter : c = 'e' ∨ c = 'E'
    · have next : part.next? d c = some (.letter, { d with written := c :: d.written }) := by
        rcases letter with rfl | rfl <;> rcases mayEnd with rfl | rfl | rfl <;> rfl
      rw [scan, next] at sound
      refine (begins_letter sound).cons fun part signed => ?_
      obtain ⟨sign, digits, rfl, signs, nonempty, all⟩ := signed
      refine ⟨some ⟨c, sign, digits⟩, fun e member => ?_, rfl⟩
      obtain rfl := Option.some.inj member
      exact ⟨letter, signs, nonempty, all⟩
    · refine ⟨[], c :: cs, rfl, nothing, endsNumeral_of_sound complete ?_ sound⟩
      intro first member
      obtain rfl := Option.some.inj member
      exact others c rfl letter

/-- Digits, and what there may be behind the fraction. -/
def IsFraction (part : List Char) : Prop :=
  ∃ digits behind, part = digits ++ behind ∧ AllDigits digits ∧ IsEnd behind

theorem begins_fraction (sound : ∀ t ∈ scan (.number .fraction d) cs, t.IsSound) :
    Begins IsFraction cs := by
  have atOnce {cs : List Char} (h : Begins IsEnd cs) : Begins IsFraction cs :=
    h.imp fun part ending => ⟨[], part, rfl, allDigits_nil, ending⟩
  induction cs generalizing d with
  | nil => exact atOnce (begins_end (.inr (.inr rfl)) (by simp) sound)
  | cons c cs ih =>
    by_cases digit : c.isDigit = true
    · rw [scan, next?_digit (.inr (.inl rfl)) digit d] at sound
      refine (ih sound).cons fun part fraction => ?_
      obtain ⟨digits, behind, rfl, all, ending⟩ := fraction
      exact ⟨c :: digits, behind, rfl, List.forall_mem_cons.mpr ⟨digit, all⟩, ending⟩
    · refine atOnce (begins_end (.inr (.inr rfl)) (fun first member other => ?_) sound)
      obtain rfl := Option.some.inj member
      simpa [Part.next?, digit] using not_or.mp other

/-- What there may be of a numeral behind its whole part. -/
def IsTail (part : List Char) : Prop :=
  ∃ fraction behind, part = pointed fraction ++ behind ∧ AllDigits fraction ∧ IsEnd behind

theorem begins_point (sound : ∀ t ∈ scan (.number .point d) cs, t.IsSound) :
    Begins (fun part => IsTail ('.' :: part)) cs := by
  obtain ⟨c, rest, next, rfl, goesOn, further⟩ := next?_of_sound rfl sound
  simp only [Part.next?] at goesOn
  split at goesOn
  · next digit =>
    obtain rfl := Option.some.inj goesOn
    refine (begins_fraction further).cons fun part fraction => ?_
    obtain ⟨digits, behind, rfl, all, ending⟩ := fraction
    exact ⟨c :: digits, behind, rfl, List.forall_mem_cons.mpr ⟨digit, all⟩, ending⟩
  · exact absurd goesOn (by simp)

theorem begins_tail (mayEnd : part = .zero ∨ part = .whole)
    (noDigit : part = .whole → ∀ c ∈ cs.head?, ¬c.isDigit = true)
    (sound : ∀ t ∈ scan (.number part d) cs, t.IsSound) : Begins IsTail cs := by
  by_cases point : ∃ rest, cs = '.' :: rest
  · obtain ⟨rest, rfl⟩ := point
    have next : part.next? d '.' = some (.point, { d with written := '.' :: d.written }) := by
      rcases mayEnd with rfl | rfl <;> rfl
    rw [scan, next] at sound
    exact (begins_point sound).cons fun part tail => tail
  · refine (begins_end (mayEnd.imp_right .inl) (fun c member other => ?_) sound).imp
      fun part ending => ⟨[], part, rfl, allDigits_nil, ending⟩
    have noPoint : c ≠ '.' := by
      rintro rfl
      obtain ⟨rest, same⟩ := List.head?_eq_some_iff.mp member
      exact point ⟨rest, same⟩
    rcases mayEnd with rfl | rfl
    · simpa [Part.next?, noPoint] using not_or.mp other
    · simpa [Part.next?, noPoint, noDigit rfl c member] using not_or.mp other

theorem begins_whole (sound : ∀ t ∈ scan (.number .whole d) cs, t.IsSound) :
    Begins (fun part => ∃ digits behind, part = digits ++ behind ∧ AllDigits digits ∧
      IsTail behind) cs := by
  induction cs generalizing d with
  | nil =>
    exact (begins_tail (.inr rfl) (by simp) sound).imp
      fun part tail => ⟨[], part, rfl, allDigits_nil, tail⟩
  | cons c cs ih =>
    by_cases digit : c.isDigit = true
    · rw [scan, next?_digit (.inl rfl) digit d] at sound
      refine (ih sound).cons fun part whole => ?_
      obtain ⟨digits, behind, rfl, all, tail⟩ := whole
      exact ⟨c :: digits, behind, rfl, List.forall_mem_cons.mpr ⟨digit, all⟩, tail⟩
    · refine (begins_tail (.inr rfl) (fun _ first member => ?_) sound).imp
        fun part tail => ⟨[], part, rfl, allDigits_nil, tail⟩
      obtain rfl := Option.some.inj member
      exact digit

/-- A numeral that is read to its end is spelled by the parts of one. -/
theorem begins_written (negative : Bool)
    (sound : ∀ t ∈ scan (.number .sign d) cs, t.IsSound) :
    ∃ p : Parts, p.Proper ∧ p.negative = negative ∧
      ∃ rest, (if negative then ['-'] else []) ++ cs = p.written ++ rest ∧ EndsNumeral rest := by
  obtain ⟨c, rest, next, rfl, goesOn, further⟩ := next?_of_sound rfl sound
  have whole : Begins (fun part => ∃ whole behind, part = whole ++ behind ∧
      (whole = ['0'] ∨ ∃ d ds, whole = d :: ds ∧ d ≠ '0' ∧ AllDigits (d :: ds)) ∧
      IsTail behind) (c :: rest) := by
    simp only [Part.next?] at goesOn
    split at goesOn
    · next zero =>
      obtain rfl := Option.some.inj goesOn
      exact (begins_tail (.inl rfl) (by simp) further).cons fun part tail =>
        ⟨['0'], part, by rw [zero]; rfl, .inl rfl, tail⟩
    · next noZero =>
      split at goesOn
      · next digit =>
        obtain rfl := Option.some.inj goesOn
        refine (begins_whole further).cons fun part behind => ?_
        obtain ⟨digits, behind, rfl, all, tail⟩ := behind
        exact ⟨c :: digits, behind, rfl,
          .inr ⟨c, digits, rfl, noZero, List.forall_mem_cons.mpr ⟨digit, all⟩⟩, tail⟩
      · exact absurd goesOn (by simp)
  obtain ⟨part, rest', same, ⟨digits, behind, rfl, proper, fraction, ending, rfl, all, exponent,
    exponents, rfl⟩, ends⟩ := whole
  refine ⟨⟨negative, digits, fraction, exponent⟩, ⟨proper, all, exponents⟩, rfl, rest', ?_, ends⟩
  rw [same, Parts.written]
  simp only [List.append_assoc]

end Numeral

end RemoteIndex.Json
