import RemoteIndex.Proofs.Printed

/-!
# The grammar of values

A value is a token by itself, or its parts stand between brackets with commas between them. A strict
reader takes a value that is not nested too deeply and has no number out of range and no text with
half a surrogate pair; a skipping one takes every value. From the beginning of its tokens a reader
takes the tokens of one value, and it refuses them if there is none.
-/

namespace RemoteIndex.Json

/-! ## The grammar -/

/-- Is a reader of this mode content with a token that may be flawed? -/
def Mode.Admits (mode : Mode) (sound : Bool) : Prop := sound = true ∨ mode = .skipping

/-- A token that is a value by itself. -/
inductive Leaf (mode : Mode) : Json → Token → Prop
  | null : Leaf mode .null .null
  | bool (value : Bool) : Leaf mode (.bool value) (.bool value)
  | number {numeral : String} {finite : Bool} :
      mode.Admits finite → Leaf mode (.number numeral) (.number numeral finite)
  | text {content : String} {whole : Bool} :
      mode.Admits whole → Leaf mode (.text content) (.text content whole)

/-- A value with its tokens. -/
structure Item where
  value : Json
  tokens : List Token

/-- The value of a key with its tokens. -/
structure Member where
  key : String
  whole : Bool
  item : Item

namespace Member

def entry (m : Member) : String × Json := (m.key, m.item.value)

def tokens (m : Member) : List Token := .text m.key m.whole :: .mark ':' :: m.item.tokens

end Member

/-- Each of the parts behind a comma. -/
def behindCommas (parts : List (List Token)) : List Token := parts.flatMap (.mark ',' :: ·)

/-- The parts with commas between them. -/
def commas : List (List Token) → List Token
  | [] => []
  | part :: parts => part ++ behindCommas parts

/-- The parts between brackets, with commas between them. -/
def bracketed (opening closing : Char) (parts : List (List Token)) : List Token :=
  .mark opening :: (commas parts ++ [.mark closing])

/-- `Forms mode opened v ts`: where so many values are open, the tokens are those of a value that a
reader of this mode takes. -/
inductive Forms (mode : Mode) : Nat → Json → List Token → Prop
  | leaf {opened : Nat} {v : Json} {t : Token} : Leaf mode v t → Forms mode opened v [t]
  | list {opened : Nat} {items : List Item} :
      mode.Opens opened → (∀ i ∈ items, Forms mode (opened + 1) i.value i.tokens) →
      Forms mode opened (.list (items.map Item.value))
        (bracketed '[' ']' (items.map Item.tokens))
  | object {opened : Nat} {members : List Member} :
      mode.Opens opened → (∀ m ∈ members, mode.Admits m.whole) →
      (∀ m ∈ members, Forms mode (opened + 1) m.item.value m.item.tokens) →
      Forms mode opened (.object (members.map Member.entry))
        (bracketed '\x7b' '\x7d' (members.map Member.tokens))

variable {mode : Mode} {opened : Nat} {v : Json} {ts : List Token}

/-- The tokens of a value begin with one that ends no list. -/
theorem Forms.exists_eq_cons (h : Forms mode opened v ts) :
    ∃ t rest, ts = t :: rest ∧ t ≠ .mark ']' := by
  cases h with
  | leaf leaf => cases leaf <;> exact ⟨_, _, rfl, by simp⟩
  | list => exact ⟨_, _, rfl, by simp⟩
  | object => exact ⟨_, _, rfl, by simp⟩

namespace Reader

variable {frames : List Frame} {rest : List Token} {r : Json × List Token} {t : Token}
variable {done : List Json} {known : List (String × Json)}

/-! ## What one token does -/

/-- The reader goes on behind a finished value. -/
def goOn (mode : Mode) (v : Json) (frames : List Frame) (ts : List Token) :
    Except Fault (Json × List Token) :=
  match deliver v frames with
  | .inl v => .ok (v, ts)
  | .inr frames => read mode .comma frames ts

section

variable (mode : Mode) (frames : List Frame) (t : Token) (ts : List Token)

theorem read_value_cons : read mode .value frames (t :: ts) =
    if t = .mark '[' then
      if mayOpen mode frames then read mode .firstItem (.list [] :: frames) ts
      else .error .syntaxError
    else if t = .mark '\x7b' then
      if mayOpen mode frames then read mode .firstKey (.object [] "" :: frames) ts
      else .error .syntaxError
    else
      match scalar mode t with
      | .error fault => .error fault
      | .ok v => goOn mode v frames ts := rfl

theorem read_firstItem_cons : read mode .firstItem (.list [] :: frames) (t :: ts) =
    if t = .mark ']' then goOn mode (.list []) frames ts
    else read mode .value (.list [] :: frames) (t :: ts) := rfl

theorem read_firstKey_cons : read mode .firstKey (.object [] "" :: frames) (t :: ts) =
    if t = .mark '\x7d' then goOn mode (.object []) frames ts
    else read mode (.key []) frames (t :: ts) := rfl

theorem read_key_cons (known : List (String × Json)) :
    read mode (.key known) frames (t :: ts) =
      match key mode t with
      | .error fault => .error fault
      | .ok k => read mode (.colon known k) frames ts := rfl

theorem read_colon_cons (known : List (String × Json)) (k : String) :
    read mode (.colon known k) frames (t :: ts) =
      if t = .mark ':' then read mode .value (.object known k :: frames) ts
      else .error .syntaxError := rfl

theorem read_comma_list_cons (done : List Json) :
    read mode .comma (.list done :: frames) (t :: ts) =
      if t = .mark ',' then read mode .value (.list done :: frames) ts
      else if t = .mark ']' then goOn mode (.list done.reverse) frames ts
      else .error .syntaxError := rfl

theorem read_comma_object_cons (known : List (String × Json)) (k : String) :
    read mode .comma (.object known k :: frames) (t :: ts) =
      if t = .mark ',' then read mode (.key known) frames ts
      else if t = .mark '\x7d' then goOn mode (.object known.reverse) frames ts
      else .error .syntaxError := rfl

end

theorem mayOpen_iff : mayOpen mode frames = true ↔ mode.Opens frames.length := by
  cases mode with
  | strict depth => exact decide_eq_true_iff
  | skipping => exact iff_of_true rfl trivial

theorem admits_iff {sound : Bool} : (sound || mode = .skipping) = true ↔ mode.Admits sound := by
  rw [Bool.or_eq_true, decide_eq_true_eq, Mode.Admits]

theorem scalar_eq_ok : scalar mode t = .ok v ↔ Leaf mode v t := by
  constructor
  · intro h
    cases t with
    | null =>
      obtain rfl := Except.ok.inj h
      exact .null
    | bool value =>
      obtain rfl := Except.ok.inj h
      exact .bool value
    | number numeral finite =>
      rw [scalar] at h
      split at h
      · next admitted =>
        obtain rfl := Except.ok.inj h
        exact .number (admits_iff.mp admitted)
      · cases h
    | text content whole =>
      rw [scalar] at h
      split at h
      · next admitted =>
        obtain rfl := Except.ok.inj h
        exact .text (admits_iff.mp admitted)
      · cases h
    | mark | brokenText | brokenValue | stray => cases h
  · intro h
    cases h with
    | null => rfl
    | bool => rfl
    | number admitted => exact if_pos (admits_iff.mpr admitted)
    | text admitted => exact if_pos (admits_iff.mpr admitted)

theorem key_eq_ok {k : String} :
    key mode t = .ok k ↔ ∃ whole, t = .text k whole ∧ mode.Admits whole := by
  constructor
  · intro h
    cases t with
    | text content whole =>
      rw [key] at h
      split at h
      · next admitted =>
        obtain rfl := Except.ok.inj h
        exact ⟨whole, rfl, admits_iff.mp admitted⟩
      · cases h
    | _ => cases h
  · rintro ⟨whole, rfl, admitted⟩
    exact if_pos (admits_iff.mpr admitted)

theorem read_leaf (leaf : Leaf mode v t) :
    read mode .value frames (t :: ts) = goOn mode v frames ts := by
  have noBracket : t ≠ .mark '[' := by rintro rfl; cases leaf
  have noBrace : t ≠ .mark '\x7b' := by rintro rfl; cases leaf
  rw [read_value_cons, if_neg noBracket, if_neg noBrace, scalar_eq_ok.mpr leaf]

theorem read_bracket (opens : mode.Opens frames.length) :
    read mode .value frames (.mark '[' :: ts) = read mode .firstItem (.list [] :: frames) ts := by
  rw [read_value_cons, if_pos rfl, if_pos (mayOpen_iff.mpr opens)]

theorem read_brace (opens : mode.Opens frames.length) :
    read mode .value frames (.mark '\x7b' :: ts) =
      read mode .firstKey (.object [] "" :: frames) ts := by
  rw [read_value_cons, if_neg (by simp), if_pos rfl, if_pos (mayOpen_iff.mpr opens)]

/-- A value is read from its first token. -/
theorem read_value_cases (h : read mode .value frames ts = .ok r) :
    (∃ t rest v, ts = t :: rest ∧ Leaf mode v t ∧ goOn mode v frames rest = .ok r) ∨
      (∃ rest, ts = .mark '[' :: rest ∧ mode.Opens frames.length ∧
        read mode .firstItem (.list [] :: frames) rest = .ok r) ∨
      ∃ rest, ts = .mark '\x7b' :: rest ∧ mode.Opens frames.length ∧
        read mode .firstKey (.object [] "" :: frames) rest = .ok r := by
  cases ts with
  | nil => cases h
  | cons t ts =>
    by_cases bracket : t = .mark '['
    · subst bracket
      rw [read_value_cons, if_pos rfl] at h
      split at h
      · next opens => exact .inr (.inl ⟨ts, rfl, mayOpen_iff.mp opens, h⟩)
      · cases h
    by_cases brace : t = .mark '\x7b'
    · subst brace
      rw [read_value_cons, if_neg bracket, if_pos rfl] at h
      split at h
      · next opens => exact .inr (.inr ⟨ts, rfl, mayOpen_iff.mp opens, h⟩)
      · cases h
    · rw [read_value_cons, if_neg bracket, if_neg brace] at h
      cases single : scalar mode t with
      | error fault =>
        rw [single] at h
        cases h
      | ok v =>
        rw [single] at h
        exact .inl ⟨t, ts, v, rfl, scalar_eq_ok.mp single, h⟩

/-- A list that does not end at once begins with a value. -/
theorem read_firstItem (more : t ≠ .mark ']') :
    read mode .firstItem (.list [] :: frames) (t :: ts) =
      read mode .value (.list [] :: frames) (t :: ts) := by
  rw [read_firstItem_cons, if_neg more]

theorem read_firstItem_cases (h : read mode .firstItem (.list [] :: frames) ts = .ok r) :
    (∃ rest, ts = .mark ']' :: rest ∧ goOn mode (.list []) frames rest = .ok r) ∨
      read mode .value (.list [] :: frames) ts = .ok r := by
  cases ts with
  | nil => cases h
  | cons t ts =>
    by_cases bracket : t = .mark ']'
    · subst bracket
      exact .inl ⟨ts, rfl, h⟩
    · exact .inr (read_firstItem bracket ▸ h)

/-- Behind a key there are a colon and a value. -/
theorem read_key {k : String} {whole : Bool} (admitted : mode.Admits whole) :
    read mode (.key known) frames (.text k whole :: .mark ':' :: ts) =
      read mode .value (.object known k :: frames) ts := by
  rw [read_key_cons, key_eq_ok.mpr ⟨whole, rfl, admitted⟩]
  rfl

theorem read_key_cases (h : read mode (.key known) frames ts = .ok r) :
    ∃ k whole rest, ts = .text k whole :: .mark ':' :: rest ∧ mode.Admits whole ∧
      read mode .value (.object known k :: frames) rest = .ok r := by
  cases ts with
  | nil => cases h
  | cons t ts =>
    rw [read_key_cons] at h
    cases named : key mode t with
    | error fault =>
      rw [named] at h
      cases h
    | ok k =>
      rw [named] at h
      obtain ⟨whole, rfl, admitted⟩ := key_eq_ok.mp named
      cases ts with
      | nil => cases h
      | cons colon ts =>
        dsimp only at h
        rw [read_colon_cons] at h
        split at h
        · next same => exact ⟨k, whole, ts, by rw [same], admitted, h⟩
        · cases h

/-- An object that does not end at once begins with a key. -/
theorem read_firstKey (more : t ≠ .mark '\x7d') :
    read mode .firstKey (.object [] "" :: frames) (t :: ts) =
      read mode (.key []) frames (t :: ts) := by
  rw [read_firstKey_cons, if_neg more]

theorem read_firstKey_cases (h : read mode .firstKey (.object [] "" :: frames) ts = .ok r) :
    (∃ rest, ts = .mark '\x7d' :: rest ∧ goOn mode (.object []) frames rest = .ok r) ∨
      read mode (.key []) frames ts = .ok r := by
  cases ts with
  | nil => cases h
  | cons t ts =>
    by_cases brace : t = .mark '\x7d'
    · subst brace
      exact .inl ⟨ts, rfl, h⟩
    · exact .inr (read_firstKey brace ▸ h)

/-- Behind an item the list goes on or ends. -/
theorem read_comma_list_cases (h : read mode .comma (.list done :: frames) ts = .ok r) :
    (∃ rest, ts = .mark ']' :: rest ∧ goOn mode (.list done.reverse) frames rest = .ok r) ∨
      ∃ rest, ts = .mark ',' :: rest ∧ read mode .value (.list done :: frames) rest = .ok r := by
  cases ts with
  | nil => cases h
  | cons t ts =>
    rw [read_comma_list_cons] at h
    split at h
    · next comma => exact .inr ⟨ts, by rw [comma], h⟩
    · split at h
      · next bracket => exact .inl ⟨ts, by rw [bracket], h⟩
      · cases h

/-- Behind a member the object goes on or ends. -/
theorem read_comma_object_cases {k : String}
    (h : read mode .comma (.object known k :: frames) ts = .ok r) :
    (∃ rest, ts = .mark '\x7d' :: rest ∧ goOn mode (.object known.reverse) frames rest = .ok r) ∨
      ∃ rest, ts = .mark ',' :: rest ∧ read mode (.key known) frames rest = .ok r := by
  cases ts with
  | nil => cases h
  | cons t ts =>
    rw [read_comma_object_cons] at h
    split at h
    · next comma => exact .inr ⟨ts, by rw [comma], h⟩
    · split at h
      · next brace => exact .inl ⟨ts, by rw [brace], h⟩
      · cases h

/-! ## The reader takes what the grammar allows -/

/-- Wherever the value may stand, the reader takes its tokens and goes on with it. -/
def IsRead (mode : Mode) (opened : Nat) (v : Json) (ts : List Token) : Prop :=
  ∀ frames : List Frame, frames.length = opened → ∀ rest,
    read mode .value frames (ts ++ rest) = goOn mode v frames rest

theorem read_items {items : List Item}
    (taken : ∀ i ∈ items, IsRead mode (frames.length + 1) i.value i.tokens) (done : List Json)
    (rest : List Token) :
    read mode .comma (.list done :: frames)
        (behindCommas (items.map Item.tokens) ++ .mark ']' :: rest) =
      goOn mode (.list (done.reverse ++ items.map Item.value)) frames rest := by
  induction items generalizing done with
  | nil =>
    rw [List.map_nil, List.map_nil, List.append_nil]
    rfl
  | cons i items ih =>
    obtain ⟨here, behind⟩ := List.forall_mem_cons.mp taken
    have comma : read mode .comma (.list done :: frames)
          (behindCommas ((i :: items).map Item.tokens) ++ .mark ']' :: rest) =
        read mode .value (.list done :: frames)
          (i.tokens ++ (behindCommas (items.map Item.tokens) ++ .mark ']' :: rest)) := by
      rw [List.map_cons, behindCommas, List.flatMap_cons, List.cons_append, List.cons_append,
        List.append_assoc, read_comma_list_cons, if_pos rfl]
      rfl
    rw [comma, here _ rfl]
    change read mode .comma (.list (i.value :: done) :: frames) _ = _
    rw [ih behind, List.reverse_cons, List.append_assoc]
    rfl

theorem read_members {members : List Member}
    (admitted : ∀ m ∈ members, mode.Admits m.whole)
    (taken : ∀ m ∈ members, IsRead mode (frames.length + 1) m.item.value m.item.tokens)
    (known : List (String × Json)) (k : String) (rest : List Token) :
    read mode .comma (.object known k :: frames)
        (behindCommas (members.map Member.tokens) ++ .mark '\x7d' :: rest) =
      goOn mode (.object (known.reverse ++ members.map Member.entry)) frames rest := by
  induction members generalizing known k with
  | nil =>
    rw [List.map_nil, List.map_nil, List.append_nil]
    rfl
  | cons m members ih =>
    obtain ⟨admittedHere, admittedBehind⟩ := List.forall_mem_cons.mp admitted
    obtain ⟨here, behind⟩ := List.forall_mem_cons.mp taken
    have comma : read mode .comma (.object known k :: frames)
          (behindCommas ((m :: members).map Member.tokens) ++ .mark '\x7d' :: rest) =
        read mode (.key known) frames (.text m.key m.whole :: .mark ':' ::
          (m.item.tokens ++
            (behindCommas (members.map Member.tokens) ++ .mark '\x7d' :: rest))) := by
      rw [List.map_cons, behindCommas, List.flatMap_cons, List.cons_append, List.cons_append,
        List.append_assoc, read_comma_object_cons, if_pos rfl]
      rfl
    rw [comma, read_key admittedHere, here _ rfl]
    change read mode .comma (.object (m.entry :: known) m.key :: frames) _ = _
    rw [ih admittedBehind behind, List.reverse_cons, List.append_assoc]
    rfl

theorem isRead_of_forms (h : Forms mode opened v ts) : IsRead mode opened v ts := by
  induction h with
  | leaf leaf => exact fun frames _ rest => read_leaf leaf
  | @list opened items opens forms ih =>
    intro frames height rest
    subst height
    rw [bracketed, List.cons_append, read_bracket opens, List.append_assoc, List.singleton_append]
    cases items with
    | nil =>
      rw [List.map_nil, commas, List.nil_append]
      rfl
    | cons i items =>
      obtain ⟨here, behind⟩ := List.forall_mem_cons.mp ih
      obtain ⟨t, more, begins, noEnd⟩ := (forms i List.mem_cons_self).exists_eq_cons
      have first (rest : List Token) :
          read mode .firstItem (.list [] :: frames) (i.tokens ++ rest) =
            read mode .value (.list [] :: frames) (i.tokens ++ rest) := by
        rw [begins]
        exact read_firstItem noEnd
      rw [List.map_cons, commas, List.append_assoc, first, here _ rfl]
      exact read_items behind [i.value] rest
  | @object opened members opens admitted forms ih =>
    intro frames height rest
    subst height
    rw [bracketed, List.cons_append, read_brace opens, List.append_assoc, List.singleton_append]
    cases members with
    | nil =>
      rw [List.map_nil, commas, List.nil_append]
      rfl
    | cons m members =>
      obtain ⟨admittedHere, admittedBehind⟩ := List.forall_mem_cons.mp admitted
      obtain ⟨here, behind⟩ := List.forall_mem_cons.mp ih
      rw [List.map_cons, commas, List.append_assoc, Member.tokens, List.cons_append,
        read_firstKey (by simp), List.cons_append, read_key admittedHere, here _ rfl]
      exact read_members admittedBehind behind [m.entry] m.key rest

/-! ## The reader takes nothing else -/

/-- Where a value is read, its tokens come first. -/
def FindsForms (mode : Mode) (frames : List Frame) (ts : List Token) : Prop :=
  ∀ r, read mode .value frames ts = .ok r → ∃ (i : Item) (rest : List Token),
    ts = i.tokens ++ rest ∧ Forms mode frames.length i.value i.tokens ∧
      goOn mode i.value frames rest = .ok r

theorem exists_items
    (values : ∀ frames rest, rest.length < ts.length → FindsForms mode frames rest)
    (h : read mode .comma (.list done :: frames) ts = .ok r) :
    ∃ (items : List Item) (rest : List Token),
      ts = behindCommas (items.map Item.tokens) ++ .mark ']' :: rest ∧
        (∀ i ∈ items, Forms mode (frames.length + 1) i.value i.tokens) ∧
        goOn mode (.list (done.reverse ++ items.map Item.value)) frames rest = .ok r := by
  induction length : ts.length using Nat.strongRecOn generalizing ts done with
  | ind size ih =>
    subst length
    rcases read_comma_list_cases h with ⟨rest, rfl, ends⟩ | ⟨rest, rfl, goesOn⟩
    · refine ⟨[], rest, rfl, by simp, ?_⟩
      rwa [List.map_nil, List.append_nil]
    · obtain ⟨i, rest, rfl, forms, further⟩ := values _ rest (Nat.lt_succ_self _) r goesOn
      have shorter : rest.length < (.mark ',' :: (i.tokens ++ rest) : List Token).length := by
        simp only [List.length_cons, List.length_append]
        omega
      obtain ⟨items, rest', rfl, all, ends⟩ := ih _ shorter
        (fun frames rest short => values frames rest (Nat.lt_trans short shorter)) further rfl
      refine ⟨i :: items, rest', by simp [behindCommas], List.forall_mem_cons.mpr ⟨forms, all⟩, ?_⟩
      rw [← ends]
      simp

theorem exists_member
    (values : ∀ frames rest, rest.length < ts.length → FindsForms mode frames rest)
    (h : read mode (.key known) frames ts = .ok r) :
    ∃ (m : Member) (rest : List Token), ts = m.tokens ++ rest ∧ mode.Admits m.whole ∧
      Forms mode (frames.length + 1) m.item.value m.item.tokens ∧
      read mode .comma (.object (m.entry :: known) m.key :: frames) rest = .ok r := by
  obtain ⟨k, whole, rest, rfl, admitted, goesOn⟩ := read_key_cases h
  obtain ⟨i, rest, rfl, forms, further⟩ :=
    values _ rest (by simp only [List.length_cons]; omega) r goesOn
  exact ⟨⟨k, whole, i⟩, rest, rfl, admitted, forms, further⟩

theorem exists_members {k : String}
    (values : ∀ frames rest, rest.length < ts.length → FindsForms mode frames rest)
    (h : read mode .comma (.object known k :: frames) ts = .ok r) :
    ∃ (members : List Member) (rest : List Token),
      ts = behindCommas (members.map Member.tokens) ++ .mark '\x7d' :: rest ∧
        (∀ m ∈ members, mode.Admits m.whole) ∧
        (∀ m ∈ members, Forms mode (frames.length + 1) m.item.value m.item.tokens) ∧
        goOn mode (.object (known.reverse ++ members.map Member.entry)) frames rest = .ok r := by
  induction length : ts.length using Nat.strongRecOn generalizing ts known k with
  | ind size ih =>
    subst length
    rcases read_comma_object_cases h with ⟨rest, rfl, ends⟩ | ⟨rest, rfl, goesOn⟩
    · refine ⟨[], rest, rfl, by simp, by simp, ?_⟩
      rwa [List.map_nil, List.append_nil]
    · obtain ⟨m, rest, rfl, admitted, forms, further⟩ := exists_member
        (fun frames rest short => values frames rest (Nat.lt_succ_of_lt short)) goesOn
      have shorter : rest.length < (.mark ',' :: (m.tokens ++ rest) : List Token).length := by
        simp only [List.length_cons, List.length_append]
        omega
      obtain ⟨members, rest', rfl, allAdmitted, all, ends⟩ := ih _ shorter
        (fun frames rest short => values frames rest (Nat.lt_trans short shorter)) further rfl
      refine ⟨m :: members, rest', by simp [behindCommas],
        List.forall_mem_cons.mpr ⟨admitted, allAdmitted⟩, List.forall_mem_cons.mpr ⟨forms, all⟩, ?_⟩
      rw [← ends]
      simp

theorem findsForms (mode : Mode) (frames : List Frame) (ts : List Token) :
    FindsForms mode frames ts := by
  induction length : ts.length using Nat.strongRecOn generalizing frames ts with
  | ind size ih =>
    subst length
    have values (frames : List Frame) (rest : List Token) (short : rest.length < ts.length) :
        FindsForms mode frames rest := ih _ short frames rest rfl
    intro r h
    rcases read_value_cases h with
      ⟨t, rest, v, rfl, leaf, goesOn⟩ | ⟨rest, rfl, opens, goesOn⟩ | ⟨rest, rfl, opens, goesOn⟩
    · exact ⟨⟨v, [t]⟩, rest, rfl, .leaf leaf, goesOn⟩
    · rcases read_firstItem_cases goesOn with ⟨rest, rfl, ends⟩ | first
      · exact ⟨⟨.list [], [.mark '[', .mark ']']⟩, rest, rfl,
          @Forms.list mode _ [] opens (by simp), ends⟩
      · obtain ⟨i, rest, rfl, forms, further⟩ := values _ rest (Nat.lt_succ_self _) r first
        have smaller : rest.length < (.mark '[' :: (i.tokens ++ rest) : List Token).length := by
          simp only [List.length_cons, List.length_append]
          omega
        obtain ⟨items, rest', rfl, all, ends⟩ := exists_items
          (fun frames rest short => values frames rest (Nat.lt_trans short smaller)) further
        exact ⟨⟨.list ((i :: items).map Item.value), _⟩, rest', by simp [commas],
          .list opens (List.forall_mem_cons.mpr ⟨forms, all⟩), ends⟩
    · rcases read_firstKey_cases goesOn with ⟨rest, rfl, ends⟩ | first
      · exact ⟨⟨.object [], [.mark '\x7b', .mark '\x7d']⟩, rest, rfl,
          @Forms.object mode _ [] opens (by simp) (by simp), ends⟩
      · obtain ⟨m, rest, rfl, admitted, forms, further⟩ := exists_member
          (fun frames rest short => values frames rest (Nat.lt_succ_of_lt short)) first
        have smaller : rest.length < (.mark '\x7b' :: (m.tokens ++ rest) : List Token).length := by
          simp only [List.length_cons, List.length_append]
          omega
        obtain ⟨members, rest', rfl, allAdmitted, all, ends⟩ := exists_members
          (fun frames rest short => values frames rest (Nat.lt_trans short smaller)) further
        exact ⟨⟨.object ((m :: members).map Member.entry), _⟩, rest', by simp [commas],
          .object opens (List.forall_mem_cons.mpr ⟨admitted, allAdmitted⟩)
            (List.forall_mem_cons.mpr ⟨forms, all⟩), ends⟩

end Reader

/-- A value is read from the tokens that are its own, and from no others. -/
theorem readValue_eq_ok {rest : List Token} :
    readValue mode ts = .ok (v, rest) ↔ ∃ part, ts = part ++ rest ∧ Forms mode 0 v part := by
  constructor
  · intro h
    obtain ⟨i, rest', rfl, forms, ends⟩ := Reader.findsForms mode [] ts _ h
    obtain ⟨rfl, rfl⟩ := Prod.mk.inj (Except.ok.inj ends)
    exact ⟨i.tokens, rfl, forms⟩
  · rintro ⟨part, rfl, forms⟩
    exact Reader.isRead_of_forms forms [] rfl rest

end RemoteIndex.Json
