import RemoteIndex.ImportMap.Document
import RemoteIndex.Proofs.Grammar
import RemoteIndex.Proofs.Spelling

/-!
# The grammar of import maps

The text of an import map is that of an object with at most one member `imports`, which is an object
itself, or of a list with at most one item, which takes its place. All other texts are refused.
-/

namespace RemoteIndex.Json

variable {mode : Mode} {opened : Nat} {v : Json} {ts : List Token} {parts : List (List Token)}

theorem Mode.admits_strict {depth : Nat} {sound : Bool} :
    (Mode.strict depth).Admits sound ↔ sound = true := by
  rw [Mode.Admits]
  exact or_iff_left (by simp)

/-- Brackets, commas and colons are not broken. -/
theorem isSound_bracketed {a b : Char} (sound : ∀ part ∈ parts, ∀ t ∈ part, t.IsSound) :
    ∀ t ∈ bracketed a b parts, t.IsSound := by
  have between : ∀ t ∈ commas parts, t.IsSound := by
    cases parts with
    | nil => exact List.forall_mem_nil _
    | cons part parts =>
      obtain ⟨here, behind⟩ := List.forall_mem_cons.mp sound
      refine List.forall_mem_append.mpr ⟨here, List.forall_mem_flatMap.mpr fun part member => ?_⟩
      exact List.forall_mem_cons.mpr ⟨trivial, behind part member⟩
  refine List.forall_mem_cons.mpr ⟨trivial, List.forall_mem_append.mpr ⟨between, ?_⟩⟩
  exact List.forall_mem_singleton.mpr trivial

theorem isSound_keyed {key : String} {whole : Bool} (sound : ∀ t ∈ ts, t.IsSound) :
    ∀ t ∈ .text key whole :: .mark ':' :: ts, t.IsSound :=
  List.forall_mem_cons.mpr ⟨trivial, List.forall_mem_cons.mpr ⟨trivial, sound⟩⟩

/-- No token of a value is broken. -/
theorem Forms.isSound (h : Forms mode opened v ts) : ∀ t ∈ ts, t.IsSound := by
  induction h with
  | leaf leaf =>
    refine List.forall_mem_singleton.mpr ?_
    cases leaf <;> trivial
  | list _ _ ih => exact isSound_bracketed (List.forall_mem_map.mpr ih)
  | object _ _ _ ih =>
    refine isSound_bracketed (List.forall_mem_map.mpr fun m member => ?_)
    exact isSound_keyed (ih m member)

/-- There is a token for every part. -/
theorem length_le (parts : List (List Token)) (t : Token) :
    parts.length ≤ (commas parts ++ [t]).length := by
  have behind (parts : List (List Token)) : parts.length ≤ (behindCommas parts).length := by
    induction parts with
    | nil => exact Nat.zero_le _
    | cons part parts ih =>
      simp only [behindCommas, List.flatMap_cons, List.length_cons, List.length_append] at ih ⊢
      omega
  cases parts with
  | nil => exact Nat.zero_le _
  | cons part parts =>
    have enough := behind parts
    simp only [commas, List.length_cons, List.length_append]
    omega

end RemoteIndex.Json

namespace RemoteIndex.ImportMap.Document

open Json

/-! ## The grammar -/

/-- The member is one of the object under `imports`. -/
structure IsAlias (m : Member) : Prop where
  whole : m.whole = true
  forms : Forms (.strict (maxDepth - 1)) 1 m.item.value m.item.tokens

/-- The tokens of the object under `imports`. -/
def importsTokens (ms : List Member) : List Token :=
  bracketed '\x7b' '\x7d' (ms.map Member.tokens)

/-- A member of the outer object. -/
inductive Field where
  | imports (members : List Member)
  | other (key : String) (item : Item)

namespace Field

def tokens : Field → List Token
  | .imports ms => .text "imports" true :: .mark ':' :: importsTokens ms
  | .other key item => .text key true :: .mark ':' :: item.tokens

/-- Of what is under another key than `imports`, only the form matters. -/
def Proper : Field → Prop
  | .imports ms => ∀ m ∈ ms, IsAlias m
  | .other key item => key ≠ "imports" ∧ Forms .skipping 0 item.value item.tokens

/-- What is under `imports`, if this is the member. -/
def imports? : Field → Option (List Member)
  | .imports ms => some ms
  | .other _ _ => none

end Field

/-- An import map as it is written: an object, or a list in its place. -/
inductive Source where
  | object (fields : List Field)
  | list (imports : Option (List Member))

namespace Source

def tokens : Source → List Token
  | .object fields => bracketed '\x7b' '\x7d' (fields.map Field.tokens)
  | .list imports => bracketed '[' ']' (imports.toList.map importsTokens)

/-- The members of the outer object, or what the list says of them. -/
def fields : Source → List Field
  | .object fields => fields
  | .list imports => imports.toList.map .imports

/-- All that is under `imports`. -/
def imports (s : Source) : List (List Member) := s.fields.filterMap Field.imports?

/-- The members under `imports`, in the order of the text. -/
def members (s : Source) : Members := (s.imports.headD []).map Member.entry

/-- The import map is well-formed. -/
structure Proper (s : Source) : Prop where
  fields : ∀ f ∈ s.fields, f.Proper
  single : s.imports.length ≤ 1

/-- The text is that of the import map. -/
structure Spells (s : Source) (text : String) : Prop where
  proper : s.Proper
  spelled : Token.Spelled s.tokens text.toList

end Source

/-- The text is one of an import map. -/
def Acceptable (text : String) : Prop := ∃ s : Source, s.Spells text

/-! ## Members of the outer object -/

variable {members ms : Members} {ts rest : List Token} {found : Option Members} {n : Nat}

theorem imports_eq_ok : imports ts = .ok (members, rest) ↔
    ∃ ms : List Member, ts = importsTokens ms ++ rest ∧ (∀ m ∈ ms, IsAlias m) ∧
      ms.map Member.entry = members := by
  constructor
  · intro h
    cases ts with
    | nil => cases h
    | cons t ts =>
      rw [imports] at h
      split at h
      · split at h
        · next read =>
          obtain ⟨rfl, rfl⟩ := Prod.mk.inj (Except.ok.inj h)
          obtain ⟨part, same, forms⟩ := readValue_eq_ok.mp read
          cases forms with
          | leaf leaf => cases leaf
          | @object _ ms _ admitted forms =>
            have all : ∀ m ∈ ms, IsAlias m := fun m member =>
              ⟨Mode.admits_strict.mp (admitted m member), forms m member⟩
            exact ⟨ms, same, all, rfl⟩
        · cases h
        · cases h
      · split at h
        · cases h
        · split at h <;> cases h
  · rintro ⟨ms, rfl, all, rfl⟩
    have opens : (Mode.strict (maxDepth - 1)).Opens 0 := by
      rw [Mode.Opens]
      decide
    have forms := Forms.object opens (fun m member => Mode.admits_strict.mpr (all m member).whole)
      fun m member => (all m member).forms
    have read : readValue (.strict (maxDepth - 1)) (importsTokens ms ++ rest) =
        .ok (.object (ms.map Member.entry), rest) := readValue_eq_ok.mpr ⟨_, rfl, forms⟩
    rw [importsTokens, bracketed, List.cons_append] at read ⊢
    rw [imports, if_pos rfl, read]

theorem finish_eq_ok : finish members ts = .ok ms ↔ ts = [] ∧ members = ms := by
  cases ts <;> simp [finish]

/-- Reads on behind a member. -/
def behindField (n : Nat) (found : Option Members) : List Token → Except Fault Members
  | [] => .error .unfinished
  | t :: ts =>
    if t = .mark ',' then fromKey n found ts
    else if t = .mark '\x7d' then finish (found.getD []) ts
    else .error .syntaxError

/-- What follows a member: the end, or a comma and the next one. -/
def Continues (n : Nat) (found : Option Members) (ms : Members) (rest : List Token) : Prop :=
  rest = [.mark '\x7d'] ∧ found.getD [] = ms ∨
    ∃ ts, rest = .mark ',' :: ts ∧ fromKey n found ts = .ok ms

theorem behindField_eq_ok : behindField n found rest = .ok ms ↔ Continues n found ms rest := by
  constructor
  · intro h
    cases rest with
    | nil => cases h
    | cons t ts =>
      rw [behindField] at h
      split at h
      · next comma => exact .inr ⟨ts, by rw [comma], h⟩
      · split at h
        · next brace =>
          obtain ⟨rfl, given⟩ := finish_eq_ok.mp h
          exact .inl ⟨by rw [brace], given⟩
        · cases h
  · rintro (⟨rfl, given⟩ | ⟨ts, rfl, goesOn⟩)
    · exact finish_eq_ok.mpr ⟨rfl, given⟩
    · exact goesOn

/-- Reading from a key on, once the key is known. -/
theorem fromKey_text (key : String) (ts : List Token) :
    fromKey (n + 1) found (.text key true :: .mark ':' :: ts) =
      if key = "imports" then
        if found.isSome then .error .wrongForm
        else
          match imports ts with
          | .error fault => .error fault
          | .ok (members, rest) => behindField n (some members) rest
      else
        match readValue .skipping ts with
        | .error fault => .error fault
        | .ok (_, rest) => behindField n found rest := by
  have named : Reader.key (.strict maxDepth) (.text key true) = .ok key := rfl
  rw [fromKey, named]
  by_cases same : key = "imports"
  · cases found with
    | none => simp [same]; rfl
    | some members => simp [same]
  · simp [same]
    rfl

/-- A member begins with its key and a colon. -/
theorem exists_eq_text (h : fromKey n found ts = .ok ms) :
    ∃ k key rest, n = k + 1 ∧ ts = .text key true :: .mark ':' :: rest := by
  cases n with
  | zero => cases h
  | succ k =>
    cases ts with
    | nil => cases h
    | cons t ts =>
      rw [fromKey] at h
      cases named : Reader.key (.strict maxDepth) t with
      | error fault =>
        rw [named] at h
        cases h
      | ok key =>
        obtain ⟨whole, rfl, admitted⟩ := Reader.key_eq_ok.mp named
        obtain rfl := Mode.admits_strict.mp admitted
        rw [named] at h
        dsimp only at h
        split at h
        · cases h
        · cases ts with
          | nil => cases h
          | cons colon ts =>
            dsimp only at h
            split at h
            · cases h
            · next same => exact ⟨k, key, ts, rfl, by rw [Classical.not_not.mp same]⟩

/-- What has been found once the member has been read. -/
def foundWith (f : Field) (found : Option Members) : Option Members :=
  (f.imports?.map (List.map Member.entry)).or found

/-- One member is read, and the reader goes on behind it. -/
theorem fromKey_succ_eq_ok : fromKey (n + 1) found ts = .ok ms ↔
    ∃ (f : Field) (rest : List Token), ts = f.tokens ++ rest ∧ f.Proper ∧
      (f.imports?.isSome = true → found = none) ∧ Continues n (foundWith f found) ms rest := by
  constructor
  · intro h
    obtain ⟨_, key, ts, -, rfl⟩ := exists_eq_text h
    rw [fromKey_text] at h
    split at h
    · next same =>
      subst same
      split at h
      · cases h
      · next fresh =>
        cases read : imports ts with
        | error fault =>
          rw [read] at h
          cases h
        | ok result =>
          obtain ⟨members, rest⟩ := result
          rw [read] at h
          obtain ⟨ms, rfl, all, rfl⟩ := imports_eq_ok.mp read
          refine ⟨.imports ms, rest, rfl, all, fun _ => ?_, behindField_eq_ok.mp h⟩
          simpa using fresh
    · next other =>
      cases read : readValue .skipping ts with
      | error fault =>
        rw [read] at h
        cases h
      | ok result =>
        obtain ⟨value, rest⟩ := result
        rw [read] at h
        obtain ⟨part, rfl, forms⟩ := readValue_eq_ok.mp read
        exact ⟨.other key ⟨value, part⟩, rest, rfl, ⟨other, forms⟩,
          fun given => absurd given Bool.false_ne_true, behindField_eq_ok.mp h⟩
  · rintro ⟨f, rest, rfl, proper, fresh, continues⟩
    have goesOn := behindField_eq_ok.mpr continues
    cases f with
    | imports ms =>
      obtain rfl := fresh rfl
      rw [Field.tokens, List.cons_append, List.cons_append, fromKey_text, if_pos rfl,
        imports_eq_ok.mpr ⟨ms, rfl, proper, rfl⟩]
      exact goesOn
    | other key item =>
      obtain ⟨other, forms⟩ := proper
      rw [Field.tokens, List.cons_append, List.cons_append, fromKey_text, if_neg other,
        readValue_eq_ok.mpr ⟨item.tokens, rfl, forms⟩]
      exact goesOn

/-- All that is under `imports`, found before or in the members. -/
def allImports (found : Option Members) (fields : List Field) : List Members :=
  found.toList ++ (fields.filterMap Field.imports?).map (List.map Member.entry)

theorem allImports_nil (found : Option Members) :
    (allImports found []).length ≤ 1 ∧ (allImports found []).headD [] = found.getD [] := by
  cases found <;> simp [allImports]

theorem allImports_cons {f : Field} (fresh : f.imports?.isSome = true → found = none)
    (fields : List Field) :
    allImports found (f :: fields) = allImports (foundWith f found) fields := by
  cases f with
  | imports ms =>
    obtain rfl := fresh rfl
    rfl
  | other key value => rfl

/-- Of several members under `imports` the second one is refused. -/
theorem fresh_of_allImports {f : Field} {fields : List Field}
    (single : (allImports found (f :: fields)).length ≤ 1) :
    f.imports?.isSome = true → found = none := by
  cases found with
  | none => exact fun _ => rfl
  | some members =>
    cases f with
    | imports _ => simp [allImports, Field.imports?] at single
    | other key value => exact fun given => absurd given Bool.false_ne_true

/-- Members that can be read where this has been found. -/
structure Fitting (found : Option Members) (fields : List Field) : Prop where
  nonempty : fields ≠ []
  proper : ∀ f ∈ fields, f.Proper
  single : (allImports found fields).length ≤ 1

theorem exists_fitting (h : fromKey n found ts = .ok ms) :
    ∃ fields, Fitting found fields ∧ ts = commas (fields.map Field.tokens) ++ [.mark '\x7d'] ∧
      (allImports found fields).headD [] = ms := by
  induction n generalizing found ts with
  | zero => cases h
  | succ n ih =>
    obtain ⟨f, rest, rfl, proper, fresh, continues⟩ := fromKey_succ_eq_ok.mp h
    rcases continues with ⟨rfl, rfl⟩ | ⟨rest, rfl, goesOn⟩
    · obtain ⟨single, given⟩ := allImports_nil (foundWith f found)
      rw [← allImports_cons fresh] at single given
      exact ⟨[f], ⟨List.cons_ne_nil _ _, List.forall_mem_singleton.mpr proper, single⟩,
        by simp [commas, behindCommas], given⟩
    · obtain ⟨fields, ⟨nonempty, all, single⟩, rfl, given⟩ := ih goesOn
      rw [← allImports_cons fresh] at single given
      refine ⟨f :: fields, ⟨List.cons_ne_nil _ _, ?_, single⟩, ?_, given⟩
      · exact List.forall_mem_cons.mpr ⟨proper, all⟩
      · obtain ⟨next, fields, rfl⟩ := List.exists_cons_of_ne_nil nonempty
        simp [commas, behindCommas]

theorem fromKey_fitting {fields : List Field} (fitting : Fitting found fields)
    (enough : fields.length ≤ n) :
    fromKey n found (commas (fields.map Field.tokens) ++ [.mark '\x7d']) =
      .ok ((allImports found fields).headD []) := by
  induction fields generalizing n found with
  | nil => exact absurd rfl fitting.nonempty
  | cons f fields ih =>
    obtain ⟨-, proper, single⟩ := fitting
    obtain ⟨here, behind⟩ := List.forall_mem_cons.mp proper
    have fresh := fresh_of_allImports single
    rw [allImports_cons fresh] at single ⊢
    obtain ⟨n, rfl⟩ := Nat.exists_eq_add_of_le' (Nat.le_trans (Nat.succ_pos _) enough)
    refine fromKey_succ_eq_ok.mpr
      ⟨f, behindCommas (fields.map Field.tokens) ++ [.mark '\x7d'], ?_, here, fresh, ?_⟩
    · rw [List.map_cons, commas, List.append_assoc]
    · cases fields with
      | nil => exact .inl ⟨rfl, (allImports_nil _).2.symm⟩
      | cons next fields =>
        have rest := ih ⟨List.cons_ne_nil _ _, behind, single⟩ (Nat.le_of_succ_le_succ enough)
        exact .inr ⟨_, rfl, rest⟩

/-! ## Documents -/

theorem Source.members_object (fields : List Field) :
    (Source.object fields).members = (allImports none fields).headD [] := by
  rw [Source.members, Source.imports, Source.fields, allImports]
  cases fields.filterMap Field.imports? <;> rfl

theorem ofList_eq_ok : ofList ts = .ok ms ↔
    ∃ o, (Source.list o).Proper ∧ .mark '[' :: ts = (Source.list o).tokens ∧
      (Source.list o).members = ms := by
  constructor
  · intro h
    cases ts with
    | nil => cases h
    | cons t ts =>
      rw [ofList] at h
      split at h
      · next bracket =>
        obtain ⟨rfl, rfl⟩ := finish_eq_ok.mp h
        exact ⟨none, ⟨List.forall_mem_nil _, Nat.zero_le _⟩, by rw [bracket]; rfl, rfl⟩
      · split at h
        · cases h
        · cases h
        · next members u us read =>
          split at h
          · next bracket =>
            obtain ⟨rfl, rfl⟩ := finish_eq_ok.mp h
            obtain ⟨ms, same, all, rfl⟩ := imports_eq_ok.mp read
            refine ⟨some ms, ⟨List.forall_mem_singleton.mpr all, Nat.le_refl _⟩, ?_, rfl⟩
            rw [same, bracket]
            simp [Source.tokens, bracketed, commas, behindCommas]
          · cases h
  · rintro ⟨o, proper, same, rfl⟩
    obtain rfl := (List.cons.inj same).2
    cases o with
    | none => rfl
    | some ms =>
      have all : ∀ m ∈ ms, IsAlias m := List.forall_mem_singleton.mp proper.fields
      have read : imports (importsTokens ms ++ [.mark ']']) =
          .ok (ms.map Member.entry, [.mark ']']) := imports_eq_ok.mpr ⟨ms, rfl, all, rfl⟩
      have tokens : commas (Option.toList (some ms) |>.map importsTokens) ++ [.mark ']'] =
          importsTokens ms ++ [.mark ']'] := by simp [commas, behindCommas]
      rw [tokens]
      rw [importsTokens, bracketed, List.cons_append] at read ⊢
      rw [ofList, if_neg (by simp), read]
      rfl

theorem ofTokens_eq_ok : ofTokens ts = .ok ms ↔
    ∃ s : Source, s.Proper ∧ ts = s.tokens ∧ s.members = ms := by
  constructor
  · intro h
    cases ts with
    | nil => cases h
    | cons t ts =>
      rw [ofTokens.eq_def] at h
      dsimp only at h
      split at h
      · next brace =>
        subst brace
        cases ts with
        | nil => cases h
        | cons u us =>
          dsimp only at h
          split at h
          · next brace =>
            obtain ⟨rfl, rfl⟩ := finish_eq_ok.mp h
            exact ⟨.object [], ⟨List.forall_mem_nil _, Nat.zero_le _⟩, by rw [brace]; rfl, rfl⟩
          · obtain ⟨fields, fitting, same, given⟩ := exists_fitting h
            have single := fitting.single
            rw [allImports, Option.toList_none, List.nil_append, List.length_map] at single
            exact ⟨.object fields, ⟨fitting.proper, single⟩, by rw [same]; rfl,
              (Source.members_object fields).trans given⟩
      · split at h
        · next bracket =>
          subst bracket
          obtain ⟨o, found⟩ := ofList_eq_ok.mp h
          exact ⟨_, found⟩
        · split at h <;> cases h
  · rintro ⟨s, proper, rfl, rfl⟩
    cases s with
    | object fields =>
      cases fields with
      | nil => rfl
      | cons f fields =>
        have single : (allImports none (f :: fields)).length ≤ 1 := by
          rw [allImports, Option.toList_none, List.nil_append, List.length_map]
          exact proper.single
        have fitting : Fitting none (f :: fields) := ⟨List.cons_ne_nil _ _, proper.fields, single⟩
        have enough := length_le ((f :: fields).map Field.tokens) (.mark '\x7d')
        rw [List.length_map] at enough
        have read := fromKey_fitting fitting enough
        rw [Source.members_object, ← read]
        obtain ⟨_, key, rest, -, begins⟩ := exists_eq_text read
        rw [Source.tokens, bracketed, begins]
        rfl
    | list o => exact ofList_eq_ok.mpr ⟨o, proper, rfl, rfl⟩

theorem isSound_importsTokens {ms : List Member} (all : ∀ m ∈ ms, IsAlias m) :
    ∀ t ∈ importsTokens ms, t.IsSound := by
  refine isSound_bracketed (List.forall_mem_map.mpr fun m member => ?_)
  exact isSound_keyed (all m member).forms.isSound

theorem Field.Proper.isSound {f : Field} (h : f.Proper) : ∀ t ∈ f.tokens, t.IsSound := by
  cases f with
  | imports ms => exact isSound_keyed (isSound_importsTokens h)
  | other key item => exact isSound_keyed h.2.isSound

/-- No token of an import map is broken. -/
theorem Source.Proper.isSound {s : Source} (h : s.Proper) : ∀ t ∈ s.tokens, t.IsSound := by
  cases s with
  | object fields =>
    exact isSound_bracketed (List.forall_mem_map.mpr fun f member => (h.fields f member).isSound)
  | list o =>
    refine isSound_bracketed (List.forall_mem_map.mpr fun ms member => ?_)
    exact isSound_importsTokens (h.fields (.imports ms) (List.mem_map_of_mem member))

/-- What is read from a text is what the text says. -/
theorem members_eq_ok {text : String} :
    Document.members text = .ok ms ↔ ∃ s : Source, s.Spells text ∧ s.members = ms := by
  rw [Document.members, ofTokens_eq_ok]
  constructor
  · rintro ⟨s, proper, same, given⟩
    refine ⟨s, ⟨proper, Token.spelled_iff.mpr ⟨same, proper.isSound⟩⟩, given⟩
  · rintro ⟨s, ⟨proper, spelled⟩, given⟩
    exact ⟨s, proper, spelled.scan, given⟩

end RemoteIndex.ImportMap.Document
