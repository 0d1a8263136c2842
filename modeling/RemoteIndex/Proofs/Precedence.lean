import Mathlib.Data.List.Nodup
import RemoteIndex.ImportMap

/-!
# Which alias decides

One entry of an import map decides what a specifier stands for: that of the alias which the
specifier equals, or else that of the longest alias ending in a slash which the specifier begins
with. Where every alias has one target there is no choice left: neither the order of the entries
nor aliases that do not fit the specifier make any difference.
-/

namespace RemoteIndex.ImportMap

variable {entries es : List (String × String)} {e : String × String}
  {name other target specifier rest rest' text text' : String}

/-! ## Aliases for everything below them -/

/-- The alias ends in a slash, and the specifier is the alias with `rest` behind it. -/
structure Opens (name specifier rest : String) : Prop where
  slash : ∃ stem, name = stem ++ "/"
  whole : name ++ rest = specifier

theorem covers_eq_true : covers name specifier = true ↔ ∃ rest, Opens name specifier rest := by
  rw [covers, Bool.and_eq_true, beq_iff_eq, List.getLast?_eq_some_iff, List.isPrefixOf_iff_prefix]
  constructor
  · rintro ⟨⟨stem, ends⟩, behind, whole⟩
    refine ⟨String.ofList behind, ⟨String.ofList stem, ?_⟩, ?_⟩
    · apply String.toList_injective
      simpa using ends
    · apply String.toList_injective
      simpa using whole
  · rintro ⟨rest, ⟨stem, rfl⟩, rfl⟩
    exact ⟨⟨stem.toList, by simp⟩, ⟨rest.toList, by simp⟩⟩

/-- What is left of the specifier behind the alias. -/
theorem Opens.behind (h : Opens name specifier rest) :
    String.ofList (specifier.toList.drop name.length) = rest := by
  apply String.toList_injective
  rw [← h.whole, String.toList_append, ← String.length_toList, List.drop_left,
    String.toList_ofList]

/-- Of two aliases that open a specifier, the longer one continues the shorter one. -/
theorem Opens.exists_append (h : Opens name specifier rest) (h' : Opens other specifier rest')
    (shorter : name.length ≤ other.length) : ∃ more, other = name ++ more := by
  have front : name.toList <+: specifier.toList := ⟨rest.toList, by rw [← h.whole]; simp⟩
  have front' : other.toList <+: specifier.toList := ⟨rest'.toList, by rw [← h'.whole]; simp⟩
  have fits : name.toList.length ≤ other.toList.length := by
    rwa [String.length_toList, String.length_toList]
  obtain ⟨more, whole⟩ := List.prefix_of_prefix_length_le front front' fits
  refine ⟨String.ofList more, ?_⟩
  apply String.toList_injective
  simpa using whole.symm

theorem Opens.eq_of_length_eq (h : Opens name specifier rest) (h' : Opens other specifier rest')
    (same : name.length = other.length) : name = other := by
  obtain ⟨more, rfl⟩ := h.exists_append h' (Nat.le_of_eq same)
  have nothing : more.length = 0 := by
    rw [String.length_append] at same
    omega
  rw [String.length_eq_zero_iff.mp nothing, String.append_empty]

/-- Of two aliases that open a specifier, the one with more characters has more bytes. -/
theorem Opens.utf8ByteSize_lt_iff (h : Opens name specifier rest)
    (h' : Opens other specifier rest') :
    name.utf8ByteSize < other.utf8ByteSize ↔ name.length < other.length := by
  rcases Nat.lt_or_ge name.length other.length with less | more
  · obtain ⟨more, rfl⟩ := h.exists_append h' (Nat.le_of_lt less)
    have something : more.utf8ByteSize ≠ 0 := by
      intro nothing
      rw [String.utf8ByteSize_eq_zero_iff.mp nothing, String.append_empty] at less
      exact Nat.lt_irrefl _ less
    rw [String.utf8ByteSize_append]
    omega
  · obtain ⟨more, rfl⟩ := h'.exists_append h more
    rw [String.utf8ByteSize_append, String.length_append]
    omega

theorem Opens.utf8ByteSize_le_iff (h : Opens name specifier rest)
    (h' : Opens other specifier rest') :
    name.utf8ByteSize ≤ other.utf8ByteSize ↔ name.length ≤ other.length := by
  rw [← Nat.not_lt, ← Nat.not_lt, h'.utf8ByteSize_lt_iff h]

/-! ## The longest alias -/

theorem eq_nil_of_longest (h : longest es = none) : es = [] := by
  cases es with
  | nil => rfl
  | cons e es =>
    rw [longest] at h
    split at h
    · exact absurd h (by simp)
    · split at h <;> exact absurd h (by simp)

/-- The longest entry is one of the entries, and none has a longer alias. -/
theorem longest_eq_some (h : longest es = some e) :
    e ∈ es ∧ ∀ x ∈ es, x.1.utf8ByteSize ≤ e.1.utf8ByteSize := by
  induction es generalizing e with
  | nil => exact absurd h (by simp [longest])
  | cons first es ih =>
    rw [longest] at h
    cases behind : longest es with
    | none =>
      obtain rfl := eq_nil_of_longest behind
      obtain rfl : first = e := by simpa [longest] using h
      simp
    | some best =>
      obtain ⟨member, most⟩ := ih behind
      simp only [behind] at h
      by_cases less : best.1.utf8ByteSize < first.1.utf8ByteSize
      · obtain rfl : first = e := by simpa [less] using h
        refine ⟨List.mem_cons_self, ?_⟩
        intro x among
        rcases List.mem_cons.mp among with rfl | among
        · exact Nat.le_refl _
        · have := most x among
          omega
      · obtain rfl : best = e := by simpa [less] using h
        refine ⟨List.mem_cons_of_mem _ member, ?_⟩
        intro x among
        rcases List.mem_cons.mp among with rfl | among
        · omega
        · exact most x among

/-- Where several entries have the longest alias, the last of them is the longest. -/
theorem longest_append_cons {before behind : List (String × String)}
    (first : ∀ x ∈ before, x.1.utf8ByteSize ≤ e.1.utf8ByteSize)
    (last : ∀ x ∈ behind, x.1.utf8ByteSize < e.1.utf8ByteSize) :
    longest (before ++ e :: behind) = some e := by
  induction before with
  | nil =>
    rw [List.nil_append, longest]
    cases rest : longest behind with
    | none => rfl
    | some best =>
      have less := last best (longest_eq_some rest).1
      exact if_pos less
  | cons x before ih =>
    obtain ⟨here, before⟩ := List.forall_mem_cons.mp first
    rw [List.cons_append, longest, ih before]
    exact if_neg (Nat.not_lt_of_le here)

/-! ## What a specifier stands for -/

/-- What a specifier stands for by the entries of a map: the target of the alias that it equals; or
else the target of the longest alias that opens it, with what is behind that alias; or else
itself. -/
inductive StandsFor (entries : List (String × String)) (specifier : String) : String → Prop
  | target {target : String} : (specifier, target) ∈ entries →
      StandsFor entries specifier target
  | below {name target rest : String} : specifier ∉ entries.map Prod.fst →
      (name, target) ∈ entries → Opens name specifier rest →
      (∀ e ∈ entries, ∀ rest, Opens e.1 specifier rest → e.1.length ≤ name.length) →
      StandsFor entries specifier (target ++ rest)
  | itself : specifier ∉ entries.map Prod.fst →
      (∀ e ∈ entries, ∀ rest, ¬ Opens e.1 specifier rest) →
      StandsFor entries specifier specifier

/-- The target of an entry, with what the specifier has behind the alias. -/
def textBelow (specifier : String) (e : String × String) : String :=
  e.2 ++ String.ofList (specifier.toList.drop e.1.length)

/-- The text that the entries put in place of a specifier, if one of them does. -/
def substitute? (entries : List (String × String)) (specifier : String) : Option String :=
  match entries.find? (·.1 == specifier) with
  | some e => some e.2
  | none => (longest (entries.filter fun e => covers e.1 specifier)).map (textBelow specifier)

/-- A map puts a text in place of a specifier and anchors it, or leaves the specifier alone. -/
theorem resolve_eq (m : ImportMap) (specifier : String) :
    m.resolve specifier = ((substitute? m.entries specifier).map m.anchor).getD specifier := by
  rw [resolve, substitute?]
  cases m.entries.find? (·.1 == specifier) with
  | some e => rfl
  | none => cases longest (m.entries.filter fun e => covers e.1 specifier) <;> rfl

theorem resolve_ofEntries (entries : List (String × String)) (specifier : String) :
    (ofEntries entries).resolve specifier = (substitute? entries specifier).getD specifier := by
  have plain : (ofEntries entries).anchor = id := rfl
  rw [resolve_eq, plain, Option.map_id, id]
  rfl

theorem find?_eq_none : entries.find? (·.1 == specifier) = none ↔
    specifier ∉ entries.map Prod.fst := by
  rw [List.find?_eq_none, List.mem_map, not_exists]
  simp only [beq_iff_eq, not_and]

theorem mem_filter_covers : e ∈ entries.filter (fun e => covers e.1 specifier) ↔
    e ∈ entries ∧ ∃ rest, Opens e.1 specifier rest := by
  rw [List.mem_filter, covers_eq_true]

/-- An alias that the specifier equals decides, whatever else the map has. -/
theorem substitute?_of_mem (given : specifier ∈ entries.map Prod.fst) :
    ∃ target, (specifier, target) ∈ entries ∧ substitute? entries specifier = some target := by
  cases found : entries.find? (·.1 == specifier) with
  | none => exact absurd given (find?_eq_none.mp found)
  | some e =>
    obtain rfl : e.1 = specifier := by simpa using List.find?_some found
    refine ⟨e.2, List.mem_of_find?_eq_some found, ?_⟩
    rw [substitute?, found]

theorem substitute?_of_notMem (absent : specifier ∉ entries.map Prod.fst) :
    substitute? entries specifier =
      (longest (entries.filter fun e => covers e.1 specifier)).map (textBelow specifier) := by
  rw [substitute?, find?_eq_none.mpr absent]

/-- The last entry of the longest alias that opens a specifier decides, if no alias equals it. -/
theorem substitute?_of_split {before behind : List (String × String)}
    (absent : name ++ rest ∉ (before ++ (name, target) :: behind).map Prod.fst)
    (slash : ∃ stem, name = stem ++ "/")
    (most : ∀ e ∈ before ++ (name, target) :: behind, ∀ more, Opens e.1 (name ++ rest) more →
      e.1.length ≤ name.length)
    (last : ∀ e ∈ behind, e.1 ≠ name) :
    substitute? (before ++ (name, target) :: behind) (name ++ rest) = some (target ++ rest) := by
  have opens : Opens name (name ++ rest) rest := ⟨slash, rfl⟩
  rw [substitute?_of_notMem absent, List.filter_append,
    List.filter_cons_of_pos (by simpa using covers_eq_true.mpr ⟨rest, opens⟩), longest_append_cons]
  · rw [Option.map_some, textBelow, opens.behind]
  · intro e among
    obtain ⟨member, more, other⟩ := mem_filter_covers.mp among
    have inside := most e (List.mem_append_left _ member) more other
    exact (other.utf8ByteSize_le_iff opens).mpr inside
  · intro e among
    obtain ⟨member, more, other⟩ := mem_filter_covers.mp among
    have inside := most e (List.mem_append_right _ (List.mem_cons_of_mem _ member)) more other
    have different : e.1.length ≠ name.length := by
      intro same
      exact last e member (other.eq_of_length_eq opens same)
    exact (other.utf8ByteSize_lt_iff opens).mpr (Nat.lt_of_le_of_ne inside different)

/-- The entries give a specifier something that it stands for, also where they repeat aliases. -/
theorem standsFor_substitute? (entries : List (String × String)) (specifier : String) :
    StandsFor entries specifier ((substitute? entries specifier).getD specifier) := by
  by_cases given : specifier ∈ entries.map Prod.fst
  · obtain ⟨target, member, text⟩ := substitute?_of_mem given
    rw [text]
    exact .target member
  · rw [substitute?_of_notMem given]
    cases picked : longest (entries.filter fun e => covers e.1 specifier) with
    | none =>
      apply StandsFor.itself given
      intro e member rest opens
      have among := mem_filter_covers.mpr ⟨member, rest, opens⟩
      rw [eq_nil_of_longest picked] at among
      exact List.not_mem_nil among
    | some e =>
      obtain ⟨among, most⟩ := longest_eq_some picked
      obtain ⟨member, rest, opens⟩ := mem_filter_covers.mp among
      rw [Option.map_some, Option.getD_some, textBelow, opens.behind]
      apply StandsFor.below given member opens
      intro x other rest' opens'
      have size := most x (mem_filter_covers.mpr ⟨other, rest', opens'⟩)
      exact (opens'.utf8ByteSize_le_iff opens).mp size

/-- Where no alias has two targets, a specifier stands for one text only. -/
theorem StandsFor.unique (distinct : (entries.map Prod.fst).Nodup)
    (h : StandsFor entries specifier text) (h' : StandsFor entries specifier text') :
    text = text' := by
  have target_unique {name target target' : String} (member : (name, target) ∈ entries)
      (member' : (name, target') ∈ entries) : target = target' :=
    congrArg Prod.snd (List.inj_on_of_nodup_map distinct member member' rfl)
  cases h with
  | target member =>
    cases h' with
    | target member' => exact target_unique member member'
    | below absent => exact absurd (List.mem_map_of_mem member) absent
    | itself absent => exact absurd (List.mem_map_of_mem member) absent
  | below absent member opens most =>
    cases h' with
    | target member' => exact absurd (List.mem_map_of_mem member') absent
    | below _ member' opens' most' =>
      have same := Nat.le_antisymm (most' _ member _ opens) (most _ member' _ opens')
      obtain rfl := opens.eq_of_length_eq opens' same
      obtain rfl := target_unique member member'
      obtain rfl := opens.behind.symm.trans opens'.behind
      rfl
    | itself _ none => exact absurd opens (none _ member _)
  | itself absent none =>
    cases h' with
    | target member' => exact absurd (List.mem_map_of_mem member') absent
    | below _ member' opens' => exact absurd opens' (none _ member' _)
    | itself => rfl

/-- What a specifier stands for depends on which entries there are, not on where they are. -/
theorem StandsFor.congr (same : ∀ e, e ∈ entries ↔ e ∈ es) (h : StandsFor entries specifier text) :
    StandsFor es specifier text := by
  have aliases : specifier ∈ entries.map Prod.fst ↔ specifier ∈ es.map Prod.fst := by
    simp only [List.mem_map, same]
  cases h with
  | target member => exact .target ((same _).mp member)
  | below absent member opens most =>
    apply StandsFor.below (mt aliases.mpr absent) ((same _).mp member) opens
    intro e member'
    exact most e ((same e).mpr member')
  | itself absent none =>
    apply StandsFor.itself (mt aliases.mpr absent)
    intro e member'
    exact none e ((same e).mpr member')

/-- An entry whose alias neither equals the specifier nor opens it makes no difference. -/
theorem substitute?_append_cons (before behind : List (String × String))
    (different : name ≠ specifier) (apart : ∀ rest, ¬ Opens name specifier rest) :
    substitute? (before ++ (name, target) :: behind) specifier =
      substitute? (before ++ behind) specifier := by
  have passed : (name == specifier) = false := beq_false_of_ne different
  have uncovered : covers name specifier = false := by
    rw [Bool.eq_false_iff, Ne, covers_eq_true, not_exists]
    exact apart
  rw [substitute?, substitute?, List.find?_append, List.find?_append,
    List.find?_cons_of_neg (by simp [passed]), List.filter_append, List.filter_append,
    List.filter_cons_of_neg (by simp [uncovered])]

/-- Where no alias has two targets, the map without a directory gives a specifier the one text that
it stands for, in whatever order the entries come and whatever aliases that do not fit the
specifier are among them. -/
theorem standsFor_iff_resolve (distinct : (entries.map Prod.fst).Nodup) (specifier : String) :
    (∀ text, StandsFor entries specifier text ↔ (ofEntries entries).resolve specifier = text) ∧
    (∀ es, es.Perm entries →
      (ofEntries es).resolve specifier = (ofEntries entries).resolve specifier) ∧
    ∀ before behind name target, entries = before ++ behind → name ≠ specifier →
      (∀ rest, ¬ Opens name specifier rest) →
      (ofEntries (before ++ (name, target) :: behind)).resolve specifier =
        (ofEntries entries).resolve specifier := by
  have stands := standsFor_substitute? entries specifier
  rw [resolve_ofEntries]
  refine ⟨?_, ?_, ?_⟩
  · intro text
    constructor
    · intro h
      exact stands.unique distinct h
    · rintro rfl
      exact stands
  · intro es permuted
    have moved := (standsFor_substitute? es specifier).congr fun _ => permuted.mem_iff
    rw [resolve_ofEntries]
    exact moved.unique distinct stands
  · rintro before behind name target rfl different apart
    rw [resolve_ofEntries, substitute?_append_cons before behind different apart]

/-- Aliases of every kind: two that open the same specifiers, one for a specifier below them, and
one that begins specifiers without a slash. -/
def nestedEntries : List (String × String) :=
  [("std/http/", "https://a.test/http@1/"), ("std", "https://a.test/std.ts"),
    ("std/", "https://a.test/std/"), ("std/fs.ts", "https://b.test/é.ts")]

theorem standsFor_iff_resolve_nested :
    (nestedEntries.map Prod.fst).Nodup ∧
    StandsFor nestedEntries "std/http/é.ts" "https://a.test/http@1/é.ts" ∧
    (ofEntries nestedEntries.reverse).resolve "std/http/é.ts" = "https://a.test/http@1/é.ts" ∧
    (ofEntries (nestedEntries ++ ("std/h", "x") :: [])).resolve "std/http/é.ts" =
      "https://a.test/http@1/é.ts" := by
  have distinct : (nestedEntries.map Prod.fst).Nodup := by decide
  have resolved : (ofEntries nestedEntries).resolve "std/http/é.ts" =
      "https://a.test/http@1/é.ts" := by decide
  obtain ⟨stands, moved, added⟩ := standsFor_iff_resolve distinct "std/http/é.ts"
  refine ⟨distinct, (stands _).mpr resolved, ?_, ?_⟩
  · exact (moved _ nestedEntries.reverse_perm).trans resolved
  · have apart : ∀ rest, ¬ Opens "std/h" "std/http/é.ts" rest := by
      intro rest opens
      exact absurd (covers_eq_true.mpr ⟨rest, opens⟩) (by decide)
    exact (added _ _ "std/h" "x" (List.append_nil _).symm (by decide) apart).trans resolved

/-! ## Repeated aliases -/

/-- The entries without those that repeat the alias of an earlier one. -/
def keepFirst : List (String × String) → List (String × String)
  | [] => []
  | e :: es => e :: (keepFirst es).filter fun x => x.1 ≠ e.1

/-- The entries without those whose alias a later one repeats. -/
def keepLast : List (String × String) → List (String × String)
  | [] => []
  | e :: es => if e.1 ∈ es.map Prod.fst then keepLast es else e :: keepLast es

theorem mem_of_mem_keepLast (h : e ∈ keepLast entries) : e ∈ entries := by
  induction entries with
  | nil => exact h
  | cons first es ih =>
    rw [keepLast] at h
    split at h
    · exact List.mem_cons_of_mem _ (ih h)
    · rcases List.mem_cons.mp h with rfl | member
      · exact List.mem_cons_self
      · exact List.mem_cons_of_mem _ (ih member)

/-- The first entry of an alias is the one that a search for the alias comes to. -/
theorem find?_keepFirst (entries : List (String × String)) (specifier : String) :
    (keepFirst entries).find? (·.1 == specifier) = entries.find? (·.1 == specifier) := by
  induction entries with
  | nil => rfl
  | cons e es ih =>
    by_cases same : e.1 = specifier
    · rw [keepFirst, List.find?_cons_of_pos (by simpa using same),
        List.find?_cons_of_pos (by simpa using same)]
    · rw [keepFirst, List.find?_cons_of_neg (by simpa using same),
        List.find?_cons_of_neg (by simpa using same), List.find?_filter, ← ih]
      congr 1
      funext x
      by_cases found : x.1 = specifier
      · subst found
        simpa using Ne.symm same
      · simp [found]

/-- The last entry of the longest alias is the one that is picked. -/
theorem longest_keepLast (entries : List (String × String)) (specifier : String) :
    longest ((keepLast entries).filter fun e => covers e.1 specifier) =
      longest (entries.filter fun e => covers e.1 specifier) := by
  induction entries with
  | nil => rfl
  | cons e es ih =>
    rw [keepLast]
    cases covered : covers e.1 specifier with
    | false =>
      rw [List.filter_cons_of_neg (by simp [covered]), ← ih]
      split
      · rfl
      · rw [List.filter_cons_of_neg (by simp [covered])]
    | true =>
      rw [List.filter_cons_of_pos (by simp [covered])]
      split
      · next repeated =>
        obtain ⟨x, member, same⟩ := List.mem_map.mp repeated
        have among : x ∈ es.filter fun e => covers e.1 specifier :=
          List.mem_filter.mpr ⟨member, same ▸ covered⟩
        -- The later entry of the alias is no shorter, so that one behind this one is picked.
        rw [ih, longest]
        cases picked : longest (es.filter fun e => covers e.1 specifier) with
        | none =>
          rw [eq_nil_of_longest picked] at among
          exact absurd among List.not_mem_nil
        | some best =>
          have most := (longest_eq_some picked).2 x among
          rw [same] at most
          exact (if_neg (Nat.not_lt_of_le most)).symm
      · rw [List.filter_cons_of_pos (by simp [covered]), longest, longest, ih]

/-- Where aliases are repeated, the first entry of an alias counts for the specifier that equals
it, and the last one for all others. -/
theorem resolve_repeated (entries : List (String × String)) (specifier : String) :
    (ofEntries entries).resolve specifier =
      if specifier ∈ entries.map Prod.fst then (ofEntries (keepFirst entries)).resolve specifier
      else (ofEntries (keepLast entries)).resolve specifier := by
  rw [resolve_ofEntries, resolve_ofEntries, resolve_ofEntries]
  split
  · next given =>
    obtain ⟨e, found⟩ := Option.ne_none_iff_exists'.mp (mt find?_eq_none.mp (not_not.mpr given))
    rw [substitute?, substitute?, find?_keepFirst, found]
  · next absent =>
    have still : specifier ∉ (keepLast entries).map Prod.fst := by
      intro member
      obtain ⟨e, kept, same⟩ := List.mem_map.mp member
      exact absent (List.mem_map.mpr ⟨e, mem_of_mem_keepLast kept, same⟩)
    rw [substitute?_of_notMem absent, substitute?_of_notMem still, longest_keepLast]

/-- Two targets for one alias. -/
def twofoldEntries : List (String × String) := [("a/", "x/"), ("a/", "y/")]

/-- Neither is it always the first entry of an alias that counts, nor always the last one: of
`a/` alone the first one does, of what is below it the last one. -/
theorem exists_alias_of_two_targets :
    ¬ ((∀ entries specifier, (ofEntries entries).resolve specifier =
          (ofEntries (keepFirst entries)).resolve specifier) ∨
        ∀ entries specifier, (ofEntries entries).resolve specifier =
          (ofEntries (keepLast entries)).resolve specifier) := by
  rintro (first | last)
  · exact absurd (first twofoldEntries "a/b") (by decide)
  · exact absurd (last twofoldEntries "a/") (by decide)

end RemoteIndex.ImportMap
