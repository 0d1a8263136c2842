import RemoteIndex.ImportMap
import RemoteIndex.Proofs.ByteOrder
import RemoteIndex.Proofs.Sources
import RemoteIndex.Proofs.Tables

/-!
# Loading import maps

A file with an import map is loaded as a whole or not at all. Of several members with one name the
last one counts, and what is loaded is ordered by the names, so it does not depend on how the import
map is written.
-/

namespace RemoteIndex

namespace ImportMap

open Json (Member Item Token Forms)

namespace Document

/-! ## Other ways to write an import map -/

/-- The members under `imports` in another way that says the same: in another order if no name comes
twice, or with one more member before a later one of its name. -/
inductive Restated : List Member → List Member → Prop
  | reordered {ms ms' : List Member} :
      (ms.map Member.key).Nodup → ms.Perm ms' → Restated ms ms'
  | overridden {before after : List Member} {m : Member} :
      IsAlias m → m.key ∈ after.map Member.key → Restated (before ++ after) (before ++ m :: after)

/-- The import map in another way that says the same: with the members under `imports` restated, or
with one more member of the outer object that is not `imports`, or both and several times. -/
inductive Source.Restated : Source → Source → Prop
  | same (s : Source) : Restated s s
  | object {before after : List Field} {ms ms' : List Member} :
      Document.Restated ms ms' →
      Restated (.object (before ++ .imports ms :: after))
        (.object (before ++ .imports ms' :: after))
  | list {ms ms' : List Member} :
      Document.Restated ms ms' → Restated (.list (some ms)) (.list (some ms'))
  | unknown {before after : List Field} {key : String} {item : Item} :
      key ≠ "imports" → Forms .skipping 0 item.value item.tokens →
      Restated (.object (before ++ after)) (.object (before ++ .other key item :: after))
  | trans {s s' s'' : Source} : Restated s s' → Restated s' s'' → Restated s s''

variable {ms ms' : List Member} {s s' : Source} {key : String} {value : Json}

theorem Restated.isAlias (h : Restated ms ms') (all : ∀ m ∈ ms, IsAlias m) :
    ∀ m ∈ ms', IsAlias m := by
  cases h with
  | reordered _ same => exact fun m member => all m (same.mem_iff.mpr member)
  | overridden proper _ =>
    obtain ⟨before, after⟩ := List.forall_mem_append.mp all
    exact List.forall_mem_append.mpr ⟨before, List.forall_mem_cons.mpr ⟨proper, after⟩⟩

theorem map_fst_entry (ms : List Member) :
    (ms.map Member.entry).map Prod.fst = ms.map Member.key := List.map_map

theorem Restated.isLast (h : Restated ms ms') :
    IsLast (ms'.map Member.entry) key value ↔ IsLast (ms.map Member.entry) key value := by
  cases h with
  | reordered distinct same =>
    have distinct' : (ms'.map Member.key).Nodup := (same.map Member.key).nodup_iff.mp distinct
    rw [← map_fst_entry] at distinct distinct'
    rw [isLast_iff_mem distinct', isLast_iff_mem distinct]
    exact (same.map Member.entry).mem_iff.symm
  | @overridden before after m _ later =>
    rw [← map_fst_entry] at later
    rw [List.map_append, List.map_cons, List.map_append]
    exact isLast_insert later

theorem Source.imports_object (before after : List Field) (ms : List Member) :
    (Source.object (before ++ .imports ms :: after)).imports =
      before.filterMap Field.imports? ++ ms :: after.filterMap Field.imports? :=
  List.filterMap_append

theorem Source.imports_unknown (before after : List Field) (key : String) (item : Item) :
    (Source.object (before ++ .other key item :: after)).imports =
      (Source.object (before ++ after)).imports := by
  rw [Source.imports, Source.imports, Source.fields, Source.fields, List.filterMap_append,
    List.filterMap_append]
  rfl

/-- What says the same as an import map is one. -/
theorem Source.Restated.proper (h : s.Restated s') (proper : s.Proper) : s'.Proper := by
  induction h with
  | same s => exact proper
  | @object before after ms ms' restated =>
    obtain ⟨all, single⟩ := proper
    obtain ⟨front, members, behind⟩ : _ ∧ _ ∧ _ := by
      simpa only [Source.fields, List.forall_mem_append, List.forall_mem_cons] using all
    refine ⟨?_, ?_⟩
    · have members' : (Field.imports ms').Proper := restated.isAlias members
      exact List.forall_mem_append.mpr ⟨front, List.forall_mem_cons.mpr ⟨members', behind⟩⟩
    · rw [Source.imports_object, List.length_append, List.length_cons] at single ⊢
      exact single
  | @list ms ms' restated =>
    have members : ∀ m ∈ ms, IsAlias m := List.forall_mem_singleton.mp proper.fields
    have members' : (Field.imports ms').Proper := restated.isAlias members
    exact ⟨List.forall_mem_singleton.mpr members', Nat.le_refl _⟩
  | @unknown before after key item other forms =>
    obtain ⟨all, single⟩ := proper
    obtain ⟨front, behind⟩ := List.forall_mem_append.mp all
    refine ⟨?_, ?_⟩
    · exact List.forall_mem_append.mpr
        ⟨front, List.forall_mem_cons.mpr ⟨⟨other, forms⟩, behind⟩⟩
    · rwa [Source.imports_unknown]
  | trans _ _ ih ih' => exact ih' (ih proper)

theorem Source.Restated.isLast (h : s.Restated s') (key : String) (value : Json) :
    IsLast s'.members key value ↔ IsLast s.members key value := by
  induction h with
  | same s => exact Iff.rfl
  | @object before after ms ms' restated =>
    rw [Source.members, Source.imports_object, Source.members, Source.imports_object]
    cases before.filterMap Field.imports? with
    | nil => exact restated.isLast
    | cons first others => exact Iff.rfl
  | list restated => exact restated.isLast
  | unknown =>
    rw [Source.members, Source.imports_unknown]
    exact Iff.rfl
  | trans _ _ ih ih' => exact ih'.trans ih

/-! ## What is loaded -/

theorem mem_targets {members : Members} {name target : String} :
    (name, target) ∈ targets members ↔ IsLast members name (.text target) := by
  rw [← Table.mem_rows_ofEntries, targets, List.mem_filterMap]
  constructor
  · rintro ⟨⟨k, v⟩, member, found⟩
    obtain ⟨content, isText, same⟩ := Option.map_eq_some_iff.mp found
    obtain ⟨rfl, rfl⟩ := Prod.mk.inj same
    cases v with
    | text content =>
      obtain rfl := Option.some.inj isText
      exact member
    | _ => cases isText
  · exact fun member => ⟨(name, .text target), member, rfl⟩

theorem mem_ignored {members : Members} {name : String} :
    name ∈ ignored members ↔ ∃ v, IsLast members name v ∧ v.text? = none := by
  simp only [← Table.mem_rows_ofEntries, ignored, List.mem_map, List.mem_filter,
    Option.isNone_iff_eq_none]
  constructor
  · rintro ⟨⟨k, v⟩, ⟨member, noText⟩, rfl⟩
    exact ⟨v, member, noText⟩
  · rintro ⟨v, member, noText⟩
    exact ⟨(name, v), ⟨member, noText⟩, rfl⟩

theorem pairwise_encode_targets (members : Members) :
    ((targets members).map fun e => Text.Utf8.encode e.1).Pairwise (· < ·) := by
  rw [List.pairwise_map, targets, List.pairwise_filterMap]
  refine (table members).ascending.imp fun {a b} less e found e' found' => ?_
  obtain ⟨_, -, rfl⟩ := Option.map_eq_some_iff.mp found
  obtain ⟨_, -, rfl⟩ := Option.map_eq_some_iff.mp found'
  exact Text.Utf8.encode_lt_encode_iff.mpr less

theorem pairwise_encode_ignored (members : Members) :
    ((ignored members).map Text.Utf8.encode).Pairwise (· < ·) := by
  rw [ignored, List.pairwise_map, List.pairwise_map]
  exact ((table members).ascending.filter _).imp Text.Utf8.encode_lt_encode_iff.mpr

end Document

open Document (Source Acceptable Members)

/-- What a file gives that has these members under `imports`: the last value of an alias counts, and
there is a warning about it if it is no text. -/
structure IsLoadedFrom (members : Members) (path : Path) (m : ImportMap)
    (warnings : List Warning) : Prop where
  base : m.base = path.parent?
  ascending : (m.entries.map fun e => Text.Utf8.encode e.1).Pairwise (· < ·)
  mem_entries : ∀ name target, (name, target) ∈ m.entries ↔ IsLast members name (.text target)
  ignored : ∃ names : List String, warnings = names.map (.ignoredTarget path) ∧
    (names.map Text.Utf8.encode).Pairwise (· < ·) ∧
    ∀ name, name ∈ names ↔ ∃ v, IsLast members name v ∧ v.text? = none

variable {tree : FileTree} {cwd : Place} {path : Path} {text : String} {s s' : Source}

/-- The map of an import map as it is written in the file at the path. -/
def ofSource (path : Path) (s : Source) : ImportMap × List Warning :=
  (⟨Document.targets s.members, path.parent?⟩,
    (Document.ignored s.members).map (.ignoredTarget path))

theorem isLoadedFrom_ofSource (path : Path) (s : Source) :
    IsLoadedFrom s.members path (ofSource path s).1 (ofSource path s).2 where
  base := rfl
  ascending := Document.pairwise_encode_targets s.members
  mem_entries _ _ := Document.mem_targets
  ignored := ⟨Document.ignored s.members, rfl, Document.pairwise_encode_ignored s.members,
    fun _ => Document.mem_ignored⟩

theorem load_of_spells (read : tree.readText cwd path = .ok text) (spells : s.Spells text) :
    load tree cwd path = .ok (ofSource path s) := by
  have members : Document.members text = .ok s.members :=
    Document.members_eq_ok.mpr ⟨s, spells, rfl⟩
  rw [load, read]
  dsimp only
  rw [members]
  rfl

theorem load_of_not_acceptable (read : tree.readText cwd path = .ok text)
    (unacceptable : ¬Acceptable text) :
    ∃ fault, load tree cwd path = .error (.malformed path fault) := by
  cases members : Document.members text with
  | ok ms =>
    obtain ⟨s, spells, -⟩ := Document.members_eq_ok.mp members
    exact absurd ⟨s, spells⟩ unacceptable
  | error fault =>
    refine ⟨fault, ?_⟩
    rw [load, read]
    dsimp only
    rw [members]

theorem ofSource_congr (restated : s.Restated s') (path : Path) :
    ofSource path s' = ofSource path s := by
  have same : Document.table s'.members = Document.table s.members :=
    Table.ofEntries_congr restated.isLast
  rw [ofSource, ofSource, Document.targets, Document.targets, Document.ignored, Document.ignored,
    same]

/-- A readable file is refused as a whole if its text is no import map. Else what the last values of
the aliases say is loaded, in the order of the aliases, and however the import map is restated and
spelled, specifiers stand for the same. -/
theorem load_readable (read : tree.readText cwd path = .ok text) :
    (¬Acceptable text → ∃ fault, load tree cwd path = .error (.malformed path fault) ∧
      create tree cwd (some path) = (empty, [.ignoredImportMap (.malformed path fault)])) ∧
    ∀ s : Source, s.Spells text → ∃ m warnings, load tree cwd path = .ok (m, warnings) ∧
      create tree cwd (some path) = (m, warnings) ∧ IsLoadedFrom s.members path m warnings ∧
      ∀ (s' : Source) (tree' : FileTree) (cwd' : Place) (text' : String), s.Restated s' →
        Token.Spelled s'.tokens text'.toList → tree'.readText cwd' path = .ok text' →
        ∃ m' warnings', load tree' cwd' path = .ok (m', warnings') ∧
          ∀ specifier, m'.resolve specifier = m.resolve specifier := by
  constructor
  · intro unacceptable
    obtain ⟨fault, refused⟩ := load_of_not_acceptable read unacceptable
    exact ⟨fault, refused, by rw [create, refused]⟩
  · intro s spells
    have loaded := load_of_spells read spells
    have created : create tree cwd (some path) = ofSource path s := by rw [create, loaded]
    refine ⟨_, _, loaded, created, isLoadedFrom_ofSource path s, ?_⟩
    intro s' tree' cwd' text' restated spelled read'
    have loaded' := load_of_spells read' ⟨restated.proper spells.proper, spelled⟩
    rw [ofSource_congr restated] at loaded'
    exact ⟨_, _, loaded', fun _ => rfl⟩

/-! ### A repeated alias, an escape and a target that is no text -/

def repeatedMembers : List Member :=
  [⟨"b", true, .number "1", [.number "1" true]⟩, ⟨"a/", true, .text "./x/", [.text "./x/" true]⟩,
    ⟨"b", true, .text "./b", [.text "./b" true]⟩, ⟨"c", true, .null, [.null]⟩]

def repeatedSource : Source := .object [.imports repeatedMembers]

def repeatedText : String :=
  "\x7b\"imports\":\x7b\"b\":1,\"a/\":\"./x/\",\"b\":\"./\\u0062\",\"c\":null\x7d\x7d"

/-- The same with another member of the outer object. -/
def extendedSource : Source :=
  .object [.other "x" ⟨.list [.null], [.mark '[', .null, .mark ']']⟩, .imports repeatedMembers]

def extendedText : String :=
  "\x7b\"x\":[null], \"imports\":\x7b\"b\":1,\"\\u0061/\":\"./x/\",\"b\":\"./b\",\"c\":null\x7d\x7d"

/-- A text that ends before the outer object does. -/
def brokenText : String := "\x7b\"imports\":\x7b\"a\":1\x7d"

/-- The tree with this text in the file `d/m`. -/
def mapTree (text : String) : FileTree :=
  FileTree.empty.place [.ofString "d", .ofString "m"] (.file (Text.Utf8.encode text) true)

def repeatedMap : ImportMap := ⟨[("a/", "./x/"), ("b", "./b")], some (.ofString "/d")⟩

theorem spells_repeatedText : repeatedSource.Spells repeatedText := by
  have all : ∀ m ∈ repeatedMembers, Document.IsAlias m := by
    intro m member
    simp only [repeatedMembers, List.mem_cons, List.not_mem_nil, or_false] at member
    rcases member with rfl | rfl | rfl | rfl
    · exact ⟨rfl, .leaf (.number (.inl rfl))⟩
    · exact ⟨rfl, .leaf (.text (.inl rfl))⟩
    · exact ⟨rfl, .leaf (.text (.inl rfl))⟩
    · exact ⟨rfl, .leaf .null⟩
  have proper : repeatedSource.Proper := ⟨List.forall_mem_singleton.mpr all, Nat.le_refl _⟩
  have tokens : Token.scan .between repeatedText.toList = repeatedSource.tokens := by decide +kernel
  exact ⟨proper, Token.spelled_iff.mpr ⟨tokens, proper.isSound⟩⟩

theorem restated_extendedSource : repeatedSource.Restated extendedSource := by
  have forms : Forms .skipping 0 (.list [.null]) [.mark '[', .null, .mark ']'] :=
    @Forms.list .skipping 0 [⟨.null, [.null]⟩] trivial
      (List.forall_mem_singleton.mpr (.leaf .null))
  exact @Source.Restated.unknown [] _ "x" _ (by decide) forms

theorem load_readable_repeated :
    (mapTree repeatedText).readText [] (.ofString "/d/m") = .ok repeatedText ∧
    repeatedSource.Spells repeatedText ∧ repeatedSource.Restated extendedSource ∧
    Token.Spelled extendedSource.tokens extendedText.toList ∧
    (mapTree extendedText).readText [] (.ofString "/d/m") = .ok extendedText ∧
    load (mapTree repeatedText) [] (.ofString "/d/m") =
      .ok (repeatedMap, [.ignoredTarget (.ofString "/d/m") "c"]) ∧
    IsLoadedFrom repeatedSource.members (.ofString "/d/m") repeatedMap
      [.ignoredTarget (.ofString "/d/m") "c"] ∧
    (∃ m' warnings', load (mapTree extendedText) [] (.ofString "/d/m") = .ok (m', warnings') ∧
      ∀ specifier, m'.resolve specifier = repeatedMap.resolve specifier) ∧
    (mapTree brokenText).readText [] (.ofString "/d/m") = .ok brokenText ∧
    ¬Acceptable brokenText ∧
    ∃ fault, create (mapTree brokenText) [] (some (.ofString "/d/m")) =
      (empty, [.ignoredImportMap (.malformed (.ofString "/d/m") fault)]) := by
  have read : (mapTree repeatedText).readText [] (.ofString "/d/m") = .ok repeatedText := by
    decide +kernel
  have read' : (mapTree extendedText).readText [] (.ofString "/d/m") = .ok extendedText := by
    decide +kernel
  have tokens : Token.scan .between extendedText.toList = extendedSource.tokens := by decide +kernel
  have proper := restated_extendedSource.proper spells_repeatedText.proper
  have spelled := Token.spelled_iff.mpr ⟨tokens, proper.isSound⟩
  have loaded : load (mapTree repeatedText) [] (.ofString "/d/m") =
      .ok (repeatedMap, [.ignoredTarget (.ofString "/d/m") "c"]) := by decide +kernel
  obtain ⟨m, warnings, same, -, isLoaded, further⟩ := (load_readable read).2 _ spells_repeatedText
  obtain ⟨rfl, rfl⟩ := Prod.mk.inj (Except.ok.inj (loaded.symm.trans same))
  have broken : (mapTree brokenText).readText [] (.ofString "/d/m") = .ok brokenText := by
    decide +kernel
  have unacceptable : ¬Acceptable brokenText := by
    rintro ⟨s, spells⟩
    have refused : load (mapTree brokenText) [] (.ofString "/d/m") =
        .error (.malformed (.ofString "/d/m") .unfinished) := by decide +kernel
    cases refused.symm.trans (load_of_spells broken spells)
  obtain ⟨fault, -, created⟩ := (load_readable broken).1 unacceptable
  exact ⟨read, spells_repeatedText, restated_extendedSource, spelled, read', loaded, isLoaded,
    further _ _ _ _ restated_extendedSource spelled read', broken, unacceptable, fault, created⟩

end ImportMap

end RemoteIndex
