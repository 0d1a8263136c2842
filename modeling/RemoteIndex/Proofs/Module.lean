import RemoteIndex.Proofs.Items
import RemoteIndex.Proofs.Positions

/-!
# Module text

A script may be nothing but items, each on a line of its own. Of such a text the specifiers are
exactly those of its items, line by line: statements and directives are searched one after the
other, and sorting by position puts them back in order.
-/

namespace RemoteIndex

namespace Script

open Text.Utf8 (encode)

/-- The text of items, each on a line of its own. -/
def moduleText (items : List Item) : List Char := items.flatMap fun item => item.text ++ ['\n']

/-- The sites of items of which the first begins at a position. -/
def sitesFrom (p : Position) : List Item → List Site
  | [] => []
  | item :: items => item.siteAt p :: sitesFrom (p.advanceBy (item.text ++ ['\n'])) items

/-- An item is a directive or its form is that of a statement. -/
theorem Item.isOfStatement_form (item : Item) :
    isOfStatement item.shape.form = !item.shape.inComment := by
  cases item.shape <;> rfl

/-- The sites of items that are statements. -/
def statementsFrom (p : Position) (items : List Item) : List Site :=
  (sitesFrom p items).filter (isOfStatement ·.form)

theorem statementsFrom_cons (p : Position) (item : Item) (items : List Item) :
    statementsFrom p (item :: items) =
      (if item.shape.inComment then [] else [item.siteAt p]) ++
        statementsFrom (p.advanceBy (item.text ++ ['\n'])) items := by
  have form : isOfStatement (item.siteAt p).form = !item.shape.inComment :=
    item.isOfStatement_form
  rw [statementsFrom, sitesFrom, List.filter_cons, form]
  cases item.shape.inComment <;> rfl

/-- The reader finds the sites of the items that are statements, the last one first. -/
theorem foldl_items (items : List Item) (p : Position) (sites : List Site) :
    (tokensOfLines p (items.map Item.line)).foldl Reader.step (.resting sites) =
      .resting ((statementsFrom p items).reverse ++ sites) := by
  induction items generalizing p sites with
  | nil => rfl
  | cons item items ih =>
    rw [List.map_cons, tokensOfLines, List.foldl_append, item.text_line, statementsFrom_cons,
      List.reverse_append, List.append_assoc]
    cases comment : item.shape.inComment with
    | false =>
      rw [Item.foldl_statement comment, ih]
      rfl
    | true =>
      have unread : (item.line.tokens p).foldl Reader.step (.resting sites) = .resting sites := by
        rw [Item.tokens_comment comment]
        rfl
      rw [unread, ih]
      rfl

/-- In the outline the items that are statements tell their sites, where these have been found. -/
theorem filterMap_items (items : List Item) {p : Position} {sites : List Site}
    (found : ∀ site ∈ statementsFrom p items, sites.find? (·.span = site.span) = some site) :
    (tokensOfLines p (items.map Item.line)).filterMap (Token.site? sites) =
      statementsFrom p items := by
  induction items generalizing p with
  | nil => rfl
  | cons item items ih =>
    rw [statementsFrom_cons] at found ⊢
    rw [List.forall_mem_append] at found
    rw [List.map_cons, tokensOfLines, List.filterMap_append, item.text_line, ih found.2]
    cases comment : item.shape.inComment with
    | false =>
      have here := found.1 (item.siteAt p) (by simp [comment])
      rw [Item.filterMap_statement comment here]
      rfl
    | true =>
      rw [Item.tokens_comment comment]
      rfl

/-- The directives among items. -/
theorem directives_items (items : List Item) (p : Position) :
    (tokensOfLines p (items.map Item.line)).flatMap Token.directives =
      (sitesFrom p items).filter (!isOfStatement ·.form) := by
  induction items generalizing p with
  | nil => rfl
  | cons item items ih =>
    have form : isOfStatement (item.siteAt p).form = !item.shape.inComment :=
      item.isOfStatement_form
    rw [List.map_cons, tokensOfLines, List.flatMap_append, item.text_line, ih, sitesFrom,
      List.filter_cons, form]
    cases comment : item.shape.inComment with
    | false =>
      rw [Item.line, if_neg (by simp [comment])]
      exact congrArg (· ++ _) (directives_tokensOfPieces p _)
    | true =>
      have one : (item.line.tokens p).flatMap Token.directives = [item.siteAt p] := by
        rw [Item.tokens_comment comment, List.flatMap_singleton, Token.directives, Token.comments]
        simp only [String.toList_ofList, List.filterMap_cons, Item.directiveSite?_text comment,
          List.filterMap_nil]
      rw [one]
      rfl

namespace Item

variable (item : Item)

theorem siteAt_line (line : Nat) : item.siteAt ⟨line, 0⟩ = item.site line := by
  have lead := Position.advanceBy_of_notMem item.shape.newline_notMem_lead ⟨line, 0⟩
  have written := Position.advanceBy_of_notMem item.literal.newline_notMem
  rw [siteAt, site, Position.advanceBy_append, lead, written, Position.along, Position.along,
    Nat.zero_add]

theorem advanceBy_text (line : Nat) :
    (⟨line, 0⟩ : Position).advanceBy (item.text ++ ['\n']) = ⟨line + 1, 0⟩ := by
  have inLine : '\n' ∉ item.text := by
    simp [text, item.shape.newline_notMem_lead, item.shape.newline_notMem_trail,
      item.literal.newline_notMem]
  rw [Position.advanceBy_append, Position.advanceBy_of_notMem inLine]
  rfl

end Item

theorem sitesFrom_line (items : List Item) (line : Nat) :
    sitesFrom ⟨line, 0⟩ items = items.mapIdx fun i item => item.site (line + i) := by
  induction items generalizing line with
  | nil => rfl
  | cons item items ih =>
    rw [sitesFrom, item.siteAt_line, item.advanceBy_text, ih, List.mapIdx_cons]
    simp only [Nat.add_zero, Nat.add_assoc, Nat.add_comm 1]

theorem sitesFrom_origin (items : List Item) :
    sitesFrom .origin items = items.mapIdx fun i item => item.site i := by
  rw [Position.origin, sitesFrom_line]
  simp only [Nat.zero_add]

/-- One below the other, the sites are in order. -/
theorem pairwise_sites (items : List Item) :
    (items.mapIdx fun i item => item.site i).Pairwise fun a b =>
      a.span.start.line < b.span.start.line := by
  rw [List.pairwise_iff_getElem]
  intro i j hi hj less
  simpa [Item.site] using less

theorem moduleText_eq (items : List Item) :
    moduleText items = textOfLines (items.map Item.line) := by
  rw [moduleText, textOfLines, List.flatMap_map]
  simp only [Item.text_line]

/-- Of sites on lines of their own each is found by its span. -/
theorem find?_of_pairwise {sites : List Site} {site : Site}
    (lines : sites.Pairwise fun a b => a.span ≠ b.span) (member : site ∈ sites) :
    sites.find? (·.span = site.span) = some site := by
  have spans : (sites.map Site.span).Nodup := List.pairwise_map.mpr lines
  cases found : sites.find? (·.span = site.span) with
  | none => exact absurd (List.find?_eq_none.mp found site member) (by simp)
  | some other =>
    have same := List.find?_some found
    exact congrArg some (List.inj_on_of_nodup_map spans (List.mem_of_find?_eq_some found) member
      (of_decide_eq_true same))

/-- The sites of a script whose tokens are those of items are the sites of the items. -/
theorem specifierSites_of_tokens {script : String} {items : List Item}
    (tokens : tokensOf script.toList = tokensOfLines .origin (items.map Item.line)) :
    specifierSites script = items.mapIdx fun i item => item.site i := by
  have read : statementSites (tokensOf script.toList) = (statementsFrom .origin items).reverse := by
    rw [tokens, statementSites, ← Reader.resting_nil, foldl_items, List.append_nil]
    rfl
  have ordered : (sitesFrom .origin items).Pairwise fun a b =>
      a.span.start.line < b.span.start.line := by
    rw [sitesFrom_origin]
    exact pairwise_sites items
  have apart : (statementsFrom .origin items).reverse.Pairwise fun a b => a.span ≠ b.span := by
    refine List.pairwise_reverse.mpr ((ordered.sublist List.filter_sublist).imp ?_)
    exact fun before same => Nat.ne_of_gt before (congrArg (·.start.line) same)
  have inStatements : ∀ site ∈ (statementsFrom .origin items).reverse,
      isOfStatement site.form = true := by
    intro site member
    exact (List.mem_filter.mp (List.mem_reverse.mp member)).2
  have statements := statementSites_outline script
  rw [read, map_inStatement inStatements, tokens, filterMap_items items fun site member =>
    find?_of_pairwise apart (List.mem_reverse.mpr member)] at statements
  have directives := directiveSites_outline script
  rw [tokens, directives_items] at directives
  rw [specifierSites, Tree.sites, statements, directives, ← sitesFrom_origin]
  exact Site.Ascending.mergeSort_eq (ordered.imp .inl) (List.filter_append_perm _ _)

theorem Item.classify_site (item : Item) (line : Nat) :
    RawSpecifier.classify (item.site line) = item.specifier line := rfl

/-- The specifiers of a module text are those of its items, line by line, whether or not a line feed
stands behind the last of them. -/
theorem specifiers_moduleText (items : List Item) :
    (specifierSites (String.ofList (moduleText items))).map RawSpecifier.classify =
        items.mapIdx (fun i item => item.specifier i) ∧
      (specifierSites (String.ofList (moduleText items).dropLast)).map RawSpecifier.classify =
        items.mapIdx (fun i item => item.specifier i) := by
  have sound : ∀ line ∈ items.map Item.line, line.Sound := by
    intro line member
    obtain ⟨item, -, rfl⟩ := List.mem_map.mp member
    exact item.sound_line
  have classified : (items.mapIdx fun i item => item.site i).map RawSpecifier.classify =
      items.mapIdx (fun i item => item.specifier i) :=
    List.ext_getElem (by simp) fun i _ _ => by simp [Item.classify_site]
  obtain ⟨ended, unended⟩ := tokensOf_lines sound
  constructor
  · rw [specifierSites_of_tokens (by rw [String.toList_ofList, moduleText_eq, ended])]
    exact classified
  · rw [specifierSites_of_tokens (by rw [String.toList_ofList, moduleText_eq, unended])]
    exact classified

/-- An import above a directive. -/
example :
    let x : Quoted := ⟨'"', ['x'], .inl rfl, by decide, List.forall_mem_singleton.mpr (by decide)⟩
    String.ofList (moduleText [⟨.importCall, x⟩, ⟨.denoTypes, x⟩]) =
      "import(\"x\");\n// @deno-types=\"x\"\n" := by
  decide +kernel

end Script

end RemoteIndex
