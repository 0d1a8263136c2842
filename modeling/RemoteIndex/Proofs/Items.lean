import RemoteIndex.Proofs.Outline
import RemoteIndex.Proofs.Pieces

/-!
# Items

An item is an import, an export or a directive in its plainest form, on a line of its own. A reader
finds its site among the tokens of the line where it is a statement (`Item.foldl_statement`), and
the recognisers of directives find it in the comment where it is one (`Item.directiveSite?_text`).
-/

namespace RemoteIndex.Script

open Text.Utf8 (encode width)

/-- Letters that an identifier may begin with, all of them ASCII. -/
def isIdentifierStart (c : Char) : Bool :=
  ('a' ≤ c && c ≤ 'z') || ('A' ≤ c && c ≤ 'Z') || c = '_' || c = '$'

/-- Is it an identifier in ASCII letters? -/
def isIdentifier : List Char → Bool
  | [] => false
  | c :: cs => isIdentifierStart c && cs.all fun d => isIdentifierStart d || d.isDigit

/-- An identifier in ASCII letters. It may be a contextual keyword, but no reserved word. -/
structure Identifier where
  name : String
  ascii : isIdentifier name.toList = true
  notReserved : isReservedWord name = false
  notImport : name ≠ "import"
  notExport : name ≠ "export"

attribute [simp] Identifier.notReserved Identifier.notImport Identifier.notExport

/-- How an item is written around its literal. -/
inductive Shape where
  /-- `import Q;` -/
  | importOnly
  /-- `import ID from Q;` -/
  | importDefault (id : Identifier)
  /-- `import * as ID from Q;` -/
  | importAll (id : Identifier)
  /-- `export * from Q;` -/
  | exportAll
  /-- `export * as ID from Q;` -/
  | exportAllAs (id : Identifier)
  /-- `import ID = require(Q);` -/
  | importRequire (id : Identifier)
  /-- `import(Q);` -/
  | importCall
  /-- `/// <reference path=Q />` -/
  | referencePath
  /-- `/// <reference types=Q />` -/
  | referenceTypes
  /-- `// @deno-types=Q` -/
  | denoTypes

namespace Shape

/-- What stands before the literal. -/
def lead : Shape → String
  | .importOnly => "import "
  | .importDefault id => "import " ++ id.name ++ " from "
  | .importAll id => "import * as " ++ id.name ++ " from "
  | .exportAll => "export * from "
  | .exportAllAs id => "export * as " ++ id.name ++ " from "
  | .importRequire id => "import " ++ id.name ++ " = require("
  | .importCall => "import("
  | .referencePath => "/// <reference path="
  | .referenceTypes => "/// <reference types="
  | .denoTypes => "// @deno-types="

/-- What stands behind the literal. -/
def trail : Shape → String
  | .importRequire _ => ");"
  | .importCall => ");"
  | .referencePath => " />"
  | .referenceTypes => " />"
  | .denoTypes => ""
  | _ => ";"

/-- The form of the specifier. -/
def form : Shape → Form
  | .importOnly => .importFrom
  | .importDefault _ => .importFrom
  | .importAll _ => .importFrom
  | .exportAll => .exportFrom
  | .exportAllAs _ => .exportFrom
  | .importRequire _ => .importRequire
  | .importCall => .dynamicImport
  | .referencePath => .reference
  | .referenceTypes => .reference
  | .denoTypes => .typesHint

end Shape

/-- An item of a module text. -/
structure Item where
  shape : Shape
  literal : Quoted

namespace Item

variable (item : Item)

/-- How the item is written. -/
def text : List Char :=
  item.shape.lead.toList ++ item.literal.written ++ item.shape.trail.toList

/-- The site of an item that begins at a position. -/
def siteAt (p : Position) : Site where
  text := String.ofList item.literal.text
  span := ⟨p.advanceBy item.shape.lead.toList,
    p.advanceBy (item.shape.lead.toList ++ item.literal.written)⟩
  form := item.shape.form

/-- The site of an item on a line of its own. -/
def site (line : Nat) : Site where
  text := String.ofList item.literal.text
  span := ⟨⟨line, width item.shape.lead.toList⟩,
    ⟨line, width item.shape.lead.toList + width item.literal.written⟩⟩
  form := item.shape.form

/-- The specifier of an item on a line of its own. -/
def specifier (line : Nat) : RawSpecifier :=
  if isRemote (String.ofList item.literal.text) then .remote (item.site line)
  else .internal (item.site line)

end Item

/-! ## Letters -/

theorem toNat_lt_of_isIdentifierStart {c : Char} (letter : isIdentifierStart c = true) :
    c.toNat < 128 := by
  have bound {d : Char} (le : c ≤ d) (small : d.toNat < 128) : c.toNat < 128 :=
    Nat.lt_of_le_of_lt (UInt32.le_iff_toNat_le.mp (Char.le_def.mp le)) small
  simp only [isIdentifierStart, Bool.or_eq_true, Bool.and_eq_true, decide_eq_true_eq] at letter
  rcases letter with ((⟨-, small⟩ | ⟨-, capital⟩) | rfl) | rfl
  · exact bound small (by decide)
  · exact bound capital (by decide)
  · decide
  · decide

/-- What an identifier may begin with is a letter of names that begins no number. -/
theorem isWordChar_of_isIdentifierStart {c : Char} (letter : isIdentifierStart c = true) :
    isWordChar c = true ∧ c.isDigit = false ∧ c ≠ '#' := by
  have table : ∀ n < 128, isIdentifierStart (Char.ofNat n) = true →
      isWordChar (Char.ofNat n) = true ∧ (Char.ofNat n).isDigit = false ∧ Char.ofNat n ≠ '#' := by
    decide +kernel
  have entry := table c.toNat (toNat_lt_of_isIdentifierStart letter)
  rw [Char.ofNat_toNat] at entry
  exact entry letter

theorem isWordChar_of_isDigit {c : Char} (digit : c.isDigit = true) : isWordChar c = true := by
  have table : ∀ n < 58, (Char.ofNat n).isDigit = true → isWordChar (Char.ofNat n) = true := by
    decide +kernel
  have small : c.toNat < 58 := by
    simp only [Char.isDigit, Bool.and_eq_true, decide_eq_true_eq] at digit
    exact Nat.lt_succ_of_le (UInt32.le_iff_toNat_le.mp digit.2)
  have entry := table c.toNat small
  rw [Char.ofNat_toNat] at entry
  exact entry digit

theorem Identifier.isName (id : Identifier) : isName id.name.toList = true := by
  have ascii := id.ascii
  cases letters : id.name.toList with
  | nil => exact absurd (letters ▸ ascii) (by decide)
  | cons first rest =>
    simp only [letters, isIdentifier, Bool.and_eq_true, List.all_eq_true, Bool.or_eq_true] at ascii
    obtain ⟨word, notDigit, notHash⟩ := isWordChar_of_isIdentifierStart ascii.1
    have others : rest.all isWordChar = true := by
      refine List.all_eq_true.mpr fun c member => ?_
      rcases ascii.2 c member with letter | digit
      · exact (isWordChar_of_isIdentifierStart letter).1
      · exact isWordChar_of_isDigit digit
    simp [Script.isName, word, notDigit, notHash, others]

/-- A printable character ends no line comment. -/
theorem endsLine_of_isPrintable {c : Char} (printable : isPrintable c = true) :
    endsLine c = false := by
  simp only [isPrintable, Bool.and_eq_true, decide_eq_true_eq, ne_eq] at printable
  obtain ⟨⟨⟨⟨-, visible⟩, -⟩, notLine⟩, notParagraph⟩ := printable
  have nonzero : c.toNat ≠ 0 := by omega
  have feed : c ≠ '\n' := by
    rintro rfl
    exact absurd visible (by decide)
  have back : c ≠ '\r' := by
    rintro rfl
    exact absurd visible (by decide)
  simp [endsLine, feed, back, notLine, notParagraph, nonzero]

theorem Quoted.endsLine_written (q : Quoted) : ∀ c ∈ q.written, endsLine c = false := by
  intro c member
  have quote := q.of_quotes (endsLine · = false) (by decide) (by decide)
  simp only [written, List.cons_append, List.mem_cons, List.mem_append, List.not_mem_nil,
    or_false] at member
  rcases member with rfl | inside | rfl
  · exact quote
  · exact endsLine_of_isPrintable (q.printable c inside)
  · exact quote

theorem Identifier.newline_notMem (id : Identifier) : '\n' ∉ id.name.toList := by
  intro member
  have word := id.isName
  cases letters : id.name.toList with
  | nil => exact absurd (letters ▸ member) List.not_mem_nil
  | cons first rest =>
    rw [letters] at word member
    simp only [Script.isName, Bool.and_eq_true, List.all_eq_true] at word
    rcases List.mem_cons.mp member with rfl | inside
    · exact absurd word.1.1.1 (by decide)
    · exact absurd (word.2 _ inside) (by decide)

theorem Quoted.newline_notMem (q : Quoted) : '\n' ∉ q.written :=
  fun member => absurd (q.endsLine_written _ member) (by decide)

namespace Shape

theorem newline_notMem_lead (shape : Shape) : '\n' ∉ shape.lead.toList := by
  cases shape <;> simp [lead, Identifier.newline_notMem]

theorem newline_notMem_trail (shape : Shape) : '\n' ∉ shape.trail.toList := by
  cases shape <;> simp [trail]

end Shape

/-! ## Lines -/

namespace Shape

/-- Is it a directive? -/
def inComment : Shape → Bool
  | .referencePath => true
  | .referenceTypes => true
  | .denoTypes => true
  | _ => false

/-- The pieces of a statement before the one with the literal. -/
def before : Shape → List Piece
  | .importOnly => [.word "import"]
  | .importDefault id => [.word "import", .word id.name, .word "from"]
  | .importAll id => [.word "import", .star, .word "as", .word id.name, .word "from"]
  | .exportAll => [.word "export", .star, .word "from"]
  | .exportAllAs id => [.word "export", .star, .word "as", .word id.name, .word "from"]
  | .importRequire id => [.word "import", .word id.name, .equals]
  | _ => []

/-- The name of which the literal is the argument. -/
def callee? : Shape → Option String
  | .importRequire _ => some "require"
  | .importCall => some "import"
  | _ => none

/-- What stands in the piece with the literal before the literal. -/
def opening (shape : Shape) : List Char :=
  match shape.callee? with
  | none => []
  | some name => name.toList ++ ['(']

/-- The piece with the literal. -/
def holder (shape : Shape) (q : Quoted) : Piece :=
  match shape.callee? with
  | none => .literal q
  | some name => .call name q

theorem toList_lead {shape : Shape} (statement : shape.inComment = false) :
    shape.lead.toList = shape.before.flatMap Piece.text ++ shape.opening := by
  cases shape with
  | referencePath | referenceTypes | denoTypes => exact absurd statement (by decide)
  | _ => simp [lead, before, opening, callee?, Piece.text]

theorem sound_before (shape : Shape) : ∀ piece ∈ shape.before, piece.Sound := by
  have words : isName "import".toList = true ∧ isName "export".toList = true ∧
      isName "from".toList = true ∧ isName "as".toList = true := by
    decide +kernel
  obtain ⟨importWord, exportWord, fromWord, asWord⟩ := words
  cases shape <;>
    simp only [before, List.forall_mem_cons, List.not_mem_nil, false_imp_iff, implies_true,
      Piece.Sound, Identifier.isName, importWord, exportWord, fromWord, asWord, and_self]

theorem sound_holder (shape : Shape) (q : Quoted) : (shape.holder q).Sound := by
  have words : isName "import".toList = true ∧ isName "require".toList = true := by
    decide +kernel
  obtain ⟨importWord, requireWord⟩ := words
  cases shape with
  | importRequire => exact ⟨requireWord, by decide⟩
  | importCall => exact ⟨importWord, by decide⟩
  | _ => exact trivial

/-- The two slashes of a directive begin a comment that does not end before the line does. -/
theorem lead_of_inComment {shape : Shape} (comment : shape.inComment = true) :
    ∃ rest, shape.lead.toList = '/' :: '/' :: rest ∧
      rest.all (!endsLine ·) = true ∧ shape.trail.toList.all (!endsLine ·) = true := by
  cases shape with
  | referencePath => exact ⟨"/ <reference path=".toList, by decide +kernel⟩
  | referenceTypes => exact ⟨"/ <reference types=".toList, by decide +kernel⟩
  | denoTypes => exact ⟨" @deno-types=".toList, by decide +kernel⟩
  | _ => exact absurd comment Bool.false_ne_true

theorem opening_holder (shape : Shape) (q : Quoted) (statement : shape.inComment = false) :
    shape.opening ++ q.written ++ shape.trail.toList = (shape.holder q).text ++ [';'] := by
  cases shape with
  | referencePath | referenceTypes | denoTypes => exact absurd statement (by decide)
  | _ => simp [opening, holder, callee?, trail, Piece.text]

end Shape

namespace Item

variable (item : Item)

/-- The item as a line. -/
def line : Line :=
  if item.shape.inComment then .comment (item.text.drop 2)
  else .statement (item.shape.before ++ [item.shape.holder item.literal, .stop])

theorem text_line : item.line.text = item.text := by
  cases comment : item.shape.inComment with
  | false =>
    have written := item.shape.opening_holder item.literal comment
    rw [line, if_neg (by simp [comment]), Line.text, text, Shape.toList_lead comment,
      List.append_assoc, List.append_assoc, ← List.append_assoc item.shape.opening, written]
    simp [Piece.text]
  | true =>
    obtain ⟨rest, lead, -⟩ := Shape.lead_of_inComment comment
    rw [line, if_pos comment, Line.text, text, lead]
    rfl

theorem sound_line : item.line.Sound := by
  cases comment : item.shape.inComment with
  | false =>
    rw [line, if_neg (by simp [comment])]
    intro piece member
    rcases List.mem_append.mp member with before | rest
    · exact item.shape.sound_before piece before
    · simp only [List.mem_cons, List.not_mem_nil, or_false] at rest
      rcases rest with rfl | rfl
      · exact item.shape.sound_holder item.literal
      · exact trivial
  | true =>
    obtain ⟨rest, lead, inLine⟩ := Shape.lead_of_inComment comment
    rw [line, if_pos comment]
    intro c member
    rw [text, lead] at member
    simp only [List.cons_append, List.drop_succ_cons, List.drop_zero, List.mem_append] at member
    rcases member with (before | inside) | behind
    · simpa using List.all_eq_true.mp inLine.1 c before
    · exact item.literal.endsLine_written c inside
    · simpa using List.all_eq_true.mp inLine.2 c behind

end Item

/-! ## Statements -/

namespace Reader

/-- The reader where no statement is under way. -/
def resting (sites : List Site) : Reader := ⟨.idle, [], false, sites⟩

theorem resting_nil : resting [] = initial := rfl

variable {text name : String} {span word opening literal closing stop : Span} {sites : List Site}

/-! What a reader makes of the tokens before a literal, where no bracket is open: -/

theorem step_import :
    step (resting sites) ⟨.word "import", span⟩ = ⟨.importHead false, [], false, sites⟩ := rfl

theorem step_importStar : step ⟨.importHead false, [], false, sites⟩ ⟨.mark '*', span⟩ =
    ⟨.importNames false, [], false, sites⟩ := rfl

theorem step_importName {clause : Clause}
    (names : clause = .importHead false ∨ clause = .importNames false)
    (notReserved : isReservedWord name = false) (notImport : name ≠ "import")
    (notExport : name ≠ "export") :
    step ⟨clause, [], false, sites⟩ ⟨.word name, span⟩ =
      ⟨.importNames false, [], false, sites⟩ := by
  have plain : ¬(isReservedWord name = true ∨ name = "import" ∨ name = "export") := by
    simp [notReserved, notImport, notExport]
  rcases names with rfl | rfl
  · simp only [step, argue, mapCall, proceed, meetWord, if_neg plain, goto]
  · simp only [step, argue, mapCall, proceed, meetWord, if_neg plain, goto]

theorem step_importEquals : step ⟨.importNames false, [], false, sites⟩ ⟨.mark '=', span⟩ =
    ⟨.importEquals, [], false, sites⟩ := rfl

theorem step_export :
    step (resting sites) ⟨.word "export", span⟩ = ⟨.exportHead, [], false, sites⟩ := rfl

theorem step_exportStar : step ⟨.exportHead, [], false, sites⟩ ⟨.mark '*', span⟩ =
    ⟨.exportStar, [], false, sites⟩ := rfl

theorem step_exportAs : step ⟨.exportStar, [], false, sites⟩ ⟨.word "as", span⟩ =
    ⟨.exportAs, [], false, sites⟩ := rfl

theorem step_exportName : step ⟨.exportAs, [], false, sites⟩ ⟨.word name, span⟩ =
    ⟨.exportNames, [], false, sites⟩ := rfl

theorem step_exportFrom {clause : Clause} (names : clause = .exportStar ∨ clause = .exportNames) :
    step ⟨clause, [], false, sites⟩ ⟨.word "from", span⟩ =
      ⟨.exportSource, [], false, sites⟩ := by
  rcases names with rfl | rfl
  · rfl
  · rfl

/-- A literal behind `import`, or behind the names of an import statement, is its site. -/
theorem foldl_importFrom {clause : Clause}
    (names : clause = .importHead false ∨ clause = .importNames false) :
    [⟨.string text, literal⟩, ⟨.mark ';', stop⟩].foldl step ⟨clause, [], false, sites⟩ =
      resting (⟨text, literal, .importFrom⟩ :: sites) := by
  rcases names with rfl | rfl
  · rfl
  · rfl

theorem foldl_exportFrom :
    [⟨.string text, literal⟩, ⟨.mark ';', stop⟩].foldl step ⟨.exportSource, [], false, sites⟩ =
      resting (⟨text, literal, .exportFrom⟩ :: sites) := rfl

theorem foldl_importRequire :
    [⟨.word "require", word⟩, ⟨.opening .round, opening⟩, ⟨.string text, literal⟩,
        ⟨.closing .round, closing⟩, ⟨.mark ';', stop⟩].foldl step
      ⟨.importEquals, [], false, sites⟩ =
      resting (⟨text, literal, .importRequire⟩ :: sites) := rfl

/-- The argument of an `import(…)` is a site once the list is closed. -/
theorem foldl_dynamicImport :
    [⟨.word "import", word⟩, ⟨.opening .round, opening⟩, ⟨.string text, literal⟩,
        ⟨.closing .round, closing⟩, ⟨.mark ';', stop⟩].foldl step (resting sites) =
      resting (⟨text, literal, .dynamicImport⟩ :: sites) := rfl

end Reader

namespace Shape

/-- How far a statement has been read before the piece with its literal. -/
def clause : Shape → Clause
  | .importOnly => .importHead false
  | .importDefault _ => .importNames false
  | .importAll _ => .importNames false
  | .exportAll => .exportSource
  | .exportAllAs _ => .exportSource
  | .importRequire _ => .importEquals
  | _ => .idle

theorem foldl_before (shape : Shape) (p : Position) (sites : List Site) :
    (tokensOfPieces p shape.before).foldl Reader.step (.resting sites) =
      ⟨shape.clause, [], false, sites⟩ := by
  have words : isReservedWord "from" = false ∧ isReservedWord "as" = false := by decide +kernel
  cases shape with
  | importCall | referencePath | referenceTypes | denoTypes => rfl
  | _ =>
    simp [before, clause, tokensOfPieces, Piece.tokens, words, Reader.step_import,
      Reader.step_importStar, Reader.step_importName, Reader.step_importEquals, Reader.step_export,
      Reader.step_exportStar, Reader.step_exportAs, Reader.step_exportName, Reader.step_exportFrom]

theorem foldl_holder {shape : Shape} (statement : shape.inComment = false) (q : Quoted)
    (p : Position) (sites : List Site) :
    (tokensOfPieces p [shape.holder q, .stop]).foldl Reader.step ⟨shape.clause, [], false, sites⟩ =
      .resting (⟨String.ofList q.text,
        ⟨p.advanceBy shape.opening, p.advanceBy (shape.opening ++ q.written)⟩, shape.form⟩ ::
          sites) := by
  cases shape with
  | importOnly => exact Reader.foldl_importFrom (.inl rfl)
  | importDefault | importAll => exact Reader.foldl_importFrom (.inr rfl)
  | exportAll | exportAllAs => exact Reader.foldl_exportFrom
  | importRequire id =>
    have start : p.advanceBy (opening (.importRequire id)) =
        (p.advanceBy "require".toList).advance '(' := Position.advanceBy_append p _ ['(']
    rw [Position.advanceBy_append p (opening _), start]
    exact Reader.foldl_importRequire
  | importCall =>
    have start : p.advanceBy (opening .importCall) =
        (p.advanceBy "import".toList).advance '(' := Position.advanceBy_append p _ ['(']
    rw [Position.advanceBy_append p (opening _), start]
    exact Reader.foldl_dynamicImport
  | referencePath | referenceTypes | denoTypes => exact absurd statement (by decide)

end Shape

namespace Item

/-- Of a statement the reader finds the site. -/
theorem foldl_statement {item : Item} (statement : item.shape.inComment = false) (p : Position)
    (sites : List Site) :
    (item.line.tokens p).foldl Reader.step (.resting sites) =
      .resting (item.siteAt p :: sites) := by
  rw [line, if_neg (by simp [statement]), Line.tokens, tokensOfPieces_append, List.foldl_append,
    Shape.foldl_before, Shape.foldl_holder statement, siteAt, Shape.toList_lead statement]
  simp only [Position.advanceBy_append]

theorem tokens_comment {item : Item} (comment : item.shape.inComment = true) (p : Position) :
    item.line.tokens p = [⟨.comment (String.ofList item.text), ⟨p, p.advanceBy item.text⟩⟩] := by
  have text := item.text_line
  rw [line, if_pos comment] at text ⊢
  rw [Line.tokens, ← text]
  rfl

end Item

/-- In printable text there are no comments, as it does not go on over line ends. -/
theorem Quoted.commentsIn_text (q : Quoted) : commentsIn q.text = [] := by
  have none (before cs : List Char) (printable : ∀ c ∈ cs, isPrintable c = true) :
      Passage.text.commentsFrom before cs = [] := by
    induction cs generalizing before with
    | nil => rfl
    | cons c cs ih =>
      obtain ⟨here, behind⟩ := List.forall_mem_cons.mp printable
      rw [Passage.commentsFrom, (Lexer.next_of_isPrintable here).1]
      exact ih (c :: before) behind
  exact none [] q.text q.printable

theorem directives_tokensOfPieces (p : Position) (pieces : List Piece) :
    (tokensOfPieces p pieces).flatMap Token.directives = [] := by
  have literal (q : Quoted) (span : Span) :
      Token.directives ⟨.string (String.ofList q.text), span⟩ = [] := by
    rw [Token.directives, Token.comments]
    dsimp only
    rw [String.toList_ofList, q.commentsIn_text]
    rfl
  induction pieces generalizing p with
  | nil => rfl
  | cons piece pieces ih =>
    have none : (piece.tokens p).flatMap Token.directives = [] := by
      cases piece with
      | literal q => exact (List.flatMap_singleton ..).trans (literal q _)
      | call name q => exact (congrArg (· ++ []) (literal q _))
      | _ => rfl
    rw [tokensOfPieces, List.flatMap_append, none, ih, List.append_nil]

/-- Before the piece with its literal a statement has no literals. -/
theorem Shape.filterMap_before (shape : Shape) (p : Position) (sites : List Site) :
    (tokensOfPieces p shape.before).filterMap (Token.site? sites) = [] := by
  cases shape <;> rfl

theorem Token.site?_of_find? {q : Quoted} {span : Span} {form : Form} {sites : List Site}
    (found : sites.find? (·.span = span) = some ⟨String.ofList q.text, span, form⟩) :
    Token.site? sites ⟨.string (String.ofList q.text), span⟩ =
      some ⟨String.ofList q.text, span, form⟩ := by
  have nonempty : (String.ofList q.text).isEmpty = false := by
    simpa using q.nonempty
  rw [Token.site?]
  dsimp only
  rw [found, Option.bind_some, nonempty]
  rfl

theorem Shape.filterMap_holder {shape : Shape} (statement : shape.inComment = false) {q : Quoted}
    {p : Position} {sites : List Site} {span : Span}
    (place : span = ⟨p.advanceBy shape.opening, p.advanceBy (shape.opening ++ q.written)⟩)
    (found : sites.find? (·.span = span) = some ⟨String.ofList q.text, span, shape.form⟩) :
    (tokensOfPieces p [shape.holder q, .stop]).filterMap (Token.site? sites) =
      [⟨String.ofList q.text, span, shape.form⟩] := by
  have told := Token.site?_of_find? found
  have call (name : String) (place : span = ⟨(p.advanceBy name.toList).advance '(',
      ((p.advanceBy name.toList).advance '(').advanceBy q.written⟩) :
      (tokensOfPieces p [.call name q, .stop]).filterMap (Token.site? sites) =
        [⟨String.ofList q.text, span, shape.form⟩] := by
    subst place
    exact List.filterMap_cons_some told
  cases shape with
  | referencePath | referenceTypes | denoTypes => exact absurd statement (by decide)
  | importRequire id =>
    rw [opening, callee?, Position.advanceBy_append, Position.advanceBy_append] at place
    exact call "require" place
  | importCall =>
    rw [opening, callee?, Position.advanceBy_append, Position.advanceBy_append] at place
    exact call "import" place
  | _ =>
    subst place
    exact List.filterMap_cons_some told

/-- In the outline a statement tells its site, where that has been found. -/
theorem Item.filterMap_statement {item : Item} (statement : item.shape.inComment = false)
    {p : Position} {sites : List Site}
    (found : sites.find? (·.span = (item.siteAt p).span) = some (item.siteAt p)) :
    (item.line.tokens p).filterMap (Token.site? sites) = [item.siteAt p] := by
  rw [line, if_neg (by simp [statement]), Line.tokens, tokensOfPieces_append,
    List.filterMap_append, Shape.filterMap_before, List.nil_append]
  refine Shape.filterMap_holder statement ?_ found
  simp only [Shape.toList_lead statement, Position.advanceBy_append]

/-! ## Directives -/

/-- One space. -/
def Blanks.space : Blanks := .one ' ' (by decide)

/-- The literal as the value of a directive. -/
def Quoted.value (q : Quoted) : Directive.Value :=
  ⟨q.quote, q.text, q.isQuote, fun member => absurd rfl (q.plain q.quote member).1⟩

namespace Item

variable {item : Item}

/-- An item in a comment begins with the opening of its form. -/
theorem exists_begins (comment : item.shape.inComment = true) :
    ∃ opening, opening.form = item.shape.form ∧ opening.written = item.shape.lead.toList ∧
      Directive.Begins opening item.literal.value item.text := by
  have begins {opening : Directive.Opening} (written : opening.written = item.shape.lead.toList) :
      Directive.Begins opening item.literal.value item.text := by
    rw [Directive.Begins, written]
    exact List.prefix_append _ _
  cases shape : item.shape with
  | referencePath =>
    exact ⟨.reference .space .space Blanks.one_ne_nil .path .none .none, rfl, rfl,
      begins (by rw [shape]; rfl)⟩
  | referenceTypes =>
    exact ⟨.reference .space .space Blanks.one_ne_nil .types .none .none, rfl, rfl,
      begins (by rw [shape]; rfl)⟩
  | denoTypes => exact ⟨.typesHint .space .none .none, rfl, rfl, begins (by rw [shape]; rfl)⟩
  | _ => exact absurd comment (by simp [shape, Shape.inComment])

theorem find?_text (comment : item.shape.inComment = true) :
    Directive.find? item.text =
      some ⟨item.shape.form, item.shape.lead.toList, item.literal.quote, item.literal.text⟩ := by
  obtain ⟨opening, form, written, begins⟩ := exists_begins comment
  rw [Directive.find?_of_begins begins, form, written]
  rfl

theorem directiveSite?_text (comment : item.shape.inComment = true) (p : Position) :
    directiveSite? p (String.ofList item.text) = some (item.siteAt p) := by
  have found : Directive.find? (String.ofList item.text).toList = _ :=
    (congrArg Directive.find? String.toList_ofList).trans (find?_text comment)
  have nonempty : item.literal.text.isEmpty = false := by
    simpa using item.literal.nonempty
  rw [directiveSite?, found, Option.bind_eq_bind, Option.bind_some, nonempty, siteAt,
    Position.advanceBy_append, Position.advanceBy_of_notMem item.shape.newline_notMem_lead,
    Position.advanceBy_of_notMem item.literal.newline_notMem]
  rfl

end Item

end RemoteIndex.Script
