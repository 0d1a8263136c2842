import RemoteIndex.Diagnostic
import RemoteIndex.ImportMap.Document
import RemoteIndex.Specifier
import RemoteIndex.Table

/-!
# Import maps

An import map gives targets to aliases. A specifier that equals an alias becomes its target; else
the longest alias that ends in a slash and begins the specifier is replaced by its target; else
the specifier stays. A result that begins with `./` or `../` is meant from the directory of the
map's file.
-/

namespace RemoteIndex

/-- Aliases with their targets, and the directory that relative targets are meant from. -/
structure ImportMap where
  entries : List (String × String)
  base : Option Path
deriving DecidableEq, Repr, Inhabited

namespace ImportMap

/-- The map that changes nothing. -/
def empty : ImportMap := ⟨[], none⟩

/-- The map with the given entries, in which relative targets stay as they are. -/
def ofEntries (entries : List (String × String)) : ImportMap := ⟨entries, none⟩

/-- Does the text begin with `./` or `../`? -/
def isRelative (s : String) : Bool :=
  ['.', '/'].isPrefixOf s.toList || ['.', '.', '/'].isPrefixOf s.toList

/-- A target, seen from the map's directory if it is relative. -/
def anchor (m : ImportMap) (target : String) : String :=
  match m.base with
  | some dir => if isRelative target then (dir.join (.ofString target)).clean.display else target
  | none => target

/-- Does the alias `name` stand for everything below it, and is the specifier below it? -/
def covers (name specifier : String) : Bool :=
  name.toList.getLast? == some '/' && name.toList.isPrefixOf specifier.toList

/-- The entry with the longest alias; of equally long ones the last. -/
def longest : List (String × String) → Option (String × String)
  | [] => none
  | e :: es =>
    match longest es with
    | none => some e
    | some best => if best.1.utf8ByteSize < e.1.utf8ByteSize then some e else some best

/-- What the specifier stands for. -/
def resolve (m : ImportMap) (specifier : String) : String :=
  match m.entries.find? (·.1 == specifier) with
  | some (_, target) => m.anchor target
  | none =>
    match longest (m.entries.filter fun e => covers e.1 specifier) with
    | some (name, target) =>
      m.anchor (target ++ String.ofList (specifier.toList.drop name.length))
    | none => specifier

/-- The table of a document: the last value of an alias counts. -/
def Document.table (members : Document.Members) : Table Json := Table.ofEntries members

/-- The entries whose targets are texts. -/
def Document.targets (members : Document.Members) : List (String × String) :=
  (table members).rows.filterMap fun (name, target) => target.text?.map (name, ·)

/-- The aliases whose targets are no texts. -/
def Document.ignored (members : Document.Members) : List String :=
  ((table members).rows.filter fun (_, target) => target.text?.isNone).map Prod.fst

/-- Reads an import map; gives it with the warnings about it. -/
def load (tree : FileTree) (cwd : Place) (path : Path) :
    Except ImportMapError (ImportMap × List Warning) :=
  match tree.readText cwd path with
  | .error cause => .error (.unread path cause)
  | .ok document =>
    match Document.members document with
    | .error fault => .error (.malformed path fault)
    | .ok members =>
      .ok (⟨Document.targets members, path.parent?⟩,
        (Document.ignored members).map (.ignoredTarget path))

/-- Reads an import map if there is one; one that cannot be read changes nothing. -/
def create (tree : FileTree) (cwd : Place) (path : Option Path) : ImportMap × List Warning :=
  match path with
  | none => (empty, [])
  | some path =>
    match load tree cwd path with
    | .ok loaded => loaded
    | .error error => (empty, [.ignoredImportMap error])

end ImportMap

/-- What a classified specifier stands for under an import map. A remote one stands for itself. -/
def RawSpecifier.resolve (m : ImportMap) : RawSpecifier → String
  | .internal site => m.resolve site.text
  | .remote site => site.text

theorem RawSpecifier.resolve_classify (m : ImportMap) (site : Site) :
    (classify site).resolve m = if isRemote site.text then site.text else m.resolve site.text := by
  rw [classify]
  split
  · rfl
  · rfl

end RemoteIndex
