import RemoteIndex.Diagnostic
import RemoteIndex.Settings.Document

/-!
# Settings

A project may keep settings in a file at its root: an import map, and globs to leave out of the
walk. A file that is not a settings document counts as none at all.
-/

namespace RemoteIndex

/-- The settings of a project. -/
structure Settings where
  importMap : Option Path
  exclude : Option (List String)
deriving DecidableEq, Repr, Inhabited

namespace Settings

/-- The settings of a project that has no file with settings. -/
def default : Settings := ⟨none, none⟩

/-- The name of the file. -/
def fileName : String := "remote-deps.toml"

/-- The settings of a document. -/
def ofDocument? (document : String) : Option Settings :=
  (Document.entries? document).map fun e => ⟨e.importMap.map .ofString, e.exclude⟩

/-- The settings of the project at `root`, with the warnings about them. -/
def load (tree : FileTree) (cwd : Place) (root : Path) : Settings × List Warning :=
  let path := root.join (.ofString fileName)
  if !tree.exists? cwd path then (default, [])
  else
    match tree.readText cwd path with
    | .error cause => (default, [.unreadSettings fileName cause])
    | .ok document =>
      match ofDocument? document with
      | none => (default, [.unparsedSettings fileName])
      | some settings => (settings, [])

/-- The import map, seen from the root unless it is absolute. -/
def importMapPath (s : Settings) (root : Path) : Option Path :=
  s.importMap.map fun p => if p.isAbsolute then p else (root.join p).clean

/-- The globs to leave out. -/
def excludePatterns (s : Settings) : List String := s.exclude.getD []

end Settings

end RemoteIndex
