import RemoteIndex.Program

/-!
# Reading a file tree from disk

A run needs only a part of what is on disk: the files it reads by name, and what the walk comes
by. `survey` reads that part into a `FileTree`. A link is recorded with the place it leads to in
the end, so that the way to that place holds no further link.

The file system is asked by way of texts. A name that is not UTF-8 comes back with its bad bytes
replaced, so a file of such a name is not found and left out.
-/

namespace RemoteIndex.Disk

/-- The place of an absolute path without `..`. -/
def placeOf (p : Path) : Place :=
  p.components.filterMap fun c =>
    match c with
    | .name n => some n
    | _ => none

/-- A way that goes on from a file. -/
def pastFile : Path := .ofString "/dev/null/past"

/-- The place that a link leads to, as its target. A link to nothing has the empty target, one
whose way goes on from a file has a way that does so too, and any other that cannot be followed
leads to itself: what the link holds cannot be asked for, so a way that is denied is not told from
one that does not end. -/
def linkTarget (link : Place) : IO Path := do
  try
    let _ ← (System.mkFilePath [link.path.display]).metadata
    return .ofString (← IO.FS.realPath link.path.display).toString
  catch
    | .noFileOrDirectory .. => return ⟨[]⟩
    | .inappropriateType .. => return pastFile
    | _ => return link.path

/-- The node at a place. A file has no bytes yet. -/
def node? (place : Place) : IO (Option Node) := do
  let path := System.mkFilePath [place.path.display]
  try
    match (← path.symlinkMetadata).type with
    | .dir => return some (.directory (← (path / ".").pathExists))
    | .symlink => return some (.link (← linkTarget place))
    | _ => return some (.file [] true)
  catch _ => return none

/-- Where the node at a place leads to, as far as a surveyed tree tells. -/
def destination (t : FileTree) (place : Place) : Place :=
  match t.node? place with
  | some (.link target) => if target.bytes.isEmpty then place else placeOf target
  | _ => place

/-- The tree with the node at a place. What it already has there stays. -/
def addNode (t : FileTree) (place : Place) : IO FileTree := do
  if (t.node? place).isSome then return t
  match ← node? place with
  | none => return t
  | some node => return t.insert place node

/-- The tree with the nodes on the way to a place and the one at it. -/
def addWay (t : FileTree) (place : Place) : IO FileTree :=
  ((List.range (place.length + 1)).map place.take).foldlM addNode t

/-- The tree with the bytes of the file at a place. -/
def addBytes (t : FileTree) (place : Place) : IO FileTree := do
  match t.node? place with
  | some (.file _ _) =>
    try
      return t.insert place (.file (← IO.FS.readBinFile place.path.display).toList true)
    catch _ => return t.insert place (.file [] false)
  | _ => return t

/-- The tree with the nodes on a way that may hold links, and the bytes of a file at its end. -/
def addFile (t : FileTree) (here : Place) : List FileTree.Step → IO FileTree
  | [] => addBytes t here
  | .up :: rest => addFile t here.dropLast rest
  | .down n :: rest => do
    let t ← addNode t (here ++ [n])
    let target := destination t (here ++ [n])
    addFile (← addWay t target) target rest
  | _ :: rest => addFile t here rest

/-- A tree, and the directories whose entries are in it. -/
structure Survey where
  tree : FileTree
  listed : List Place

/-- The names in a directory, none if it cannot be listed. -/
def names (place : Place) : IO (Option (List Name)) := do
  try
    let entries ← (System.mkFilePath [place.path.display]).readDir
    return some (entries.toList.map fun e => .ofString e.fileName)
  catch _ => return none

/-- The survey with what a walk comes by from a directory on downwards, no more than `levels`
levels. -/
def addBelow (filter : WalkFilter) : Nat → Survey → Place → IO Survey
  | 0, s, _ => return s
  | levels + 1, s, here => do
    if here ∈ s.listed then return s
    match ← names here with
    | none => return { s with tree := s.tree.close here }
    | some names =>
      names.foldlM
        (fun s n => do
          let tree ← addNode s.tree (here ++ [n])
          let target := destination tree (here ++ [n])
          let tree ← addWay tree target
          if filter.prunes n then return { s with tree }
          match tree.node? target with
          | some (.directory _) => addBelow filter levels { s with tree } target
          | _ =>
            if filter.shows n then return { s with tree := ← addBytes tree target }
            else return { s with tree })
        ⟨s.tree, here :: s.listed⟩

/-- The tree with what is walked from a root on. No level is deeper than a path has bytes. -/
def addWalk (t : FileTree) (cwd : Place) (filter : WalkFilter) (root : Path) : IO FileTree := do
  match t.locate cwd root with
  | .error _ => return t
  | .ok place => return (← addBelow filter FileTree.maxPath ⟨t, []⟩ place).tree

/-- The part of the disk that a run looks at: the files it reads first tell about the rest. -/
def survey (cwd : Place) (args : List Argument) : IO FileTree := do
  let addFiles (t : FileTree) (e : Program.Extent) : IO FileTree :=
    (e.root.toList ++ e.files).foldlM (fun t p => addFile t [] (FileTree.steps p)) t
  let t ← addWay .empty cwd
  let t ← addFiles t (Program.extent t cwd args)
  let extent := Program.extent t cwd args
  let t ← addFiles t extent
  match extent.root with
  | none => return t
  | some root => addWalk t cwd extent.filter root

end RemoteIndex.Disk
