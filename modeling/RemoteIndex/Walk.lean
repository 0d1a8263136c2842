import RemoteIndex.Walk.Filter

/-!
# Walks

A walk goes through everything below a root, each directory in the order of its names and each
subdirectory at its place among them. It follows links, but not out of the root and not into a
directory it is already inside of. What it cannot go through becomes an error among its items.
-/

namespace RemoteIndex

/-- A walk that can begin. -/
structure Walk where
  tree : FileTree
  cwd : Place
  filter : WalkFilter
  /-- The root, as an absolute path. -/
  root : Path
  /-- The place of the root. -/
  boundary : Place
  located : tree.locate cwd root = .ok boundary
  listable : tree.node? boundary = some (.directory true)

namespace Walk

/-- What a walk comes across. A file is given by the names that lead to it from the root. -/
inductive Item where
  | file (names : List Name)
  | trouble (error : WalkError)
deriving DecidableEq, Repr, Inhabited

/-- The walk of the directory at `path`. It has to be a directory that can be listed. -/
def start? (tree : FileTree) (cwd : Place) (filter : WalkFilter) (path : Path) :
    Except RootError Walk :=
  match Path.absolute? cwd.path path with
  | none => .error ⟨path, .emptyPath⟩
  | some root =>
    if !tree.isDirectory cwd root then .error ⟨path, .noDirectory⟩
    else
      match located : tree.locate cwd root with
      | .error cause => .error ⟨path, cause⟩
      | .ok boundary =>
        if listable : tree.node? boundary = some (.directory true) then
          .ok { tree, cwd, filter, root, boundary, located, listable }
        else .error ⟨path, .denied⟩

/-- The path of what the names lead to. -/
def pathOf (w : Walk) (names : List Name) : Path := w.root.extend names

/-- A directory the walk is inside of: its place, and the names the walk came by. -/
structure Station where
  place : Place
  names : List Name
deriving DecidableEq, Repr, Inhabited

/-- What a walk does with an entry of a directory. -/
inductive Move where
  /-- Goes into a directory. -/
  | descend (station : Station)
  /-- Gives an item. -/
  | give (item : Item)
  /-- Passes over it. -/
  | skip
deriving DecidableEq, Repr, Inhabited

/-- The move at a file called `n`, which the names lead to. -/
def moveAtFile (w : Walk) (names : List Name) (n : Name) : Move :=
  if w.filter.prunes n then .skip
  else if w.filter.shows n then .give (.file names)
  else .skip

/-- The move at a link called `n`, which leads to `target`. A directory that is closed, or that the
walk is inside of, is noticed before the filter is asked. -/
def moveAtLink (w : Walk) (trail : List Station) (names : List Name) (n : Name) (target : Place) :
    Move :=
  let inside := w.boundary.isPrefixOf target
  match w.tree.node? target with
  | some (.directory false) => .give (.trouble (.unusableTarget .denied))
  | some (.directory true) =>
    match trail.find? (·.place = target) with
    | some ancestor => .give (.trouble (.loop (w.pathOf names) (w.pathOf ancestor.names)))
    | none => if inside && !w.filter.prunes n then .descend ⟨target, names⟩ else .skip
  | some (.file _ _) => if inside then w.moveAtFile names n else .skip
  | _ => .skip

/-- The move at the entry `n` of the directory that `trail` begins with; the other stations of the
trail are the directories around it. A link that leads nowhere is noticed before the filter is
asked. -/
def move (w : Walk) (here : Station) (trail : List Station) (n : Name) : Move :=
  let names := here.names ++ [n]
  match w.tree.node? (here.place ++ [n]) with
  | none => .skip
  | some (.file _ _) => w.moveAtFile names n
  | some (.directory _) =>
    if w.filter.prunes n then .skip else .descend ⟨here.place ++ [n], names⟩
  | some (.link _) =>
    match w.tree.locate w.cwd (w.pathOf names) with
    | .error cause => .give (.trouble (.unusable (w.pathOf names) cause))
    | .ok target => w.moveAtLink (here :: trail) names n target

/-- The items from a directory on downwards, no more than `depth` levels. -/
def visit (w : Walk) : Nat → Station → List Station → List Item
  | 0, _, _ => []
  | depth + 1, here, trail =>
    let path := w.pathOf here.names
    match w.tree.list w.cwd path with
    | .error cause => [.trouble (.unusable path cause)]
    | .ok children =>
      children.flatMap fun n =>
        match w.move here trail n with
        | .descend station => w.visit depth station (here :: trail)
        | .give item => [item]
        | .skip => []

/-- The number of levels that no walk of the tree exceeds: on the way down, links lead to different
directories, and between two of them it only goes deeper. -/
def maxDepth (tree : FileTree) : Nat := (tree.directories.length + 2) * (tree.height + 2)

/-- The items of the walk, in order. -/
def items (w : Walk) : List Item := w.visit (maxDepth w.tree) ⟨w.boundary, []⟩ []

/-- The files of the walk, in order, and warnings about the rest. -/
def files (w : Walk) : List Path × List Warning :=
  (w.items.filterMap fun item =>
      match item with
      | .file names => some (w.pathOf names)
      | .trouble _ => none,
    w.items.filterMap fun item =>
      match item with
      | .file _ => none
      | .trouble error => some (.skippedEntry error))

end Walk

end RemoteIndex
