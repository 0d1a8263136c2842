import RemoteIndex.Path

/-!
# File trees

A file tree is what a directory on disk looks like at one moment: a finite map from places to
nodes. A place is the list of the names that lead to a node from the root without passing a link,
so every node has exactly one. Looking up a path follows the links on its way.
-/

namespace RemoteIndex

/-- Where a node is: the names that lead to it from the root. -/
abbrev Place := List Name

namespace Place

/-- The absolute path of a place. -/
def path (p : Place) : Path := Path.ofComponents (.root :: p.map .name)

end Place

/-- Why a file could not be used. -/
inductive FileError where
  | missing
  | denied
  | notDirectory
  | isDirectory
  | nameTooLong
  | tooManyLinks
  | brokenText
  | zeroByte
  | noDirectory
  | emptyPath
deriving DecidableEq, Repr, Inhabited

/-- Results can be told apart where errors and values can. -/
instance decidableEqExcept {ε α : Type} [DecidableEq ε] [DecidableEq α] :
    DecidableEq (Except ε α)
  | .error e, .error e' => decidable_of_iff (e = e') ⟨congrArg Except.error, Except.error.inj⟩
  | .ok a, .ok a' => decidable_of_iff (a = a') ⟨congrArg Except.ok, Except.ok.inj⟩
  | .error _, .ok _ => isFalse nofun
  | .ok _, .error _ => isFalse nofun

/-- The wording of the error. -/
def FileError.message : FileError → String
  | .missing => "No such file or directory (os error 2)"
  | .denied => "Permission denied (os error 13)"
  | .notDirectory => "Not a directory (os error 20)"
  | .isDirectory => "Is a directory (os error 21)"
  | .nameTooLong => "File name too long (os error 36)"
  | .tooManyLinks => "Too many levels of symbolic links (os error 40)"
  | .brokenText => "stream did not contain valid UTF-8"
  | .zeroByte => "file name contained an unexpected NUL byte"
  | .noDirectory => "not a directory"
  | .emptyPath => "cannot make an empty path absolute"

/-- What is at a place. A directory that is not accessible can neither be listed nor passed: one
permission stands for both, and a directory that has but one of them is not told. -/
inductive Node where
  | file (bytes : List UInt8) (accessible : Bool)
  | directory (accessible : Bool)
  | link (target : Path)
deriving DecidableEq, Repr, Inhabited

/-- A finite map from places to nodes. -/
structure FileTree where
  nodes : List (Place × Node)
  distinct : (nodes.map Prod.fst).Nodup
  proper : ∀ e ∈ nodes, ∀ n ∈ e.1, Name.Proper n

namespace FileTree

/-- The tree with nothing in it but its root. -/
def empty : FileTree := ⟨[], List.nodup_nil, fun _ h => absurd h List.not_mem_nil⟩

instance : Inhabited FileTree := ⟨empty⟩

/-- The node at a place. The root is always a directory. -/
def node? (t : FileTree) (p : Place) : Option Node :=
  if p.isEmpty then some (.directory true) else t.nodes.lookup p

/-- The tree with `node` at `p`, in place of what was there. No directory holds an improper name. -/
def insert (t : FileTree) (p : Place) (node : Node) : FileTree :=
  if proper : ∀ n ∈ p, Name.Proper n then
    { nodes := (p, node) :: t.nodes.filter fun e => e.1 ≠ p
      distinct := by
        rw [List.map_cons, List.nodup_cons]
        constructor
        · simp
        · exact t.distinct.sublist (List.filter_sublist.map Prod.fst)
      proper := by
        intro e member
        rcases List.mem_cons.mp member with rfl | member
        · exact proper
        · exact t.proper e (List.mem_filter.mp member).1 }
  else t

/-- The tree without what is at `p` and below it. -/
def prune (t : FileTree) (p : Place) : FileTree where
  nodes := t.nodes.filter fun e => !p.isPrefixOf e.1
  distinct := t.distinct.sublist (List.filter_sublist.map Prod.fst)
  proper e member := t.proper e (List.mem_filter.mp member).1

/-- The name of `q` in the directory `p`, if it is there and not deeper. -/
def nameIn? : Place → Place → Option Name
  | [], [n] => some n
  | a :: p, b :: q => if a = b then nameIn? p q else none
  | _, _ => none

/-- The names in the directory at `p`, in ascending order. -/
def names (t : FileTree) (p : Place) : List Name :=
  (t.nodes.filterMap fun e => nameIn? p e.1).mergeSort Name.atMost

theorem nameIn?_eq_some {p q : Place} {n : Name} : nameIn? p q = some n ↔ q = p ++ [n] := by
  induction p, q using nameIn?.induct with
  | case1 m => simp [nameIn?, eq_comm]
  | case2 a p q ih => simp [nameIn?, ih]
  | case3 a p b q other => simp [nameIn?, other, Ne.symm other]
  | case4 p q notOne notBoth =>
    have none : nameIn? p q = none := by
      rw [nameIn?]
      · exact notOne
      · exact notBoth
    rw [none]
    constructor
    · intro impossible
      exact absurd impossible (by simp)
    · rintro rfl
      cases p with
      | nil => exact (notOne n rfl rfl).elim
      | cons a p => exact (notBoth a p a (p ++ [n]) rfl rfl).elim

theorem mem_of_node? {t : FileTree} {p : Place} {node : Node} (inner : p ≠ [])
    (h : t.node? p = some node) : (p, node) ∈ t.nodes := by
  have notRoot : ¬ p.isEmpty := by rwa [List.isEmpty_iff]
  rw [node?, if_neg notRoot] at h
  obtain ⟨before, after, split, -⟩ := List.lookup_eq_some_iff.mp h
  simp [split]

theorem node?_isSome {t : FileTree} {p : Place} (inner : p ≠ []) :
    (t.node? p).isSome ↔ ∃ node, (p, node) ∈ t.nodes := by
  have notRoot : ¬ p.isEmpty := by rwa [List.isEmpty_iff]
  rw [node?, if_neg notRoot, List.lookup_isSome_iff]
  constructor
  · rintro ⟨⟨q, node⟩, member, same⟩
    obtain rfl : p = q := by simpa using same
    exact ⟨node, member⟩
  · rintro ⟨node, member⟩
    exact ⟨(p, node), member, by simp⟩

theorem mem_names {t : FileTree} {p : Place} {n : Name} :
    n ∈ t.names p ↔ (t.node? (p ++ [n])).isSome := by
  rw [names, List.mem_mergeSort, List.mem_filterMap, node?_isSome (by simp)]
  constructor
  · rintro ⟨⟨q, node⟩, member, named⟩
    obtain rfl := nameIn?_eq_some.mp named
    exact ⟨node, member⟩
  · rintro ⟨node, member⟩
    exact ⟨(p ++ [n], node), member, nameIn?_eq_some.mpr rfl⟩

theorem proper_of_node? {t : FileTree} {p : Place} {n : Name}
    (h : (t.node? (p ++ [n])).isSome) : n.Proper := by
  obtain ⟨node, member⟩ := (node?_isSome (by simp)).mp h
  exact t.proper _ member n (by simp)

/-- The places of the directories below the root. -/
def directories (t : FileTree) : List Place :=
  (t.nodes.filter fun e => e.2 matches .directory _).map Prod.fst

/-- The number of names that no place of the tree exceeds. -/
def height (t : FileTree) : Nat := (t.nodes.map fun e => e.1.length).foldr max 0

theorem mem_directories {t : FileTree} {p : Place} {accessible : Bool} (inner : p ≠ [])
    (h : t.node? p = some (.directory accessible)) : p ∈ t.directories :=
  List.mem_map.mpr
    ⟨(p, .directory accessible), List.mem_filter.mpr ⟨mem_of_node? inner h, rfl⟩, rfl⟩

theorem length_le_height {t : FileTree} {p : Place} {node : Node} (h : t.node? p = some node) :
    p.length ≤ t.height := by
  by_cases inner : p = []
  · rw [inner]
    exact Nat.zero_le _
  · have member : p.length ∈ t.nodes.map fun e => e.1.length :=
      List.mem_map.mpr ⟨(p, node), mem_of_node? inner h, rfl⟩
    rw [height]
    generalize t.nodes.map (fun e => e.1.length) = lengths at member
    induction lengths with
    | nil => exact absurd member List.not_mem_nil
    | cons length lengths ih =>
      rw [List.foldr_cons]
      rcases List.mem_cons.mp member with rfl | member
      · exact Nat.le_max_left _ _
      · exact Nat.le_trans (ih member) (Nat.le_max_right _ _)

/-! ## Looking up paths -/

/-- A step on the way that a path describes. -/
inductive Step where
  /-- Stay in this directory. -/
  | stay
  /-- Go to the parent directory. -/
  | up
  /-- Go to what has this name here. -/
  | down (n : Name)
  /-- Arrive at a directory: what a slash at the end asks for. -/
  | arrive
deriving DecidableEq, Repr

/-- The step that a name in a path stands for. -/
def Step.ofName (n : Name) : Step :=
  if n = Path.hereName then .stay else if n = Path.upName then .up else .down n

/-- The steps that the names in a path stand for. -/
def nameSteps (p : Path) : List Step :=
  ((Path.split p.bytes).filter (!·.isEmpty)).map Step.ofName

/-- The steps of a path. -/
def steps (p : Path) : List Step := nameSteps p ++ if p.endsInSlash then [.arrive] else []

/-- The longest path that can be looked up, in bytes. -/
def maxPath : Nat := 4095

/-- The number of links that may be followed on the way of one path. -/
def maxLinks : Nat := 40

/-- What a step comes to. -/
inductive Landing where
  | place (p : Place)
  /-- A link, which leads on from where the step was made. -/
  | link (target : Path)
deriving DecidableEq, Repr

/-- What a step from `here` comes to. Every step but an arrival, also one that stays or goes up, is
made from a directory that may be passed. -/
def land (t : FileTree) (here : Place) (step : Step) : Except FileError Landing :=
  match t.node? here with
  | some (.directory accessible) =>
    if step = .arrive then .ok (.place here)
    else if !accessible then .error .denied
    else
      match step with
      | .arrive | .stay => .ok (.place here)
      | .up => .ok (.place here.dropLast)
      | .down n =>
        if Name.maxLength < n.length then .error .nameTooLong
        else
          match t.node? (here ++ [n]) with
          | none => .error .missing
          | some (.link target) => .ok (.link target)
          | some _ => .ok (.place (here ++ [n]))
  | _ => .error .notDirectory

/-- The way on from `here`, with `jump` for the links on it. -/
def follow (t : FileTree) (jump : Place → Path → List Step → Except FileError Place) :
    Place → List Step → Except FileError Place
  | here, [] => .ok here
  | here, step :: rest =>
    match t.land here step with
    | .error cause => .error cause
    | .ok (.place p) => t.follow jump p rest
    | .ok (.link target) => jump here target rest

/-- Where the steps lead from `here`, with at most `links` links on the way. -/
def resolve (t : FileTree) : Nat → Place → List Step → Except FileError Place
  | 0 => t.follow fun _ _ _ => .error .tooManyLinks
  | links + 1 => t.follow fun here target rest =>
    if target.bytes.isEmpty then .error .missing
    else t.resolve links (if target.isAbsolute then [] else here) (steps target ++ rest)

/-- The place a path leads to from the working directory `cwd`. -/
def locate (t : FileTree) (cwd : Place) (p : Path) : Except FileError Place :=
  if p.bytes.contains 0 then .error .zeroByte
  else if p.bytes.isEmpty then .error .missing
  else if maxPath < p.bytes.length then .error .nameTooLong
  else t.resolve maxLinks (if p.isAbsolute then [] else cwd) (steps p)

/-- The node a path leads to, which is no link. -/
def stat (t : FileTree) (cwd : Place) (p : Path) : Except FileError Node := do
  match t.node? (← t.locate cwd p) with
  | some node => .ok node
  | none => .error .missing

/-- Is there anything at the path? -/
def exists? (t : FileTree) (cwd : Place) (p : Path) : Bool := (t.locate cwd p).isOk

/-- Does the path lead to a directory? -/
def isDirectory (t : FileTree) (cwd : Place) (p : Path) : Bool :=
  match t.stat cwd p with
  | .ok (.directory _) => true
  | _ => false

/-- The names in the directory that a path leads to. -/
def list (t : FileTree) (cwd : Place) (p : Path) : Except FileError (List Name) := do
  let place ← t.locate cwd p
  match t.node? place with
  | some (.directory true) => .ok (t.names place)
  | some (.directory false) => .error .denied
  | _ => .error .notDirectory

/-- The bytes of the file that a path leads to. -/
def read (t : FileTree) (cwd : Place) (p : Path) : Except FileError (List UInt8) := do
  match ← t.stat cwd p with
  | .file bytes true => .ok bytes
  | .directory true => .error .isDirectory
  | _ => .error .denied

/-- The text of the file that a path leads to. -/
def readText (t : FileTree) (cwd : Place) (p : Path) : Except FileError String := do
  match Text.Utf8.decode? (← t.read cwd p) with
  | some text => .ok text
  | none => .error .brokenText

/-! ## Growing a tree -/

/-- The tree with directories where places on the way to `p` are still free. -/
def openWay (t : FileTree) (p : Place) : FileTree :=
  (((List.range p.length).drop 1).map p.take).foldl
    (fun t q => if (t.node? q).isSome then t else t.insert q (.directory true)) t

/-- The tree with a node at `p` and directories on the way to it. A directory that is there stays. -/
def place (t : FileTree) (p : Place) (node : Node) : FileTree :=
  let t := t.openWay p
  match node, t.node? p with
  | .directory _, some (.directory _) => t
  | _, _ => t.insert p node

/-- The tree in which what is at `p` is no longer accessible. -/
def close (t : FileTree) (p : Place) : FileTree :=
  match t.node? p with
  | some (.file bytes _) => t.insert p (.file bytes false)
  | some (.directory _) => t.insert p (.directory false)
  | _ => t

end FileTree

end RemoteIndex
