import RemoteIndex.Text.Quoted

/-!
# Paths

A path is a byte sequence that slashes cut into names. It is kept as it was written, because
messages show it so; comparing, cleaning and anchoring go by its components instead, in which
repeated slashes and `.` names do not count.
-/

namespace RemoteIndex

/-- The name of a file in its directory: bytes, none of which is a slash. -/
abbrev Name := List UInt8

namespace Name

/-- The name with the given text. -/
def ofString (s : String) : Name := Text.Utf8.encode s

/-- The text of a name that is UTF-8. -/
def text? (n : Name) : Option String := Text.Utf8.decode? n

/-- Names are ordered by their bytes. -/
def atMost (a b : Name) : Bool := decide (a ≤ b)

end Name

/-- A path as it was written. -/
structure Path where
  bytes : List UInt8
deriving DecidableEq, Repr, Inhabited, BEq

namespace Path

/-- The byte between two names. -/
def slash : UInt8 := 0x2F

/-- The name of a directory in itself, `.`. -/
def hereName : Name := [0x2E]

/-- The name of the parent of a directory, `..`. -/
def upName : Name := [0x2E, 0x2E]

end Path

/-- The longest name a directory can hold, in bytes. -/
def Name.maxLength : Nat := 255

/-- A name that an entry of a directory can have. -/
structure Name.Proper (n : Name) : Prop where
  nonempty : n ≠ []
  undivided : Path.slash ∉ n
  unbroken : 0 ∉ n
  not_here : n ≠ Path.hereName
  not_up : n ≠ Path.upName
  short : n.length ≤ Name.maxLength

instance (n : Name) : Decidable n.Proper :=
  decidable_of_iff
    (n ≠ [] ∧ Path.slash ∉ n ∧ 0 ∉ n ∧ n ≠ Path.hereName ∧ n ≠ Path.upName ∧
      n.length ≤ Name.maxLength)
    ⟨fun ⟨a, b, c, d, e, f⟩ => ⟨a, b, c, d, e, f⟩, fun ⟨a, b, c, d, e, f⟩ => ⟨a, b, c, d, e, f⟩⟩

namespace Path

/-- What a component of a path asks for. -/
inductive Component where
  /-- The slash that an absolute path begins with. -/
  | root
  /-- The `.` that a relative path may begin with. -/
  | here
  /-- The name `..`. -/
  | up
  /-- Any other name. -/
  | name (n : Name)
deriving DecidableEq, Repr, Inhabited

/-- The path with the given text. -/
def ofString (s : String) : Path := ⟨Text.Utf8.encode s⟩

/-- The text of the path, with a replacement character for what is not UTF-8. -/
def display (p : Path) : String := Text.Utf8.decodeLossy p.bytes

/-- The path between quotes. -/
def quote (p : Path) : String := Text.quoteBytes p.bytes

/-- The stretches of bytes between the slashes. There is always at least one. -/
def split : List UInt8 → List Name
  | [] => [[]]
  | b :: bs =>
    if b = slash then [] :: split bs
    else
      match split bs with
      | [] => [[b]]
      | n :: ns => (b :: n) :: ns

/-- The bytes of stretches with slashes between them. -/
def unsplit : List Name → List UInt8
  | [] => []
  | [n] => n
  | n :: m :: ns => n ++ slash :: unsplit (m :: ns)

/-- Does the path begin at the root of the file tree? -/
def isAbsolute (p : Path) : Bool := p.bytes.head? == some slash

/-- Does the path end in a slash? -/
def endsInSlash (p : Path) : Bool := p.bytes.getLast? == some slash

/-- Stretches that name nothing new: nothing between two slashes, or `.`. -/
def isIdle (n : Name) : Bool := n.isEmpty || n == hereName

/-- The component a name stands for, at any place but the first. -/
def Component.ofName? (n : Name) : Option Component :=
  if isIdle n then none else if n = upName then some .up else some (.name n)

/-- The components of a path. -/
def components (p : Path) : List Component :=
  match split p.bytes with
  | [] => []
  | n :: ns =>
    let rest := ns.filterMap Component.ofName?
    if p.isAbsolute then .root :: rest
    else if n = hereName then .here :: rest
    else (Component.ofName? n).toList ++ rest

/-- `q` as seen from `p`: an absolute path stays what it is. -/
def join (p q : Path) : Path :=
  if q.isAbsolute then q
  else if p.bytes.isEmpty || p.endsInSlash then ⟨p.bytes ++ q.bytes⟩
  else ⟨p.bytes ++ slash :: q.bytes⟩

/-- The path with names added at its end. -/
def extend (p : Path) (names : List Name) : Path := names.foldl (fun p n => p.join ⟨n⟩) p

/-- A component as a path. -/
def Component.path : Component → Path
  | .root => ⟨[slash]⟩
  | .here => ⟨hereName⟩
  | .up => ⟨upName⟩
  | .name n => ⟨n⟩

/-- The path with the given components. -/
def ofComponents (cs : List Component) : Path := cs.foldl (fun p c => p.join c.path) ⟨[]⟩

/-- The path of the directory that the last name of `p` is in. The root and the empty path have
none. -/
def parent? (p : Path) : Option Path :=
  match p.components.getLast? with
  | none | some .root => none
  | some _ => some (ofComponents p.components.dropLast)

/-- One more component behind the components of a clean path, given with the last one first: `..`
takes a name away, or stays where there is none to take. -/
def Component.settle (done : List Component) (c : Component) : List Component :=
  match c, done with
  | .here, done => done
  | .up, .root :: done => .root :: done
  | .up, .name _ :: done => done
  | c, done => c :: done

/-- The path without `.` and without any `..` that has a name before it; `.` if nothing is left. -/
def clean (p : Path) : Path :=
  match (p.components.foldl Component.settle []).reverse with
  | [] => ⟨hereName⟩
  | cs => ofComponents cs

/-- The path from the root that `p` stands for in the working directory `cwd`. Names `..` stay, and
so do a slash at the end and a pair of slashes at the beginning. The empty path stands for
nothing. -/
def absolute? (cwd p : Path) : Option Path :=
  if p.bytes.isEmpty then none
  else
    let start : Path :=
      if !p.isAbsolute then cwd
      else
        match split p.bytes with
        | [] :: [] :: n :: ns => if n.isEmpty && !ns.isEmpty then ⟨[slash]⟩ else ⟨[slash, slash]⟩
        | _ => ⟨[slash]⟩
    let names := p.components.filter fun c => c != .root && c != .here
    let whole := names.foldl (fun q c => q.join c.path) start
    some (if p.endsInSlash then whole.join ⟨[]⟩ else whole)

/-- What is left of the stretches of a path behind the given components. -/
def behind? : List Component → List Name → Option (List Name)
  | [], ns => some ns
  | _ :: _, [] => none
  | c :: cs, n :: ns =>
    match Component.ofName? n with
    | none => behind? (c :: cs) ns
    | some d => if d = c then behind? cs ns else none

/-- The part of `p` below `base`, if the components of `p` begin with those of `base`. -/
def below? (p base : Path) : Option Path :=
  let trimEnd (ns : List Name) : List Name := (ns.reverse.dropWhile isIdle).reverse
  let trim (ns : List Name) : Path := ⟨unsplit (trimEnd (ns.dropWhile isIdle))⟩
  match base.components, split p.bytes with
  | [], ns =>
    match ns with
    | [] => some p
    | n :: ns =>
      match trimEnd ns with
      | [] => some (if p.isAbsolute then ⟨[slash]⟩ else ⟨n⟩)
      | rest => some ⟨unsplit (n :: rest)⟩
  | c :: cs, ns =>
    match c with
    | .root => if p.isAbsolute then (behind? cs ns).map trim else none
    | .here => if p.isAbsolute || ns.head? != some hereName then none else (behind? cs ns).map trim
    | c => if p.isAbsolute || ns.head? == some hereName then none else (behind? (c :: cs) ns).map trim

/-- `p` as seen from `base`, or in full where it is not below `base`. -/
def relativeTo (p base : Path) : Path := (p.below? base).getD p

end Path

end RemoteIndex
