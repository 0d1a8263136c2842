import RemoteIndex.Report

/-!
# The command line

The arguments are read from left to right. A value that stands apart from its option is looked at
when the next known argument comes, or at the end; so an argument that is not known is noticed
before it.

Arguments are bytes. The value of an option that is a path may be any, and so may the path of the
project; names of options and the other values are text.
-/

namespace RemoteIndex

/-- An argument, as the system hands it over. -/
structure Argument where
  bytes : List UInt8
deriving DecidableEq, Repr, Inhabited

namespace Argument

/-- The argument that is written so. -/
def ofString (s : String) : Argument := ⟨Text.Utf8.encode s⟩

instance : Coe String Argument := ⟨ofString⟩

/-- The argument as text, if it is that. -/
def text? (a : Argument) : Option String := Text.Utf8.decode? a.bytes

/-- The argument as a path. -/
def path (a : Argument) : Path := ⟨a.bytes⟩

end Argument

/-- Why there is nothing to run. -/
inductive UsageError where
  /-- Help was asked for. -/
  | help
  /-- The version of this command was asked for. -/
  | version (command : String)
  /-- There was no argument at all. -/
  | nothing
  | missingCommand
  | unknownCommand
  | unknownArgument
  /-- An option without a value, or with one that is not among the possible ones. -/
  | impossibleValue
  /-- A value that is no number of the range. -/
  | invalidValue
  /-- A value that is no text where that is asked for. -/
  | brokenValue
  /-- An option given twice. -/
  | repeated
  /-- A value for an option that takes none. -/
  | unneededValue
  | missingPath
deriving DecidableEq, Repr, Inhabited

/-- The exit code of the program. -/
def UsageError.exitCode : UsageError → Nat
  | .help | .version _ => 0
  | _ => 2

/-- What the program is to do. -/
inductive Command where
  /-- Print the index of a project. -/
  | tree (path : Path) (importMap : Option Path) (format : OutputFormat) (jobs : Nat)
    (timeout : Option Nat)
  /-- Print the files that a walk of a project shows. -/
  | files (path : Path)
deriving DecidableEq, Repr, Inhabited

/-- A command line that can be run. -/
structure CommandLine where
  verbose : Bool
  command : Command
deriving DecidableEq, Repr, Inhabited

namespace CommandLine

/-- The name of the program. -/
def programName : String := "remote-deps"

/-- The version of the program. -/
def version : String := "0.1.0"

/-- The commands. -/
inductive Verb where
  | tree
  | files
deriving DecidableEq, Repr, Inhabited

/-- The name of a command. -/
def Verb.name : Verb → String
  | .tree => "tree"
  | .files => "files"

/-- The command of that name. -/
def Verb.ofName? (name : String) : Option Verb := [Verb.tree, .files].find? (·.name == name)

/-- The command that an argument names. -/
def Verb.ofArgument? (a : Argument) : Option Verb := a.text?.bind Verb.ofName?

/-- Flags take no value. -/
inductive Flag where
  | verbose
  | help
  | version
deriving DecidableEq, Repr, Inhabited

/-- Slots take one value each: the options with a value, and the path. -/
inductive Slot where
  | path
  | importMap
  | format
  | jobs
  | timeout
deriving DecidableEq, Repr, Inhabited

/-- The flag with a long name, which every command has. -/
def longFlag? (name : String) : Option Flag :=
  if name = "verbose" then some .verbose
  else if name = "help" then some .help
  else if name = "version" then some .version
  else none

/-- The flag with a short name. -/
def shortFlag? (c : Char) : Option Flag :=
  if c = 'v' then some .verbose
  else if c = 'h' then some .help
  else if c = 'V' then some .version
  else none

/-- The option with a long name. Only the first command has options with values. -/
def longSlot? (verb : Option Verb) (name : String) : Option Slot :=
  if verb ≠ some .tree then none
  else if name = "import-map" then some .importMap
  else if name = "format" then some .format
  else if name = "jobs" then some .jobs
  else if name = "timeout" then some .timeout
  else none

/-- The option with a short name. -/
def shortSlot? (verb : Option Verb) (c : Char) : Option Slot :=
  if verb = some .tree && c = 'j' then some .jobs else none

/-- A number in decimal digits, perhaps behind a plus sign. -/
def number? (s : String) : Option Nat :=
  let digits := match s.toList with
    | '+' :: cs => cs
    | cs => cs
  if !digits.isEmpty && digits.all Char.isDigit then
    some (digits.foldl (fun n c => n * 10 + (c.toNat - '0'.toNat)) 0)
  else none

/-- The largest number of jobs. -/
def maxJobs : Nat := Nat.pow 2 16 - 1

/-- The largest timeout in seconds. -/
def maxTimeout : Nat := Nat.pow 2 64 - 1

/-- What has been read of a command's arguments. -/
structure Values where
  verbose : Bool
  path : Option Path
  importMap : Option Path
  format : Option OutputFormat
  jobs : Option Nat
  timeout : Option Nat
deriving DecidableEq, Repr, Inhabited

namespace Values

/-- Nothing has been read. -/
def blank : Values := ⟨false, none, none, none, none, none⟩

/-- Does the slot have a value? -/
def has (v : Values) : Slot → Bool
  | .path => v.path.isSome
  | .importMap => v.importMap.isSome
  | .format => v.format.isSome
  | .jobs => v.jobs.isSome
  | .timeout => v.timeout.isSome

/-- The values with one more. A slot takes only one. -/
def put (v : Values) (slot : Slot) (a : Argument) : Except UsageError Values :=
  if v.has slot then .error .repeated
  else
    match slot, a.text? with
    | .path, _ =>
      if a.bytes.isEmpty then .error .impossibleValue else .ok { v with path := some a.path }
    | .importMap, _ =>
      if a.bytes.isEmpty then .error .impossibleValue else .ok { v with importMap := some a.path }
    | _, none => .error .brokenValue
    | .format, some s =>
      match OutputFormat.ofName? s with
      | some format => .ok { v with format := some format }
      | none => .error .impossibleValue
    | .jobs, some s =>
      match number? s with
      | some n =>
        if 1 ≤ n && n ≤ maxJobs then .ok { v with jobs := some n } else .error .invalidValue
      | none => .error .invalidValue
    | .timeout, some s =>
      match number? s with
      | some n => if n ≤ maxTimeout then .ok { v with timeout := some n } else .error .invalidValue
      | none => .error .invalidValue

end Values

/-- The byte of `=`. -/
def equalsSign : UInt8 := 0x3D

/-- The byte of `-`. -/
def dash : UInt8 := 0x2D

/-- What is still to be put into a slot. -/
inductive Pending where
  | nothing
  /-- An option whose value has not come yet. -/
  | open (slot : Slot)
  /-- A value that has not been looked at yet. -/
  | value (slot : Slot) (a : Argument)
deriving DecidableEq, Repr, Inhabited

/-- The reader of a command's arguments. -/
structure State where
  values : Values
  pending : Pending
  /-- Has the path come? -/
  pathSeen : Bool
deriving DecidableEq, Repr, Inhabited

namespace State

/-- Nothing has been read. -/
def initial : State := ⟨.blank, .nothing, false⟩

/-- Looks at what is pending. -/
def settle (st : State) : Except UsageError State :=
  match st.pending with
  | .nothing => .ok st
  | .open _ => .error .impossibleValue
  | .value slot a => (st.values.put slot a).map fun values => { st with values, pending := .nothing }

/-- The name that a command shows with its version. -/
def shownName (verb : Option Verb) : String :=
  match verb with
  | none => programName
  | some verb => programName ++ "-" ++ verb.name

/-- Takes a flag. -/
def takeFlag (st : State) (verb : Option Verb) (flag : Flag) : Except UsageError State := do
  let st ← st.settle
  match flag with
  | .help => .error .help
  | .version => .error (.version (shownName verb))
  | .verbose =>
    if st.values.verbose then .error .repeated
    else .ok { st with values := { st.values with verbose := true } }

/-- Takes an option, with the value that is attached to it if there is one. -/
def takeSlot (st : State) (slot : Slot) (attached : Option Argument) :
    Except UsageError State := do
  let st ← st.settle
  match attached with
  | none => .ok { st with pending := .open slot }
  | some a => .ok { st with values := ← st.values.put slot a }

/-- Takes what stands behind two dashes. -/
def takeLong (st : State) (verb : Option Verb) (bytes : List UInt8) : Except UsageError State :=
  let attached : Option Argument :=
    match bytes.dropWhile (· ≠ equalsSign) with
    | [] => none
    | _ :: value => some ⟨value⟩
  match Text.Utf8.decode? (bytes.takeWhile (· ≠ equalsSign)) with
  | none => .error .unknownArgument
  | some name =>
    match longFlag? name, longSlot? verb name with
    | some flag, _ => if attached.isSome then .error .unneededValue else st.takeFlag verb flag
    | none, some slot => st.takeSlot slot attached
    | none, none => .error .unknownArgument

/-- Takes the letters behind one dash. An option's value may follow its letter. All letters that are
known take one byte. -/
def takeShort (st : State) (verb : Option Verb) : List UInt8 → Except UsageError State
  | [] => .ok st
  | b :: bytes =>
    match shortFlag? (Char.ofNat b.toNat), shortSlot? verb (Char.ofNat b.toNat) with
    | some flag, _ =>
      match st.takeFlag verb flag with
      | .error e => .error e
      | .ok st => st.takeShort verb bytes
    | none, some slot =>
      match bytes with
      | [] => st.takeSlot slot none
      | c :: value => st.takeSlot slot (some ⟨if c = equalsSign then value else c :: value⟩)
    | none, none => .error .unknownArgument

/-- Takes an argument that is no option. -/
def takeOther (st : State) (a : Argument) : Except UsageError State :=
  if st.pathSeen then .error .unknownArgument
  else do
    let st ← st.settle
    .ok { st with pending := .value .path a, pathSeen := true }

end State

/-- What an argument looks like. -/
inductive Shape where
  /-- Two dashes: all that follows are no options. -/
  | escape
  | long (bytes : List UInt8)
  | short (bytes : List UInt8)
  | other
deriving DecidableEq, Repr

/-- The shape of an argument. A single dash is no option. -/
def Shape.of (a : Argument) : Shape :=
  match a.bytes with
  | [] => .other
  | [_] => .other
  | b :: c :: rest =>
    if b ≠ dash then .other
    else if c ≠ dash then .short (c :: rest)
    else if rest.isEmpty then .escape
    else .long rest

/-- The command of the values, once all arguments have been read. -/
def Values.command (verb : Verb) (v : Values) : Except UsageError Command :=
  match v.path with
  | none => .error .missingPath
  | some path =>
    match verb with
    | .tree => .ok (.tree path v.importMap (v.format.getD .compact) (v.jobs.getD 1) v.timeout)
    | .files => .ok (.files path)

/-- Reads the arguments of a command; `escaped` behind two dashes. -/
def readCommand (verb : Verb) (verbose : Bool) :
    Bool → State → List Argument → Except UsageError CommandLine
  | _, st, [] => do
    let st ← st.settle
    .ok ⟨verbose || st.values.verbose, ← st.values.command verb⟩
  | true, st, a :: rest =>
    match st.takeOther a with
    | .error e => .error e
    | .ok st => readCommand verb verbose true st rest
  | false, st, a :: rest =>
    let next : Except UsageError (Bool × State) :=
      match Shape.of a, st.pending with
      | .escape, _ => .ok (true, st)
      | .long bytes, _ => (st.takeLong (some verb) bytes).map (false, ·)
      | .short bytes, _ => (st.takeShort (some verb) bytes).map (false, ·)
      | .other, .open slot => .ok (false, { st with pending := .value slot a })
      | .other, _ => (st.takeOther a).map (false, ·)
    match next with
    | .error e => .error e
    | .ok (escaped, st) => readCommand verb verbose escaped st rest

/-- The name of the command that explains the others. -/
def helpName : String := "help"

/-- Reads the arguments of the command that explains the others: the name of one of them. -/
def readHelp : List Argument → UsageError
  | [] => .help
  | name :: rest =>
    if (Verb.ofArgument? name).isNone && name ≠ .ofString helpName then .unknownCommand
    else if rest.isEmpty then .help
    else .unknownCommand

/-- Reads the arguments before the command. `any` says whether there was one. -/
def readProgram : Bool → State → List Argument → Except UsageError CommandLine
  | any, _, [] => .error (if any then .missingCommand else .nothing)
  | any, st, a :: rest =>
    if a = .ofString helpName then .error (readHelp rest)
    else
      match Verb.ofArgument? a with
      | some verb => readCommand verb st.values.verbose false .initial rest
      | none =>
        match Shape.of a with
        | .escape =>
          match rest with
          | [] => .error (if any then .missingCommand else .nothing)
          | b :: _ =>
            .error (if b = .ofString helpName || (Verb.ofArgument? b).isSome then .unknownArgument
              else .unknownCommand)
        | .long bytes =>
          match st.takeLong none bytes with
          | .error e => .error e
          | .ok st => readProgram true st rest
        | .short bytes =>
          match st.takeShort none bytes with
          | .error e => .error e
          | .ok st => readProgram true st rest
        | .other => .error .unknownCommand

/-- Reads the arguments behind the name of the program. -/
def parse (args : List Argument) : Except UsageError CommandLine := readProgram false .initial args

end CommandLine

end RemoteIndex
