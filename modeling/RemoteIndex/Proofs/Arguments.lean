import RemoteIndex.CommandLine

/-!
# What the arguments give

A command that can be run has a path, and the path is not empty: an empty value is refused when it
is put into its slot, and values reach their slots in no other way.
-/

namespace RemoteIndex

/-- The path of the project that a command is about. -/
def Command.path : Command → Path
  | .tree path _ _ _ _ => path
  | .files path => path

namespace CommandLine

/-- If there is a result, it has the property. -/
def Yields {α : Type} (P : α → Prop) : Except UsageError α → Prop
  | .ok a => P a
  | .error _ => True

section Yields

variable {α β : Type} {P : α → Prop} {Q : β → Prop} {x : Except UsageError α}

theorem Yields.bind {f : α → Except UsageError β} (h : Yields P x)
    (next : ∀ a, P a → Yields Q (f a)) : Yields Q (x >>= f) := by
  cases x with
  | ok a => exact next a h
  | error e => trivial

theorem Yields.map {f : α → β} (h : Yields P x) (next : ∀ a, P a → Q (f a)) :
    Yields Q (x.map f) := by
  cases x with
  | ok a => exact next a h
  | error e => trivial

theorem Yields.of_eq_ok {a : α} (h : Yields P x) (result : x = .ok a) : P a := by
  subst result
  exact h

end Yields

/-- A path that has been read is not empty. -/
def Values.Sound (v : Values) : Prop := ∀ path, v.path = some path → path.bytes ≠ []

theorem Values.Sound.put {v : Values} (h : v.Sound) (slot : Slot) (a : Argument) :
    Yields Values.Sound (v.put slot a) := by
  unfold Values.put
  split
  · trivial
  · split
    · split
      · trivial
      · next filled =>
        intro path given
        obtain rfl := Option.some.inj given
        exact fun empty => filled (List.isEmpty_iff.mpr empty)
    · split
      · trivial
      · exact h
    · trivial
    · split
      · exact h
      · trivial
    · split
      · split
        · exact h
        · trivial
      · trivial
    · split
      · split
        · exact h
        · trivial
      · trivial

namespace State

/-- What has been read so far is sound. -/
def Sound (st : State) : Prop := st.values.Sound

variable {st : State}

theorem Sound.settle (h : st.Sound) : Yields Sound st.settle := by
  rw [State.settle]
  split
  · exact h
  · trivial
  · exact (Values.Sound.put h _ _).map fun _ sound => sound

theorem Sound.takeFlag (h : st.Sound) (verb : Option Verb) (flag : Flag) :
    Yields Sound (st.takeFlag verb flag) := by
  refine h.settle.bind fun st h => ?_
  cases flag with
  | help => trivial
  | version => trivial
  | verbose =>
    dsimp only
    split
    · trivial
    · exact h

theorem Sound.takeSlot (h : st.Sound) (slot : Slot) (attached : Option Argument) :
    Yields Sound (st.takeSlot slot attached) := by
  refine h.settle.bind fun st h => ?_
  cases attached with
  | none => exact h
  | some a => exact (Values.Sound.put h slot a).bind fun _ sound => sound

theorem Sound.takeLong (h : st.Sound) (verb : Option Verb) (bytes : List UInt8) :
    Yields Sound (st.takeLong verb bytes) := by
  unfold State.takeLong
  extract_lets attached
  split
  · trivial
  · split
    · split
      · trivial
      · exact h.takeFlag verb _
    · exact h.takeSlot _ _
    · trivial

theorem Sound.takeShort (h : st.Sound) (verb : Option Verb) (bytes : List UInt8) :
    Yields Sound (st.takeShort verb bytes) := by
  induction bytes generalizing st with
  | nil => exact h
  | cons b bytes ih =>
    rw [State.takeShort]
    split
    · next flag _ =>
      have taken := h.takeFlag verb flag
      split
      · trivial
      · next st' result => exact ih (taken.of_eq_ok result)
    · split
      · exact h.takeSlot _ _
      · exact h.takeSlot _ _
    · trivial

theorem Sound.takeOther (h : st.Sound) (a : Argument) : Yields Sound (st.takeOther a) := by
  rw [State.takeOther]
  split
  · trivial
  · exact h.settle.bind fun st h => h

end State

theorem Values.Sound.command {v : Values} (h : v.Sound) (verb : Verb) :
    Yields (fun command => command.path.bytes ≠ []) (v.command verb) := by
  rw [Values.command]
  split
  · trivial
  · next path given =>
    have filled := h path given
    cases verb with
    | tree => exact filled
    | files => exact filled

theorem sound_readCommand {st : State} (h : st.Sound) (verb : Verb) (verbose escaped : Bool)
    (args : List Argument) :
    Yields (fun line => line.command.path.bytes ≠ []) (readCommand verb verbose escaped st args) := by
  induction args generalizing st escaped with
  | nil =>
    have done : Yields (fun line => line.command.path.bytes ≠ []) (do
        let st ← st.settle
        .ok (CommandLine.mk (verbose || st.values.verbose) (← st.values.command verb))) :=
      h.settle.bind fun st h => (Values.Sound.command h verb).bind fun _ filled => filled
    cases escaped with
    | true => exact done
    | false => exact done
  | cons a rest ih =>
    cases escaped with
    | true =>
      have taken := h.takeOther a
      rw [readCommand]
      split
      · trivial
      · next st' result => exact ih (taken.of_eq_ok result) true
    | false =>
      have kept {x : Except UsageError State} (h : Yields State.Sound x) :
          Yields (fun next : Bool × State => next.2.Sound) (x.map (false, ·)) :=
        h.map fun _ sound => sound
      rw [readCommand]
      split
      · trivial
      · next escaped' st' result =>
        refine ih ?_ escaped'
        split at result
        · cases result
          exact h
        · exact (kept (h.takeLong _ _)).of_eq_ok result
        · exact (kept (h.takeShort _ _)).of_eq_ok result
        · cases result
          exact h
        · exact (kept (h.takeOther a)).of_eq_ok result

theorem sound_initial : State.Sound .initial := nofun

theorem sound_readProgram (any : Bool) (st : State) (args : List Argument) :
    Yields (fun line => line.command.path.bytes ≠ []) (readProgram any st args) := by
  induction args generalizing any st with
  | nil => trivial
  | cons a rest ih =>
    unfold readProgram
    split
    · trivial
    · split
      · exact sound_readCommand sound_initial _ _ _ _
      · split
        · split
          · trivial
          · trivial
        · split
          · trivial
          · exact ih _ _
        · split
          · trivial
          · exact ih _ _
        · trivial

/-- The path of a command that can be run is not empty. -/
theorem path_ne_nil_of_parse {args : List Argument} {line : CommandLine}
    (parsed : parse args = .ok line) : line.command.path.bytes ≠ [] :=
  (sound_readProgram false .initial args).of_eq_ok parsed

end CommandLine

end RemoteIndex
