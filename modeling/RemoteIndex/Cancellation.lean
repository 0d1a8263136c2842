/-!
# Cancellation

A build looks at a token before every step and ends when the token is cancelled. Tokens come in
families: copies of a token belong to its family, and a family is cancelled as a whole, by hand or
by its deadline.
-/

namespace RemoteIndex

/-- A reading of a clock that does not go back. -/
structure Instant where
  seconds : Int
  nanoseconds : Nat
deriving DecidableEq, Repr, Inhabited

namespace Instant

/-- The latest second that the clock can show. -/
def maxSeconds : Int := Int.pow 2 63 - 1

/-- The reading a number of seconds and nanoseconds later, if the clock can show it. -/
def after? (i : Instant) (seconds : Nat) (nanoseconds : Nat := 0) : Option Instant :=
  let fraction := i.nanoseconds + nanoseconds
  let later : Instant :=
    ⟨i.seconds + seconds + (fraction / 1000000000 : Nat), fraction % 1000000000⟩
  if later.seconds ≤ maxSeconds then some later else none

/-- Is `i` at `j` or before it? -/
def atMost (i j : Instant) : Bool :=
  i.seconds < j.seconds || (i.seconds = j.seconds && i.nanoseconds ≤ j.nanoseconds)

end Instant

/-- What the tokens of a family share. -/
structure CancelFamily where
  cancelled : Bool
  deadline : Option Instant
deriving DecidableEq, Repr, Inhabited

namespace CancelFamily

/-- A family that only a hand can cancel. -/
def new : CancelFamily := ⟨false, none⟩

/-- A family that will be cancelled a number of seconds and nanoseconds from `now`, if the clock
goes that far. -/
def expiring? (now : Instant) (seconds : Nat) (nanoseconds : Nat := 0) : Option CancelFamily :=
  (now.after? seconds nanoseconds).map fun deadline => ⟨false, some deadline⟩

/-- Is the family cancelled at this time? -/
def isCancelled (f : CancelFamily) (now : Instant) : Bool :=
  f.cancelled || f.deadline.any (·.atMost now)

end CancelFamily

/-- What can be done with tokens. -/
inductive CancelAction where
  /-- Makes a token of a new family. -/
  | new
  /-- Makes a token of a new family with a deadline so many seconds and nanoseconds away. -/
  | timeout (seconds : Nat) (nanoseconds : Nat := 0)
  /-- Makes one more token of a token's family. -/
  | copy (token : Nat)
  /-- Cancels a token. -/
  | cancel (token : Nat)
  /-- Looks at the tokens. -/
  | check
deriving DecidableEq, Repr, Inhabited

/-- Tokens, each with the number of its family. -/
structure CancelTokens where
  families : List CancelFamily
  tokens : List Nat
deriving DecidableEq, Repr, Inhabited

namespace CancelTokens

/-- No token yet. -/
def empty : CancelTokens := ⟨[], []⟩

/-- The tokens with the first one of a family behind them. -/
def found (t : CancelTokens) (family : CancelFamily) : CancelTokens :=
  ⟨t.families ++ [family], t.tokens ++ [t.families.length]⟩

/-- The tokens behind an action at the time `now`. There are none if a deadline is further away
than the clock goes. -/
def act (t : CancelTokens) (now : Instant) : CancelAction → Option CancelTokens
  | .new => some (t.found .new)
  | .timeout seconds nanoseconds =>
    (CancelFamily.expiring? now seconds nanoseconds).map t.found
  | .copy token => some { t with tokens := t.tokens ++ t.tokens[token]?.toList }
  | .cancel token =>
    match t.tokens[token]? with
    | none => some t
    | some i =>
      some { t with families := t.families.modify i fun f => { f with cancelled := true } }
  | .check => some t

/-- Is each token cancelled at the time `now`? -/
def states (t : CancelTokens) (now : Instant) : List Bool :=
  t.tokens.map fun i => t.families[i]?.any (·.isCancelled now)

end CancelTokens

end RemoteIndex
