/-!
# Tables over the code points

A property of code points is constant on long runs of them. `Runs` keeps one entry per run and
finds the run of a code point by bisection. The tables of this library are written down as texts,
one word per run, with the run's length in hexadecimal.
-/

namespace RemoteIndex.Text

/-- A function on code points, given by the first code point of each run and its value there. -/
structure Runs (α : Type) where
  entries : Array (Nat × α)

namespace Runs

variable {α : Type}

/-- The value of the last entry between `lo` and `hi` that does not begin behind `n`. -/
def search (entries : Array (Nat × α)) (n lo hi : Nat) : Option α :=
  if hi ≤ lo + 1 then entries[lo]?.map Prod.snd
  else
    let middle := (lo + hi) / 2
    match entries[middle]? with
    | none => none
    | some (first, _) =>
      if first ≤ n then search entries n middle hi else search entries n lo middle
termination_by hi - lo

/-- The value at a code point. -/
def value? (t : Runs α) (n : Nat) : Option α := search t.entries n 0 t.entries.size

/-- The table with runs of the given lengths, one behind the other from zero on. -/
def ofLengths (runs : List (Nat × α)) : Runs α :=
  ⟨(runs.foldl (fun (first, entries) (length, value) => (first + length, entries.push (first, value)))
    (0, #[])).2⟩

end Runs

/-- The value of a hexadecimal digit; other characters count as zero. -/
def hexValue (c : Char) : Nat :=
  if '0' ≤ c ∧ c ≤ '9' then c.toNat - '0'.toNat
  else if 'a' ≤ c ∧ c ≤ 'f' then c.toNat - 'a'.toNat + 10
  else if 'A' ≤ c ∧ c ≤ 'F' then c.toNat - 'A'.toNat + 10
  else 0

/-- The number with the given hexadecimal digits. -/
def hexNumber (digits : List Char) : Nat :=
  digits.foldl (fun n c => n * 16 + hexValue c) 0

/-- The pieces of `cs` between the occurrences of `separator`. -/
def pieces (separator : Char) : List Char → List (List Char)
  | [] => [[]]
  | c :: cs =>
    if c = separator then [] :: pieces separator cs
    else
      match pieces separator cs with
      | [] => [[c]]
      | piece :: rest => (c :: piece) :: rest

/-- The words of a text: its pieces between blanks and ends of lines. -/
def words (source : String) : List (List Char) :=
  (pieces ' ' (source.toList.map fun c => if c = '\n' then ' ' else c)).filter (!·.isEmpty)

/-- A table of yes and no in turn, beginning with no. -/
def Runs.ofFlags (source : String) : Runs Bool :=
  ofLengths (((words source).map hexNumber).zip ((words source).mapIdx fun i _ => i % 2 = 1))

/-- A table whose runs are written as a letter and a length. -/
def Runs.ofLetters {α : Type} (value : Char → α) (source : String) : Runs α :=
  ofLengths ((words source).filterMap fun word =>
    match word with
    | [] => none
    | letter :: digits => some (hexNumber digits, value letter))

/-- Membership in the set that a table of yes and no describes. -/
def Runs.has (t : Runs Bool) (c : Char) : Bool := (t.value? c.toNat).getD false

end RemoteIndex.Text
