import RemoteIndex.Proofs.Commands
import RemoteIndex.Proofs.Families

/-!
# Deadlines

A timeout is a number of seconds below two to the sixty-fourth, and a deadline is that many seconds
from the reading of the clock that it was asked for at. The clock ends before such numbers do. Up to
its end a deadline comes exactly when the seconds have passed; beyond there is none, and the program
breaks off at once.
-/

namespace RemoteIndex

namespace Instant

variable {i j d : Instant} {seconds nanoseconds : Nat}

/-! ## Time in nanoseconds -/

/-- The time of a reading in nanoseconds, from where its seconds are counted. -/
def total (i : Instant) : Int := i.seconds * 1000000000 + i.nanoseconds

/-- A reading has less than a second besides the whole ones. -/
def IsReading (i : Instant) : Prop := i.nanoseconds < 1000000000

theorem atMost_iff_total (first : i.IsReading) (second : j.IsReading) :
    i.atMost j = true ↔ i.total ≤ j.total := by
  unfold IsReading at first second
  unfold total
  rw [atMost_iff]
  omega

/-- A time later is a reading again, exactly that much later. -/
theorem of_after?_eq_some (h : i.after? seconds nanoseconds = some d) :
    d.IsReading ∧ d.total = i.total + seconds * 1000000000 + nanoseconds := by
  unfold after? at h
  extract_lets fraction later at h
  split at h
  · obtain rfl := Option.some.inj h
    unfold IsReading total
    show fraction % 1000000000 < 1000000000 ∧ _
    refine ⟨Nat.mod_lt fraction (by decide), ?_⟩
    show (i.seconds + seconds + (fraction / 1000000000 : Nat)) * 1000000000 +
      (fraction % 1000000000 : Nat) = _
    omega
  · exact absurd h (by simp)

/-- A number of seconds later is no time if and only if it is behind the last second. -/
theorem after?_eq_none (h : i.IsReading) :
    i.after? seconds = none ↔ maxSeconds < i.seconds + seconds := by
  have whole : (i.nanoseconds + 0) / 1000000000 = 0 := Nat.div_eq_of_lt h
  unfold after?
  extract_lets fraction later
  have second : later.seconds = i.seconds + seconds := by
    show i.seconds + seconds + (fraction / 1000000000 : Nat) = _
    omega
  rw [second]
  by_cases shown : i.seconds + seconds ≤ maxSeconds
  · rw [if_pos shown]
    simp only [reduceCtorEq, false_iff]
    omega
  · rw [if_neg shown]
    simp only [true_iff]
    omega

end Instant

/-! ## Tokens with a deadline -/

namespace CancelFamily

variable {f : CancelFamily} {now later : Instant} {seconds nanoseconds : Nat}

/-- A family with a deadline is cancelled from when its time has passed, and not before. -/
theorem isCancelled_of_expiring? (made : expiring? now seconds nanoseconds = some f)
    (reading : later.IsReading) :
    f.isCancelled later = true ↔
      now.total + seconds * 1000000000 + nanoseconds ≤ later.total := by
  unfold expiring? at made
  obtain ⟨deadline, found, rfl⟩ := Option.map_eq_some_iff.mp made
  obtain ⟨timely, total⟩ := Instant.of_after?_eq_some found
  unfold isCancelled
  rw [Bool.false_or, Option.any_some, Instant.atMost_iff_total timely reading, total]

theorem expiring?_eq_none (h : now.IsReading) :
    expiring? now seconds = none ↔ Instant.maxSeconds < now.seconds + seconds := by
  unfold expiring?
  rw [Option.map_eq_none_iff, Instant.after?_eq_none h]

end CancelFamily

/-! ## Timeouts that are accepted -/

namespace CommandLine

variable {n : Nat}

theorem toList_toString (n : Nat) : (toString n).toList = Nat.toDigits 10 n := by
  rw [Nat.toString_eq_ofList_toDigits, String.toList_ofList]

/-- A number written out begins with a digit. -/
theorem exists_toDigits (n : Nat) :
    ∃ c cs, Nat.toDigits 10 n = c :: cs ∧ c.isDigit = true := by
  obtain ⟨c, cs, digits⟩ := List.exists_cons_of_ne_nil (Nat.toDigits_ne_nil (b := 10) (n := n))
  exact ⟨c, cs, digits,
    Nat.isDigit_of_mem_toDigits (by decide) (by decide) (digits ▸ List.mem_cons_self)⟩

/-- A digit takes up one byte, which is not that of a dash. -/
theorem utf8EncodeChar_of_isDigit {c : Char} (digit : c.isDigit = true) :
    ∃ b, String.utf8EncodeChar c = [b] ∧ b ≠ dash := by
  have table : ∀ n < 58, (Char.ofNat n).isDigit = true →
      String.utf8EncodeChar (Char.ofNat n) = [n.toUInt8] ∧ n.toUInt8 ≠ dash := by
    decide +kernel
  have small : c.toNat < 58 := by
    simp only [Char.isDigit, Bool.and_eq_true, decide_eq_true_eq] at digit
    exact Nat.lt_succ_of_le (UInt32.le_iff_toNat_le.mp digit.2)
  have entry := table c.toNat small
  rw [Char.ofNat_toNat] at entry
  exact ⟨_, entry digit⟩

/-- A number written out is read as that number. -/
theorem number?_toString (n : Nat) : number? (toString n) = some n := by
  have all : (Nat.toDigits 10 n).all Char.isDigit = true :=
    List.all_eq_true.mpr fun c member =>
      Nat.isDigit_of_mem_toDigits (by decide) (by decide) member
  have value : (Nat.toDigits 10 n).foldl (fun n c => n * 10 + (c.toNat - '0'.toNat)) 0 = n := by
    have read := Nat.ofDigitChars_ten_toDigits (n := n)
    unfold Nat.ofDigitChars at read
    simpa only [Nat.mul_comm] using read
  obtain ⟨c, cs, digits, digit⟩ := exists_toDigits n
  have plus : c ≠ '+' := by
    rintro rfl
    exact absurd digit (by decide)
  unfold number?
  rw [toList_toString]
  extract_lets unsigned
  have same : unsigned = Nat.toDigits 10 n := by
    unfold unsigned
    rw [digits]
    split
    · next first => exact absurd (List.cons.inj first).1 plus
    · rfl
  have given : (Nat.toDigits 10 n).isEmpty = false := by rw [digits, List.isEmpty_cons]
  rw [same, all, value, given]
  rfl

theorem shape_toString (n : Nat) : Shape.of (toString n) = .other := by
  obtain ⟨c, cs, digits, digit⟩ := exists_toDigits n
  obtain ⟨b, byte, other⟩ := utf8EncodeChar_of_isDigit digit
  have bytes : (Argument.ofString (toString n)).bytes =
      b :: cs.flatMap String.utf8EncodeChar := by
    rw [Argument.ofString, ← String.ofList_toList (s := toString n), toList_toString, digits,
      Text.Utf8.encode_ofList, List.flatMap_cons, byte, List.singleton_append]
  rw [Shape.of, bytes]
  cases cs.flatMap String.utf8EncodeChar with
  | nil => rfl
  | cons _ _ => exact if_pos other

theorem text?_toString (n : Nat) : (Argument.ofString (toString n)).text? = some (toString n) :=
  Text.Utf8.decode?_encode _

/-- Every number of seconds in the range is taken as a timeout. -/
theorem parse_timeout (fits : n ≤ maxTimeout) :
    parse ["tree", "--timeout", toString n, "."] =
      .ok ⟨false, .tree (.ofString ".") none .compact 1 (some n)⟩ := by
  have opened : parse ["tree", "--timeout", toString n, "."] =
      readCommand .tree false false ⟨.blank, .open .timeout, false⟩ [toString n, "."] := rfl
  have put : Values.blank.put .timeout (toString n) =
      .ok ⟨false, none, none, none, none, some n⟩ := by
    unfold Values.put
    simp only [text?_toString, number?_toString, fits, if_true]
    rfl
  have settled : State.settle ⟨.blank, .value .timeout (toString n), false⟩ =
      .ok ⟨⟨false, none, none, none, none, some n⟩, .nothing, false⟩ := by
    show Except.map _ (Values.blank.put .timeout (toString n)) = _
    rw [put]
    rfl
  have taken : State.takeOther ⟨.blank, .value .timeout (toString n), false⟩ "." =
      .ok ⟨⟨false, none, none, none, none, some n⟩, .value .path ".", true⟩ := by
    unfold State.takeOther
    rw [settled]
    rfl
  have dot : Shape.of "." = .other := rfl
  rw [opened, readCommand, shape_toString]
  show readCommand .tree false false ⟨.blank, .value .timeout (toString n), false⟩ ["."] = _
  rw [readCommand, dot]
  dsimp only
  rw [taken]
  rfl

end CommandLine

/-! ## Builds with a timeout -/

namespace Program

open Build

variable {s : Surroundings} {root : Path} {importMap : Option Path} {format : OutputFormat}
  {jobs n look : Nat} {family : CancelFamily} {p : Plan}

/-- The seconds have passed since the first reading of the clock when a token is looked at. -/
def Expired (s : Surroundings) (n look : Nat) : Prop :=
  (s.clock 0).total + n * 1000000000 ≤ (s.clock (look + 1)).total

theorem answers_eq_true (granted : family? s (some n) = some family)
    (reading : (s.clock (look + 1)).IsReading) :
    answers s family look = true ↔ Expired s n look := by
  unfold answers
  rw [CancelFamily.isCancelled_of_expiring? granted reading]
  unfold Expired
  omega

/-- A build with a timeout is broken off when a look at the token comes too late. -/
theorem tree_of_expired (granted : family? s (some n) = some family)
    (readings : ∀ look, (s.clock look).IsReading)
    (begun : plan? s.tree s.cwd (request s root importMap jobs) = .ok p)
    (late : ∃ look < p.looks s.pool, Expired s n look) :
    tree s root importMap format jobs (some n) =
      .failed ("failed to build dependency tree for " ++ root.display)
        [BuildError.cancelled.message] := by
  obtain ⟨look, inside, expired⟩ := late
  have stopped : (List.range (p.looks s.pool)).any (answers s family) = true := by
    apply List.any_eq_true.mpr
    exact ⟨look, List.mem_range.mpr inside, (answers_eq_true granted (readings _)).mpr expired⟩
  rw [tree_of_granted granted, run_eq, begun]
  simp only [stopped, verdict_true]
  rfl

/-- A build with a timeout that does not come is a build without one. -/
theorem tree_of_not_expired (granted : family? s (some n) = some family)
    (readings : ∀ look, (s.clock look).IsReading)
    (begun : plan? s.tree s.cwd (request s root importMap jobs) = .ok p)
    (early : ∀ look < p.looks s.pool, ¬Expired s n look) :
    tree s root importMap format jobs (some n) = tree s root importMap format jobs none := by
  have onward : (List.range (p.looks s.pool)).any (answers s family) = false := by
    apply List.any_eq_false.mpr
    intro look inside answered
    exact early look (List.mem_range.mp inside) ((answers_eq_true granted (readings _)).mp answered)
  have never : build s root importMap jobs = p.whole s.pool := run_of_never begun s.pool
  rw [tree_of_granted granted, run_eq, begun, tree_eq, never]
  simp only [onward, verdict_false]

/-- All numbers below two to the sixty-fourth are accepted as timeouts. If the clock ends before so
many seconds have passed, nothing is built: the program breaks off where the deadline is worked out.
Otherwise the token is cancelled from the moment when the seconds have passed and not before. Then
the build fails if the token is looked at after that, and goes as it would without a timeout if
not. -/
theorem run_with_timeout (s : Surroundings) (readings : ∀ look, (s.clock look).IsReading) :
    (∀ n ≤ CommandLine.maxTimeout, CommandLine.parse ["tree", "--timeout", toString n, "."] =
      .ok ⟨false, .tree (.ofString ".") none .compact 1 (some n)⟩) ∧
    ∀ args verbose path importMap format jobs (n : Nat),
      CommandLine.parse args = .ok ⟨verbose, .tree path importMap format jobs (some n)⟩ →
      ∃ root, Path.absolute? s.cwd.path path = some root ∧
        (Instant.maxSeconds < (s.clock 0).seconds + n →
          (run s args).exitCode = 101 ∧ (run s args).stdout = "") ∧
        ((s.clock 0).seconds + n ≤ Instant.maxSeconds →
          ∃ family, family? s (some n) = some family ∧
            (∀ look, answers s family look = true ↔ Expired s n look) ∧
            ∀ p, plan? s.tree s.cwd (request s root importMap jobs) = .ok p →
              ((∃ look < p.looks s.pool, Expired s n look) →
                run s args = .failed ("failed to build dependency tree for " ++ root.display)
                  [BuildError.cancelled.message]) ∧
              ((∀ look < p.looks s.pool, ¬Expired s n look) →
                run s args = tree s root importMap format jobs none)) := by
  refine ⟨fun n => CommandLine.parse_timeout, ?_⟩
  intro args verbose path importMap format jobs n parsed
  obtain ⟨root, absolute⟩ :=
    Path.exists_absolute? s.cwd.path (CommandLine.path_ne_nil_of_parse parsed)
  have absolute : Path.absolute? s.cwd.path path = some root := absolute
  have refused : family? s (some n) = none ↔ Instant.maxSeconds < (s.clock 0).seconds + n :=
    CancelFamily.expiring?_eq_none (readings 0)
  rw [run_eq_tree parsed absolute]
  refine ⟨root, absolute, ?_, ?_⟩
  · intro beyond
    rw [tree_of_refused (refused.mpr beyond)]
    exact ⟨rfl, rfl⟩
  · intro shown
    cases granted : family? s (some n) with
    | none => exact absurd (refused.mp granted) (by omega)
    | some family =>
      refine ⟨family, rfl, fun look => answers_eq_true granted (readings _), ?_⟩
      intro p begun
      exact ⟨tree_of_expired granted readings begun, tree_of_not_expired granted readings begun⟩

/-- The clock is a nanosecond before three seconds at the first look, and there at the second. -/
def hurried : Surroundings :=
  { twins with clock := fun look =>
      match look with
      | 0 => ⟨5, 500⟩
      | 1 => ⟨8, 499⟩
      | _ => ⟨8, 500⟩ }

theorem run_with_timeout_hurried :
    (∀ look, (hurried.clock look).IsReading) ∧
    CommandLine.parse ["tree", "-j2", "--timeout=3", "/p"] =
      .ok ⟨false, .tree (.ofString "/p") none .compact 2 (some 3)⟩ ∧
    (∃ family, family? hurried (some 3) = some family ∧
      answers hurried family 0 = false ∧ answers hurried family 1 = true) ∧
    run hurried ["tree", "-j2", "--timeout=3", "/p"] =
      .failed "failed to build dependency tree for /p" ["index build was cancelled"] := by
  have readings : ∀ look, (hurried.clock look).IsReading := by
    intro look
    unfold Instant.IsReading hurried
    dsimp only
    split <;> decide
  have parsed : CommandLine.parse ["tree", "-j2", "--timeout=3", "/p"] =
      .ok ⟨false, .tree (.ofString "/p") none .compact 2 (some 3)⟩ := by decide +kernel
  have known : Path.absolute? hurried.cwd.path (.ofString "/p") = some (.ofString "/p") := by
    decide +kernel
  have asked : request hurried (.ofString "/p") none 2 = twinRequest := by decide +kernel
  have begun : plan? hurried.tree hurried.cwd (request hurried (.ofString "/p") none 2) =
      .ok ⟨.empty, twinWalk, [], 2⟩ := asked ▸ plan?_twinRequest
  have looks : Plan.looks ⟨.empty, twinWalk, [], 2⟩ hurried.pool = 4 := by
    unfold Plan.looks
    rw [items_twinWalk]
    rfl
  obtain ⟨-, runs⟩ := run_with_timeout hurried readings
  obtain ⟨root, absolute, -, inTime⟩ := runs _ _ _ _ _ _ _ parsed
  obtain rfl := Option.some.inj (known.symm.trans absolute)
  obtain ⟨family, granted, tells, ends⟩ := inTime (by decide)
  have early : ¬Expired hurried 3 0 := by unfold Expired; decide
  have late : Expired hurried 3 1 := by unfold Expired; decide
  refine ⟨readings, parsed, ⟨family, granted, ?_, (tells 1).mpr late⟩, ?_⟩
  · exact Bool.eq_false_iff.mpr fun answered => early ((tells 0).mp answered)
  · exact (ends _ begun).1 ⟨1, by rw [looks]; decide, late⟩

/-- The largest timeout that is accepted is of no use, even when the clock has just begun. -/
theorem exists_timeout_beyond_the_clock :
    CommandLine.parse ["tree", "--timeout", "18446744073709551615", "/p"] =
      .ok ⟨false, .tree (.ofString "/p") none .compact 1 (some 18446744073709551615)⟩ ∧
    twins.clock 0 = ⟨0, 0⟩ ∧ family? twins (some 18446744073709551615) = none ∧
    (run twins ["tree", "--timeout", "18446744073709551615", "/p"]).exitCode = 101 := by
  decide +kernel

end Program

end RemoteIndex
