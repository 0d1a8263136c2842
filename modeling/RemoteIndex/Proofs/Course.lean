import Mathlib.Data.List.Induction
import RemoteIndex.Proofs.Scan

/-!
# The course of a build

A build as a system that takes steps. With one job it looks at the token, scans and absorbs, item
after item. With more it first goes through the walk to its end, with a look at every item, and lays
the items out, unless the workers cannot be started; then workers take them up, in any order and
several at a time. A worker looks at the token before it scans its item, and puts what became of the
item into the item's own place. Once an item was refused, others may be left lying.

A course is a sequence of steps, together with what the looks told. Whatever course a build takes,
`Sound` holds all along it, so the answers settle the result, once it is known whether there are
workers; and no course goes on for ever or gets stuck.
-/

namespace RemoteIndex.Build

/-- How far the workers are with an item. -/
inductive Stage where
  | waiting
  /-- A worker has looked at the token, and scans the item now. -/
  | taken
  | scanned (outcome : FileOutcome)
  /-- A worker was told to stop when it took the item up. -/
  | refused
  /-- Nobody will take the item up, because another one was refused. -/
  | dropped
deriving DecidableEq, Repr

/-- An item in its place among the others, and how far the workers are with it. -/
structure Desk where
  item : Walk.Item
  stage : Stage
deriving DecidableEq, Repr

namespace Desk

/-- Is a worker busy with the item? -/
def isTaken (d : Desk) : Bool := d.stage = .taken

/-- Is the item one that workers were told to leave? -/
def isRefused (d : Desk) : Bool := d.stage = .refused

/-- Was the token looked at for the item? -/
def isReached (d : Desk) : Bool := d.stage ≠ .waiting && d.stage ≠ .dropped

/-- Will nothing more happen to the item? -/
def isSettled (d : Desk) : Bool := d.stage ≠ .waiting && d.stage ≠ .taken

/-- What became of the item, if it has been scanned. -/
def outcome? (d : Desk) : Option FileOutcome :=
  match d.stage with
  | .scanned outcome => some outcome
  | _ => none

/-- How many steps the item may still take. -/
def weight (d : Desk) : Nat :=
  match d.stage with
  | .waiting => 2
  | .taken => 1
  | _ => 0

def totalWeight : List Desk → Nat
  | [] => 0
  | d :: desks => d.weight + totalWeight desks

theorem totalWeight_waiting (items : List Walk.Item) :
    totalWeight (items.map (⟨·, .waiting⟩)) = 2 * items.length := by
  induction items with
  | nil => rfl
  | cons item items ih =>
    simp only [List.map_cons, List.length_cons, totalWeight, weight, ih]
    omega

end Desk

/-- How far a build is. -/
inductive Phase where
  /-- Item after item: what has been absorbed, and the items that are left. -/
  | inTurn (r : BuildReport) (rest : List Walk.Item)
  /-- Through the walk first: the items that were met, and those that are left. -/
  | draining (drained rest : List Walk.Item)
  /-- Workers are at the items. -/
  | atWork (desks : List Desk)
  | ended (result : Except BuildError BuildReport)

/-- The build has not failed for want of workers. -/
def Phase.Served (phase : Phase) : Prop :=
  ∀ reason, phase ≠ .ended (.error (.workerPool reason))

namespace Plan

/-- What is absorbed before the first item. -/
def blank (p : Plan) : BuildReport := blankReport p.diagnostics

/-- The phase that a build begins with. -/
def start (p : Plan) : Phase :=
  if p.jobs ≤ 1 then .inTurn p.blank p.walk.items else .draining [] p.walk.items

/-- What the workers have left behind: a refusal, or what became of the items, in their places. -/
def gather (p : Plan) (desks : List Desk) : Except BuildError BuildReport :=
  verdict (desks.any Desk.isRefused)
    (.ok ((desks.filterMap Desk.outcome?).foldl (·.absorb p.importMap) p.blank))

/-- A step of a build, with what the token told if the step looks at it. -/
inductive Step (p : Plan) : Phase → Option Bool → Phase → Prop
  | absorb {r : BuildReport} {item : Walk.Item} {rest : List Walk.Item} :
      p.Step (.inTurn r (item :: rest)) (some false)
        (.inTurn (r.absorb p.importMap (.ofItem p.walk item)) rest)
  | stop {r : BuildReport} {item : Walk.Item} {rest : List Walk.Item} :
      p.Step (.inTurn r (item :: rest)) (some true) (.ended (.error .cancelled))
  | finish {r : BuildReport} : p.Step (.inTurn r []) none (.ended (.ok r))
  | drain {drained rest : List Walk.Item} {item : Walk.Item} :
      p.Step (.draining drained (item :: rest)) (some false) (.draining (drained ++ [item]) rest)
  | stopDraining {drained rest : List Walk.Item} {item : Walk.Item} :
      p.Step (.draining drained (item :: rest)) (some true) (.ended (.error .cancelled))
  | layOut {drained : List Walk.Item} :
      p.Step (.draining drained []) none (.atWork (drained.map (⟨·, .waiting⟩)))
  | withoutWorkers {drained : List Walk.Item} {reason : String} :
      p.Step (.draining drained []) none (.ended (.error (.workerPool reason)))
  | take {front back : List Desk} {item : Walk.Item} :
      (front ++ back).countP Desk.isTaken < p.jobs →
      p.Step (.atWork (front ++ ⟨item, .waiting⟩ :: back)) (some false)
        (.atWork (front ++ ⟨item, .taken⟩ :: back))
  | refuse {front back : List Desk} {item : Walk.Item} :
      (front ++ back).countP Desk.isTaken < p.jobs →
      p.Step (.atWork (front ++ ⟨item, .waiting⟩ :: back)) (some true)
        (.atWork (front ++ ⟨item, .refused⟩ :: back))
  | putDown {front back : List Desk} {item : Walk.Item} :
      p.Step (.atWork (front ++ ⟨item, .taken⟩ :: back)) none
        (.atWork (front ++ ⟨item, .scanned (.ofItem p.walk item)⟩ :: back))
  | drop {front back : List Desk} {item : Walk.Item} :
      (front ++ back).any Desk.isRefused = true →
      p.Step (.atWork (front ++ ⟨item, .waiting⟩ :: back)) none
        (.atWork (front ++ ⟨item, .dropped⟩ :: back))
  | gather {desks : List Desk} : desks.all Desk.isSettled = true →
      p.Step (.atWork desks) none (.ended (p.gather desks))

/-- The answers that the looks of a build have got by the time it is in a phase. -/
inductive Course (p : Plan) : List Bool → Phase → Prop
  | start : p.Course [] p.start
  | step {answers : List Bool} {phase next : Phase} {answer : Option Bool} :
      p.Course answers phase → p.Step phase answer next →
      p.Course (answers ++ answer.toList) next

/-! ## What holds all along a course -/

variable {p : Plan} {answers more : List Bool} {front back desks : List Desk} {d d' : Desk}

/-- What is on a desk is what became of its item, and nothing is left lying without a refusal. -/
def Agrees (p : Plan) (answers : List Bool) (d : Desk) : Prop :=
  match d.stage with
  | .scanned outcome => outcome = .ofItem p.walk d.item
  | .refused | .dropped => true ∈ answers
  | .waiting | .taken => True

/-- The desks after some answers. -/
structure SoundDesks (p : Plan) (answers : List Bool) (desks : List Desk) : Prop where
  items : desks.map Desk.item = p.walk.items
  agree : ∀ d ∈ desks, p.Agrees answers d
  refused : true ∈ answers → desks.any Desk.isRefused = true
  -- One look for each item of the walk, and one for each item that a worker has taken up.
  counted : answers.length = p.walk.items.length + desks.countP Desk.isReached

/-- The result that a build has after some answers, if this becomes of its workers. -/
structure Settles (p : Plan) (answers : List Bool) (result : Except BuildError BuildReport)
    (pool : Pool) : Prop where
  result : result = verdict (answers.contains true) (p.whole pool)
  few : answers.length ≤ p.looks pool
  all : true ∉ answers → answers.length = p.looks pool

/-- A phase that fits the answers so far. -/
def Sound (p : Plan) (answers : List Bool) : Phase → Prop
  | .inTurn r rest => p.jobs ≤ 1 ∧ true ∉ answers ∧
      ∃ before, before ++ rest = p.walk.items ∧ answers.length = before.length ∧
        r = absorbed p.importMap p.walk p.blank before
  | .draining drained rest => ¬p.jobs ≤ 1 ∧ true ∉ answers ∧
      drained ++ rest = p.walk.items ∧ answers.length = drained.length
  | .atWork desks => ¬p.jobs ≤ 1 ∧ p.SoundDesks answers desks
  | .ended result => ∃ pool, p.Settles answers result pool

theorem sound_start (p : Plan) : p.Sound [] p.start := by
  rw [start]
  split
  · next alone => exact ⟨alone, List.not_mem_nil, [], rfl, rfl, rfl⟩
  · next many => exact ⟨many, List.not_mem_nil, rfl, rfl⟩

theorem Agrees.append (h : p.Agrees answers d) (more : List Bool) :
    p.Agrees (answers ++ more) d := by
  obtain ⟨item, stage⟩ := d
  cases stage with
  | waiting => trivial
  | taken => trivial
  | scanned outcome => exact h
  | refused => exact List.mem_append_left _ h
  | dropped => exact List.mem_append_left _ h

/-- Work on one desk leaves the others as they are. -/
theorem SoundDesks.replace (h : p.SoundDesks answers (front ++ d :: back)) (same : d'.item = d.item)
    (agrees : p.Agrees (answers ++ more) d') (before : d.isRefused = false)
    (behind : true ∈ more → d'.isRefused = true)
    (counted : d'.isReached.toNat = d.isReached.toNat + more.length) :
    p.SoundDesks (answers ++ more) (front ++ d' :: back) where
  items := by
    rw [← h.items]
    simp [same]
  agree := by
    intro e member
    rcases List.mem_append.mp member with inFront | inBack
    · exact (h.agree e (List.mem_append_left _ inFront)).append more
    · rcases List.mem_cons.mp inBack with rfl | inBack
      · exact agrees
      · exact (h.agree e (List.mem_append_right _ (List.mem_cons_of_mem _ inBack))).append more
  refused := by
    intro told
    rw [List.any_append, List.any_cons]
    rcases List.mem_append.mp told with earlier | now
    · have refused := h.refused earlier
      rw [List.any_append, List.any_cons, before, Bool.false_or, Bool.or_eq_true] at refused
      rcases refused with inFront | inBack
      · rw [inFront, Bool.true_or]
      · rw [inBack, Bool.or_true, Bool.or_true]
    · rw [behind now, Bool.true_or, Bool.or_true]
  counted := by
    have before := h.counted
    have one (e : Desk) : (if e.isReached = true then 1 else 0) = e.isReached.toNat := by
      cases e.isReached with
      | true => rfl
      | false => rfl
    simp only [List.countP_append, List.countP_cons, List.length_append, one] at before ⊢
    omega

theorem SoundDesks.layOut (many : answers.length = p.walk.items.length) (calm : true ∉ answers) :
    p.SoundDesks answers (p.walk.items.map (⟨·, .waiting⟩)) where
  items := by
    rw [List.map_map]
    exact List.map_id _
  agree := by
    intro d member
    obtain ⟨item, -, rfl⟩ := List.mem_map.mp member
    trivial
  refused := fun told => absurd told calm
  counted := by
    have none : (p.walk.items.map (⟨·, .waiting⟩)).countP Desk.isReached = 0 := by
      rw [List.countP_map, List.countP_eq_zero]
      intro item _
      simp [Desk.isReached]
    rw [none, many, Nat.add_zero]

theorem filterMap_outcome? (h : ∀ d ∈ desks, d.stage = .scanned (.ofItem p.walk d.item)) :
    desks.filterMap Desk.outcome? = outcomes p.walk (desks.map Desk.item) := by
  induction desks with
  | nil => rfl
  | cons d desks ih =>
    obtain ⟨here, behind⟩ := List.forall_mem_cons.mp h
    have found : d.outcome? = some (.ofItem p.walk d.item) := by rw [Desk.outcome?, here]
    rw [List.filterMap_cons_some found, ih behind]
    rfl

theorem SoundDesks.scanned (h : p.SoundDesks answers desks) (calm : true ∉ answers)
    (settled : desks.all Desk.isSettled = true) :
    ∀ d ∈ desks, d.stage = .scanned (.ofItem p.walk d.item) := by
  intro d member
  have agrees := h.agree d member
  have still := List.all_eq_true.mp settled d member
  obtain ⟨item, stage⟩ := d
  cases stage with
  | waiting => exact absurd still (by simp [Desk.isSettled])
  | taken => exact absurd still (by simp [Desk.isSettled])
  | scanned outcome => exact congrArg Stage.scanned agrees
  | refused => exact absurd agrees calm
  | dropped => exact absurd agrees calm

/-- When nothing more happens to the items, the answers tell what is gathered. -/
theorem SoundDesks.gather (h : p.SoundDesks answers desks) (many : ¬p.jobs ≤ 1)
    (settled : desks.all Desk.isSettled = true) :
    p.Sound answers (.ended (p.gather desks)) := by
  have looks := looks_started many .inOrder
  have each : desks.length = p.walk.items.length := by rw [← h.items, List.length_map]
  have counted := h.counted
  have most := List.countP_le_length (p := Desk.isReached) (l := desks)
  refine ⟨.inOrder, ?_⟩
  by_cases told : true ∈ answers
  · refine ⟨?_, by rw [Pool.inOrder]; omega, fun calm => absurd told calm⟩
    rw [Plan.gather, h.refused told, List.contains_iff_mem.mpr told]
    rfl
  · -- Nobody was refused, so nothing was left lying, and every item has been scanned.
    have scanned := h.scanned told settled
    have reached : desks.countP Desk.isReached = desks.length := by
      rw [List.countP_eq_length]
      intro d member
      simp [Desk.isReached, scanned d member]
    have kept : desks.any Desk.isRefused = false := by
      rw [List.any_eq_false]
      intro d member
      simp [Desk.isRefused, scanned d member]
    refine ⟨?_, by rw [Pool.inOrder]; omega, fun _ => by rw [Pool.inOrder]; omega⟩
    have calm : answers.contains true = false := by simpa using told
    rw [Plan.gather, kept, calm, filterMap_outcome? scanned, h.items]
    rfl

/-- What one step preserves. -/
theorem Sound.step {phase next : Phase} {answer : Option Bool} (h : p.Sound answers phase)
    (step : p.Step phase answer next) : p.Sound (answers ++ answer.toList) next := by
  cases step with
  | @absorb r item rest =>
    obtain ⟨alone, calm, before, whole, counted, rfl⟩ := h
    refine ⟨alone, by simpa using calm, before ++ [item], by simpa using whole,
      by simpa using counted, ?_⟩
    rw [absorbed_concat]
  | @stop r item rest =>
    obtain ⟨alone, -, before, whole, counted, -⟩ := h
    have looks := looks_of_alone alone .inOrder
    refine ⟨.inOrder, by simp, ?_, fun calm => absurd (by simp) calm⟩
    rw [looks, ← whole]
    simp only [List.length_append, List.length_cons, counted, Option.toList, List.length_nil]
    omega
  | finish =>
    obtain ⟨alone, calm, before, whole, counted, rfl⟩ := h
    have looks := looks_of_alone alone .inOrder
    obtain rfl : before = p.walk.items := by simpa using whole
    have none : answers.contains true = false := by simpa using calm
    simp only [Option.toList, List.append_nil]
    refine ⟨.inOrder, ?_, by omega, fun _ => by omega⟩
    rw [none, whole_of_alone alone]
    rfl
  | @drain drained rest item =>
    obtain ⟨many, calm, whole, counted⟩ := h
    exact ⟨many, by simpa using calm, by simpa using whole, by simpa using counted⟩
  | @stopDraining drained rest item =>
    obtain ⟨many, -, whole, counted⟩ := h
    have looks := looks_failed many ""
    refine ⟨.failed "", by simp, ?_, fun calm => absurd (by simp) calm⟩
    rw [looks, ← whole]
    simp only [List.length_append, List.length_cons, counted, Option.toList, List.length_nil]
    omega
  | layOut =>
    obtain ⟨many, calm, whole, counted⟩ := h
    rw [List.append_nil] at whole
    subst whole
    simp only [Option.toList, List.append_nil]
    exact ⟨many, .layOut counted calm⟩
  | @withoutWorkers drained reason =>
    obtain ⟨many, calm, whole, counted⟩ := h
    have looks := looks_failed many reason
    have none : answers.contains true = false := by simpa using calm
    rw [List.append_nil] at whole
    subst whole
    simp only [Option.toList, List.append_nil]
    refine ⟨.failed reason, ?_, by omega, fun _ => by omega⟩
    rw [none, whole_failed many, verdict_false]
  | take _ => exact ⟨h.1, h.2.replace rfl trivial rfl (by simp) rfl⟩
  | refuse _ => exact ⟨h.1, h.2.replace rfl (by simp [Agrees]) rfl (fun _ => rfl) rfl⟩
  | putDown => exact ⟨h.1, h.2.replace rfl rfl rfl (by simp) rfl⟩
  | @drop front back item refused =>
    -- The desk agrees because another one, which was refused, agrees already.
    refine ⟨h.1, h.2.replace rfl ?_ rfl (by simp) rfl⟩
    obtain ⟨d, member, told⟩ := List.any_eq_true.mp refused
    have agrees := h.2.agree d (by
      rcases List.mem_append.mp member with inFront | inBack
      · exact List.mem_append_left _ inFront
      · exact List.mem_append_right _ (List.mem_cons_of_mem _ inBack))
    have stage : d.stage = .refused := by simpa [Desk.isRefused] using told
    rw [Agrees, stage] at agrees
    exact List.mem_append_left _ agrees
  | gather settled =>
    simp only [Option.toList, List.append_nil]
    exact h.2.gather h.1 settled

/-- What a whole course preserves. -/
theorem Course.sound {phase : Phase} (h : p.Course answers phase) : p.Sound answers phase := by
  induction h with
  | start => exact p.sound_start
  | step _ step ih => exact ih.step step

/-! ## Every course comes to an end -/

/-- How many steps a build may still take, at most. -/
def weight : Phase → Nat
  | .inTurn _ rest => rest.length + 1
  | .draining drained rest => 2 * drained.length + 3 * rest.length + 2
  | .atWork desks => Desk.totalWeight desks + 1
  | .ended _ => 0

theorem weight_replace (less : d'.weight < d.weight) :
    weight (.atWork (front ++ d' :: back)) < weight (.atWork (front ++ d :: back)) := by
  induction front with
  | nil =>
    simp only [List.nil_append, weight, Desk.totalWeight]
    omega
  | cons first front ih =>
    simp only [List.cons_append, weight, Desk.totalWeight] at ih ⊢
    omega

/-- No course goes on for ever. -/
theorem Step.weight_lt {phase next : Phase} {answer : Option Bool}
    (step : p.Step phase answer next) : weight next < weight phase := by
  cases step with
  | absorb => simp [weight]
  | stop => simp [weight]
  | finish => simp [weight]
  | drain =>
    simp only [weight, List.length_append, List.length_cons, List.length_nil]
    omega
  | stopDraining => simp [weight]
  | layOut =>
    simp only [weight, Desk.totalWeight_waiting, List.length_nil]
    omega
  | withoutWorkers => simp [weight]
  | take _ => exact weight_replace (by decide : 1 < 2)
  | refuse _ => exact weight_replace (by decide : 0 < 2)
  | putDown => exact weight_replace (by decide : 0 < 1)
  | drop _ => exact weight_replace (by decide : 0 < 2)
  | gather _ => simp [weight]

/-- A build can go on without failing for want of workers, whatever the token answers. -/
def GoesOn (p : Plan) (phase : Phase) (answer : Bool) : Prop :=
  ∃ label next, p.Step phase label next ∧ (label = none ∨ label = some answer) ∧ next.Served

theorem served_gather (p : Plan) (desks : List Desk) : (Phase.ended (p.gather desks)).Served := by
  intro reason failed
  rw [Plan.gather, verdict] at failed
  split at failed
  · exact absurd failed (by simp)
  · exact absurd failed (by simp)

/-- Workers always have something to do until nothing more happens to the items. -/
theorem goesOn_atWork (workers : 0 < p.jobs) (desks : List Desk) (answer : Bool) :
    p.GoesOn (.atWork desks) answer := by
  -- A worker that is busy can finish; if none is, all of them are free to take up what is left.
  by_cases busy : ∃ d ∈ desks, d.stage = .taken
  · obtain ⟨⟨item, stage⟩, member, rfl⟩ := busy
    obtain ⟨front, back, rfl⟩ := List.append_of_mem member
    exact ⟨none, _, .putDown, .inl rfl, nofun⟩
  · have idle : ∀ others, others ⊆ desks → others.countP Desk.isTaken < p.jobs := by
      intro others among
      have none : others.countP Desk.isTaken = 0 := by
        rw [List.countP_eq_zero]
        intro d member taken
        exact busy ⟨d, among member, by simpa [Desk.isTaken] using taken⟩
      omega
    by_cases left : ∃ d ∈ desks, d.stage = .waiting
    · obtain ⟨⟨item, stage⟩, member, rfl⟩ := left
      obtain ⟨front, back, rfl⟩ := List.append_of_mem member
      have free := idle (front ++ back) (by simp)
      cases answer with
      | true => exact ⟨some true, _, .refuse free, .inr rfl, nofun⟩
      | false => exact ⟨some false, _, .take free, .inr rfl, nofun⟩
    · refine ⟨none, _, .gather ?_, .inl rfl, p.served_gather desks⟩
      rw [List.all_eq_true]
      intro d member
      rw [Desk.isSettled, Bool.and_eq_true]
      exact ⟨decide_eq_true fun waiting => left ⟨d, member, waiting⟩,
        decide_eq_true fun taken => busy ⟨d, member, taken⟩⟩

/-- No course gets stuck, whatever the token answers. -/
theorem Course.goesOn {phase : Phase} (h : p.Course answers phase)
    (unfinished : ∀ result, phase ≠ .ended result) (answer : Bool) : p.GoesOn phase answer := by
  cases phase with
  | inTurn r rest =>
    cases rest with
    | nil => exact ⟨none, _, .finish, .inl rfl, nofun⟩
    | cons item rest =>
      cases answer with
      | true => exact ⟨some true, _, .stop, .inr rfl, nofun⟩
      | false => exact ⟨some false, _, .absorb, .inr rfl, nofun⟩
  | draining drained rest =>
    cases rest with
    | nil => exact ⟨none, _, .layOut, .inl rfl, nofun⟩
    | cons item rest =>
      cases answer with
      | true => exact ⟨some true, _, .stopDraining, .inr rfl, nofun⟩
      | false => exact ⟨some false, _, .drain, .inr rfl, nofun⟩
  | atWork desks =>
    have many : ¬p.jobs ≤ 1 := h.sound.1
    exact goesOn_atWork (by omega) desks answer
  | ended result => exact absurd rfl (unfinished result)

/-- What the first looks at a token tell. -/
def firstAnswers (cancelled : CancelAnswers) (looks : Nat) : List Bool :=
  (List.range looks).map cancelled

theorem firstAnswers_succ (cancelled : CancelAnswers) (looks : Nat) :
    firstAnswers cancelled (looks + 1) = firstAnswers cancelled looks ++ [cancelled looks] := by
  rw [firstAnswers, List.range_succ, List.map_append]
  rfl

/-- Whatever a token answers, a course that follows it can be brought to an end, and without failing
for want of workers. -/
theorem Course.exists_ended {cancelled : CancelAnswers} {looks : Nat} {phase : Phase}
    (h : p.Course (firstAnswers cancelled looks) phase) (served : phase.Served) :
    ∃ looks result, p.Course (firstAnswers cancelled looks) (.ended result) ∧
      ∀ reason, result ≠ .error (.workerPool reason) := by
  -- The weight of the phase bounds the steps that are left.
  induction weighs : weight phase using Nat.strongRecOn generalizing looks phase with
  | _ n ih =>
    by_cases finished : ∃ result, phase = .ended result
    · obtain ⟨result, rfl⟩ := finished
      exact ⟨looks, result, h, fun reason failed => served reason (congrArg Phase.ended failed)⟩
    · have unfinished : ∀ result, phase ≠ .ended result := by
        intro result same
        exact finished ⟨result, same⟩
      obtain ⟨label, next, step, told, served⟩ := h.goesOn unfinished (cancelled looks)
      have less := weighs ▸ step.weight_lt
      rcases told with rfl | rfl
      · exact ih _ less (by simpa using h.step step) served rfl
      · have answers : firstAnswers cancelled looks ++ (some (cancelled looks)).toList =
            firstAnswers cancelled (looks + 1) := (firstAnswers_succ cancelled looks).symm
        exact ih _ less (answers ▸ h.step step) served rfl

theorem exists_course_ended (p : Plan) (cancelled : CancelAnswers) :
    ∃ looks result, p.Course (firstAnswers cancelled looks) (.ended result) ∧
      ∀ reason, result ≠ .error (.workerPool reason) := by
  have begun : p.Course (firstAnswers cancelled 0) p.start := .start
  refine begun.exists_ended fun reason failed => ?_
  rw [Plan.start] at failed
  split at failed
  · exact absurd failed nofun
  · exact absurd failed nofun

/-- With several jobs a build goes through the walk as long as nothing tells it to stop. -/
theorem course_draining (many : ¬p.jobs ≤ 1) {cancelled : CancelAnswers}
    (drained rest : List Walk.Item) (whole : drained ++ rest = p.walk.items)
    (calm : ∀ look < drained.length, cancelled look = false) :
    p.Course (firstAnswers cancelled drained.length) (.draining drained rest) := by
  induction drained using List.reverseRecOn generalizing rest with
  | nil =>
    have begun : p.start = .draining [] rest := by
      rw [Plan.start, if_neg many, ← whole]
      rfl
    exact begun ▸ .start
  | append_singleton drained item ih =>
    rw [List.length_append] at calm
    have before := ih (item :: rest) (by simpa using whole) fun look inside =>
      calm look (Nat.lt_succ_of_lt inside)
    have last : cancelled drained.length = false := calm _ (Nat.lt_succ_self _)
    rw [List.length_append, List.length_singleton, firstAnswers_succ, last]
    exact before.step .drain

/-- A build with several jobs that nothing tells to stop during the walk can be left without
workers. -/
theorem course_withoutWorkers (many : ¬p.jobs ≤ 1) {cancelled : CancelAnswers}
    (calm : (List.range p.walk.items.length).any cancelled = false) (reason : String) :
    p.Course (firstAnswers cancelled p.walk.items.length)
      (.ended (.error (.workerPool reason))) := by
  have never : ∀ look < p.walk.items.length, cancelled look = false := by
    intro look inside
    exact Bool.eq_false_iff.mpr (List.any_eq_false.mp calm look (List.mem_range.mpr inside))
  have drained := course_draining many p.walk.items [] (List.append_nil _) never
  simpa using drained.step .withoutWorkers

/-! ## The result of a course -/

/-- A course that follows a token is told to stop if one of the looks that a build has in all would
be. -/
theorem Settles.contains_eq {cancelled : CancelAnswers} {looks : Nat}
    {result : Except BuildError BuildReport} {pool : Pool}
    (h : p.Settles (firstAnswers cancelled looks) result pool) :
    (firstAnswers cancelled looks).contains true = (List.range (p.looks pool)).any cancelled := by
  obtain ⟨-, few, all⟩ := h
  rw [firstAnswers, List.length_map, List.length_range] at few all
  by_cases told : true ∈ firstAnswers cancelled looks
  · obtain ⟨look, member, yes⟩ := List.mem_map.mp told
    have within : look < p.looks pool := Nat.lt_of_lt_of_le (List.mem_range.mp member) few
    rw [List.contains_iff_mem.mpr told, eq_comm, List.any_eq_true]
    exact ⟨look, List.mem_range.mpr within, yes⟩
  · have same := all told
    subst same
    rw [firstAnswers, List.contains_eq_any_beq, List.any_map]
    congr 1
    funext look
    exact Bool.true_beq _

end Plan

end RemoteIndex.Build
