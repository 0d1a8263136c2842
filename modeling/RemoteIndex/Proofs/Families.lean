import Mathlib.Data.List.Induction
import Mathlib.Logic.Relation
import RemoteIndex.Cancellation

/-!
# Families of tokens

What a token tells can be read off the course of events without the tokens' own bookkeeping: a copy
and its original are kin, and a token is due when a token of its kin has been cancelled, or when the
deadline that its kin began with has come. The tokens' shared state keeps in step with that
(`Reflects`), event by event.
-/

namespace RemoteIndex

namespace Instant

variable {i j k : Instant}

theorem atMost_iff :
    i.atMost j = true ↔
      i.seconds < j.seconds ∨ i.seconds = j.seconds ∧ i.nanoseconds ≤ j.nanoseconds := by
  simp [atMost]

theorem atMost_trans (before : i.atMost j = true) (behind : j.atMost k = true) :
    i.atMost k = true := by
  rw [atMost_iff] at *
  omega

end Instant

namespace CancelTokens

/-- An action, and the reading of the clock when it is taken. -/
structure Event where
  time : Instant
  action : CancelAction

/-- The tokens behind events, if all of them can take place. -/
def after? (events : List Event) : Option CancelTokens :=
  events.foldlM (fun t e => t.act e.time e.action) .empty

/-! ## What the events tell -/

/-- The number of tokens when there were `n` and the event took place. A copy of nothing is no
token. -/
def Event.count (n : Nat) (e : Event) : Nat :=
  match e.action with
  | .new => n + 1
  | .timeout _ _ => n + 1
  | .copy token => if token < n then n + 1 else n
  | .cancel _ => n
  | .check => n

/-- The number of tokens that events make. -/
def made (events : List Event) : Nat := events.foldl Event.count 0

/-- There is an event of the kind among the events, which may depend on those before it. -/
def Occurs (kind : List Event → Event → Prop) (events : List Event) : Prop :=
  ∃ before e after, events = before ++ e :: after ∧ kind before e

/-- Token `j` was made as a copy of token `i`. -/
def Copies (events : List Event) (i j : Nat) : Prop :=
  Occurs (fun before e => e.action = .copy i ∧ i < made before ∧ j = made before) events

/-- A chain of copies, upwards and downwards, leads from one token to the other: both come from the
same first one. -/
def Kin (events : List Event) : Nat → Nat → Prop := Relation.EqvGen (Copies events)

/-- Token `i` was cancelled. -/
def Cancels (events : List Event) (i : Nat) : Prop :=
  Occurs (fun before e => e.action = .cancel i ∧ i < made before) events

/-- Token `i` was made with a deadline of its own. -/
def Expires (events : List Event) (i : Nat) (deadline : Instant) : Prop :=
  Occurs (fun before e => i = made before ∧ ∃ seconds nanoseconds,
    e.action = .timeout seconds nanoseconds ∧
      e.time.after? seconds nanoseconds = some deadline) events

/-- A token of the kin of token `i` was cancelled, or had a deadline that has come by now. -/
def Due (events : List Event) (now : Instant) (i : Nat) : Prop :=
  ∃ j, Kin events i j ∧
    (Cancels events j ∨ ∃ deadline, Expires events j deadline ∧ deadline.atMost now = true)

/-- The deadline that the event sets is further away than the clock goes. -/
def Event.Overruns (e : Event) : Prop :=
  ∃ seconds nanoseconds, e.action = .timeout seconds nanoseconds ∧
    e.time.after? seconds nanoseconds = none

variable {events : List Event} {e : Event} {t t' : CancelTokens} {i j f : Nat} {d now : Instant}
  {kind : List Event → Event → Prop}

theorem occurs_concat : Occurs kind (events ++ [e]) ↔ Occurs kind events ∨ kind events e := by
  constructor
  · rintro ⟨before, first, after, split, is⟩
    rcases List.eq_nil_or_concat after with rfl | ⟨init, last, rfl⟩
    · obtain ⟨rfl, same⟩ := List.append_inj' split rfl
      obtain rfl := List.singleton_inj.mp same
      exact .inr is
    · rw [List.concat_eq_append, ← List.cons_append, ← List.append_assoc] at split
      exact .inl ⟨before, first, init, (List.append_inj' split rfl).1, is⟩
  · rintro (⟨before, first, after, rfl, is⟩ | is)
    · exact ⟨before, first, after ++ [e], by simp, is⟩
    · exact ⟨events, e, [], rfl, is⟩

theorem not_occurs_nil : ¬Occurs kind [] := by
  rintro ⟨before, e, after, split, -⟩
  exact absurd split (by simp)

theorem Occurs.append (h : Occurs kind events) (more : List Event) :
    Occurs kind (events ++ more) := by
  obtain ⟨before, e, after, rfl, is⟩ := h
  exact ⟨before, e, after ++ more, by simp, is⟩

theorem made_concat : made (events ++ [e]) = e.count (made events) := by
  rw [made, made, List.foldl_append]
  rfl

theorem le_count (n : Nat) (e : Event) : n ≤ e.count n := by
  unfold Event.count
  split
  · exact Nat.le_succ n
  · exact Nat.le_succ n
  · split
    · exact Nat.le_succ n
    · exact Nat.le_refl n
  · exact Nat.le_refl n
  · exact Nat.le_refl n

theorem made_le_append (events more : List Event) : made events ≤ made (events ++ more) := by
  induction more using List.reverseRecOn with
  | nil => simp
  | append_singleton more e ih =>
    rw [← List.append_assoc, made_concat]
    exact Nat.le_trans ih (le_count _ e)

/-- A token that is there behind an event stays. -/
theorem lt_made_of_occurs {n : Nat} (h : Occurs kind events)
    (there : ∀ before e, kind before e → n < e.count (made before)) : n < made events := by
  obtain ⟨before, e, after, rfl, is⟩ := h
  have stays := made_le_append (before ++ [e]) after
  rw [made_concat, List.append_assoc, List.singleton_append] at stays
  exact Nat.lt_of_lt_of_le (there before e is) stays

theorem Copies.lt_made (h : Copies events i j) : i < made events ∧ j < made events := by
  constructor
  · exact lt_made_of_occurs h fun before e is => Nat.lt_of_lt_of_le is.2.1 (le_count _ e)
  · refine lt_made_of_occurs h ?_
    rintro before e ⟨copy, original, rfl⟩
    simp [Event.count, copy, original]

theorem Cancels.lt_made (h : Cancels events i) : i < made events :=
  lt_made_of_occurs h fun _ e is => Nat.lt_of_lt_of_le is.2 (le_count _ e)

theorem Expires.lt_made (h : Expires events i d) : i < made events := by
  refine lt_made_of_occurs h ?_
  rintro before e ⟨rfl, seconds, nanoseconds, timeout, -⟩
  simp [Event.count, timeout]

theorem Kin.append (h : Kin events i j) (more : List Event) : Kin (events ++ more) i j :=
  Relation.EqvGen.mono (fun _ _ copies => Occurs.append copies more) i j h

/-- Nothing that happens later, and no later time, makes a token less due. -/
theorem Due.append {later : Instant} (h : Due events now i) (more : List Event)
    (onward : now.atMost later = true) : Due (events ++ more) later i := by
  obtain ⟨j, kin, cancelled | ⟨deadline, expires, come⟩⟩ := h
  · exact ⟨j, kin.append more, .inl (cancelled.append more)⟩
  · exact ⟨j, kin.append more, .inr ⟨deadline, expires.append more,
      Instant.atMost_trans come onward⟩⟩

/-! ## Tokens in step with the events -/

/-- The tokens' shared state is what the events tell of them. -/
structure Reflects (t : CancelTokens) (events : List Event) : Prop where
  size : t.tokens.length = made events
  within : ∀ (i f : Nat), t.tokens[i]? = some f → f < t.families.length
  copies : ∀ i j : Nat, Copies events i j → t.tokens[i]? = t.tokens[j]?
  kin : ∀ i j f : Nat, t.tokens[i]? = some f → t.tokens[j]? = some f → Kin events i j
  cancelled : ∀ (f : Nat) family, t.families[f]? = some family →
    (family.cancelled = true ↔ ∃ i : Nat, t.tokens[i]? = some f ∧ Cancels events i)
  deadline : ∀ (f : Nat) family d, t.families[f]? = some family →
    (family.deadline = some d ↔ ∃ i : Nat, t.tokens[i]? = some f ∧ Expires events i d)

theorem getElem?_concat_eq_some {α : Type} {as : List α} {a b : α} :
    (as ++ [a])[i]? = some b ↔ as[i]? = some b ∨ i = as.length ∧ a = b := by
  rw [List.getElem?_append]
  split
  · next inside => simp [Nat.ne_of_lt inside]
  · next outside =>
    rw [List.getElem?_eq_none (Nat.le_of_not_lt outside)]
    simp only [List.getElem?_singleton]
    split
    · next first => simp; omega
    · next other => simp; omega

theorem reflects_empty : empty.Reflects [] where
  size := rfl
  within := by simp [empty]
  copies i j h := absurd h not_occurs_nil
  kin := by simp [empty]
  cancelled := by simp [empty]
  deadline := by simp [empty]

/-- One more token takes no part in what the others were cancelled for. -/
theorem Reflects.exists_cancels_concat (h : t.Reflects events) (g : Nat)
    (other : ∀ i, e.action ≠ .cancel i) :
    (∃ i : Nat, (t.tokens ++ [g])[i]? = some f ∧ Cancels (events ++ [e]) i) ↔
      ∃ i : Nat, t.tokens[i]? = some f ∧ Cancels events i := by
  constructor
  · rintro ⟨i, token, cancels⟩
    rcases occurs_concat.mp cancels with old | ⟨new, -⟩
    · have inside := h.size ▸ Cancels.lt_made old
      rw [List.getElem?_append_left inside] at token
      exact ⟨i, token, old⟩
    · exact absurd new (other i)
  · rintro ⟨i, token, cancels⟩
    exact ⟨i, getElem?_concat_eq_some.mpr (.inl token), cancels.append _⟩

/-- Two tokens that were there before one more are of one family as before. -/
theorem Reflects.copies_concat (h : t.Reflects events) (g : Nat) (old : Copies events i j) :
    (t.tokens ++ [g])[i]? = (t.tokens ++ [g])[j]? := by
  have inside := Copies.lt_made old
  rw [← h.size] at inside
  rw [List.getElem?_append_left inside.1, List.getElem?_append_left inside.2]
  exact h.copies i j old

/-- A first token of a family, which the event may give a deadline. -/
theorem Reflects.found {family : CancelFamily} (h : t.Reflects events)
    (fresh : family.cancelled = false) (counts : e.count (made events) = made events + 1)
    (copies : ∀ i, e.action ≠ .copy i) (cancels : ∀ i, e.action ≠ .cancel i)
    (deadline : ∀ d, family.deadline = some d ↔ ∃ seconds nanoseconds,
      e.action = .timeout seconds nanoseconds ∧ e.time.after? seconds nanoseconds = some d) :
    (t.found family).Reflects (events ++ [e]) where
  size := by simp [CancelTokens.found, made_concat, counts, h.size]
  within := by
    intro i f token
    rw [CancelTokens.found, getElem?_concat_eq_some] at token
    rcases token with old | ⟨-, rfl⟩
    · simpa [CancelTokens.found] using Nat.lt_succ_of_lt (h.within i f old)
    · simp [CancelTokens.found]
  copies := by
    intro i j copy
    rcases occurs_concat.mp copy with old | ⟨new, -⟩
    · exact h.copies_concat _ old
    · exact absurd new (copies i)
  kin := by
    intro i j f first second
    simp only [CancelTokens.found, getElem?_concat_eq_some] at first second
    rcases first with old | ⟨rfl, rfl⟩
    · rcases second with old' | ⟨rfl, rfl⟩
      · exact (h.kin i j f old old').append _
      · exact absurd (h.within i _ old) (Nat.lt_irrefl _)
    · rcases second with old' | ⟨rfl, -⟩
      · exact absurd (h.within j _ old') (Nat.lt_irrefl _)
      · exact .refl _
  cancelled := by
    intro f other at_
    simp only [CancelTokens.found] at at_ ⊢
    rw [h.exists_cancels_concat _ cancels]
    rcases getElem?_concat_eq_some.mp at_ with old | ⟨rfl, rfl⟩
    · exact h.cancelled f other old
    · rw [fresh]
      simp only [Bool.false_eq_true, false_iff]
      rintro ⟨i, token, -⟩
      exact absurd (h.within i _ token) (Nat.lt_irrefl _)
  deadline := by
    intro f other d at_
    simp only [CancelTokens.found] at at_ ⊢
    rcases getElem?_concat_eq_some.mp at_ with old | ⟨rfl, rfl⟩
    · rw [h.deadline f other d old]
      have known : f < t.families.length := (List.getElem?_eq_some_iff.mp old).1
      constructor
      · rintro ⟨i, token, expires⟩
        exact ⟨i, getElem?_concat_eq_some.mpr (.inl token), expires.append _⟩
      · rintro ⟨i, token, expires⟩
        rcases getElem?_concat_eq_some.mp token with old | ⟨rfl, rfl⟩
        · rcases occurs_concat.mp expires with before | ⟨rfl, -⟩
          · exact ⟨i, old, before⟩
          · rw [← h.size, List.getElem?_eq_none (Nat.le_refl _)] at old
            exact absurd old (by simp)
        · exact absurd known (Nat.lt_irrefl _)
    · rw [deadline d]
      constructor
      · intro timeout
        exact ⟨made events, getElem?_concat_eq_some.mpr (.inr ⟨h.size.symm, rfl⟩),
          occurs_concat.mpr (.inr ⟨rfl, timeout⟩)⟩
      · rintro ⟨i, token, expires⟩
        rcases getElem?_concat_eq_some.mp token with old | ⟨rfl, -⟩
        · exact absurd (h.within i _ old) (Nat.lt_irrefl _)
        · rcases occurs_concat.mp expires with before | ⟨-, timeout⟩
          · exact absurd (h.size ▸ Expires.lt_made before) (Nat.lt_irrefl _)
          · exact timeout

/-- One more token of a family that is there. -/
theorem Reflects.copy {original g : Nat} (h : t.Reflects events)
    (copy : e.action = .copy original) (token : t.tokens[original]? = some g) :
    Reflects { t with tokens := t.tokens ++ [g] } (events ++ [e]) := by
  have there : original < made events := h.size ▸ (List.getElem?_eq_some_iff.mp token).1
  have copies : Copies (events ++ [e]) original (made events) :=
    occurs_concat.mpr (.inr ⟨copy, there, rfl⟩)
  refine ⟨?_, ?_, ?_, ?_, ?_, ?_⟩
  · simp [made_concat, Event.count, copy, there, h.size]
  · intro i f token'
    rcases getElem?_concat_eq_some.mp token' with old | ⟨-, rfl⟩
    · exact h.within i f old
    · exact h.within original _ token
  · intro i j copy'
    rcases occurs_concat.mp copy' with old | ⟨new, -, rfl⟩
    · exact h.copies_concat _ old
    · obtain rfl := CancelAction.copy.inj (copy.symm.trans new)
      have first : (t.tokens ++ [g])[original]? = some g :=
        getElem?_concat_eq_some.mpr (.inl token)
      have second : (t.tokens ++ [g])[made events]? = some g :=
        getElem?_concat_eq_some.mpr (.inr ⟨h.size.symm, rfl⟩)
      exact first.trans second.symm
  · intro i j f first second
    have kin : ∀ {k : Nat}, t.tokens[k]? = some g → Kin (events ++ [e]) k (made events) :=
      fun same => .trans _ _ _ ((h.kin _ _ _ same token).append _) (.rel _ _ copies)
    rcases getElem?_concat_eq_some.mp first with old | ⟨rfl, rfl⟩
    · rcases getElem?_concat_eq_some.mp second with old' | ⟨rfl, rfl⟩
      · exact (h.kin i j f old old').append _
      · rw [h.size]
        exact kin old
    · rw [h.size]
      rcases getElem?_concat_eq_some.mp second with old' | ⟨rfl, -⟩
      · exact .symm _ _ (kin old')
      · rw [h.size]
        exact .refl _
  · intro f family at_
    rw [h.exists_cancels_concat _ (by simp [copy])]
    exact h.cancelled f family at_
  · intro f family d at_
    rw [h.deadline f family d at_]
    constructor
    · rintro ⟨i, token, expires⟩
      exact ⟨i, getElem?_concat_eq_some.mpr (.inl token), expires.append _⟩
    · rintro ⟨i, token, expires⟩
      rcases occurs_concat.mp expires with before | ⟨-, seconds, nanoseconds, timeout, -⟩
      · rw [List.getElem?_append_left (h.size ▸ Expires.lt_made before)] at token
        exact ⟨i, token, before⟩
      · exact absurd (copy.symm.trans timeout) (by simp)

/-- The families, with the one of a token cancelled. -/
theorem Reflects.cancel {token g : Nat} (h : t.Reflects events) (cancel : e.action = .cancel token)
    (at_ : t.tokens[token]? = some g) :
    Reflects { t with families := t.families.modify g fun f => { f with cancelled := true } }
      (events ++ [e]) where
  size := by simp [made_concat, Event.count, cancel, h.size]
  within i f token := by simpa using h.within i f token
  copies := by
    intro i j copy
    rcases occurs_concat.mp copy with old | ⟨new, -⟩
    · exact h.copies i j old
    · exact absurd (cancel.symm.trans new) (by simp)
  kin i j f first second := (h.kin i j f first second).append _
  cancelled := by
    intro f family found
    have there : token < made events := h.size ▸ (List.getElem?_eq_some_iff.mp at_).1
    rw [List.getElem?_modify, Option.map_eq_map, Option.map_eq_some_iff] at found
    obtain ⟨before, found, rfl⟩ := found
    by_cases same : g = f
    · subst same
      have cancels : Cancels (events ++ [e]) token := occurs_concat.mpr (.inr ⟨cancel, there⟩)
      simpa using ⟨token, at_, cancels⟩
    · rw [if_neg same, h.cancelled f before found]
      constructor
      · rintro ⟨i, token', cancels⟩
        exact ⟨i, token', cancels.append _⟩
      · rintro ⟨i, token', cancels⟩
        rcases occurs_concat.mp cancels with old | ⟨new, -⟩
        · exact ⟨i, token', old⟩
        · obtain rfl := CancelAction.cancel.inj (cancel.symm.trans new)
          exact absurd (Option.some.inj (at_.symm.trans token')) same
  deadline := by
    intro f family d found
    rw [List.getElem?_modify, Option.map_eq_map, Option.map_eq_some_iff] at found
    obtain ⟨before, found, rfl⟩ := found
    have kept : (if g = f then { before with cancelled := true } else before).deadline =
        before.deadline := by split <;> rfl
    rw [kept, h.deadline f before d found]
    constructor
    · rintro ⟨i, token', expires⟩
      exact ⟨i, token', expires.append _⟩
    · rintro ⟨i, token', expires⟩
      rcases occurs_concat.mp expires with old | ⟨-, seconds, nanoseconds, timeout, -⟩
      · exact ⟨i, token', old⟩
      · exact absurd (cancel.symm.trans timeout) (by simp)

/-- An event that makes, cancels and sets nothing. -/
theorem Reflects.idle (h : t.Reflects events) (counts : e.count (made events) = made events)
    (copies : ∀ i, e.action = .copy i → made events ≤ i)
    (cancels : ∀ i, e.action = .cancel i → made events ≤ i)
    (timeouts : ∀ seconds nanoseconds, e.action ≠ .timeout seconds nanoseconds) :
    t.Reflects (events ++ [e]) := by
  have copied (i j : Nat) : Copies (events ++ [e]) i j ↔ Copies events i j := by
    rw [Copies, occurs_concat]
    exact or_iff_left fun ⟨copy, there, _⟩ => absurd there (Nat.not_lt_of_le (copies i copy))
  have cancelled (i : Nat) : Cancels (events ++ [e]) i ↔ Cancels events i := by
    rw [Cancels, occurs_concat]
    exact or_iff_left fun ⟨cancel, there⟩ => absurd there (Nat.not_lt_of_le (cancels i cancel))
  have expires (i : Nat) (d : Instant) : Expires (events ++ [e]) i d ↔ Expires events i d := by
    rw [Expires, occurs_concat]
    exact or_iff_left fun ⟨_, _, _, timeout, _⟩ => absurd timeout (timeouts _ _)
  exact {
    size := by rw [made_concat, counts, h.size]
    within := h.within
    copies := fun i j copy => h.copies i j ((copied i j).mp copy)
    kin := fun i j f first second => (h.kin i j f first second).append _
    cancelled := by simpa only [cancelled] using h.cancelled
    deadline := by simpa only [expires] using h.deadline }

theorem after?_concat :
    after? (events ++ [e]) = (after? events).bind fun t => t.act e.time e.action := by
  rw [after?, after?, List.foldlM_append]
  simp

/-- An event keeps the tokens in step. -/
theorem Reflects.act (h : t.Reflects events) (acts : t.act e.time e.action = some t') :
    t'.Reflects (events ++ [e]) := by
  cases action : e.action with
  | new =>
    rw [action] at acts
    obtain rfl := Option.some.inj acts
    exact h.found rfl (by simp [Event.count, action]) (by simp [action]) (by simp [action])
      (by simp [action, CancelFamily.new])
  | timeout seconds nanoseconds =>
    rw [action] at acts
    obtain ⟨family, expiring, rfl⟩ := Option.map_eq_some_iff.mp acts
    obtain ⟨deadline, after, rfl⟩ := Option.map_eq_some_iff.mp expiring
    refine h.found rfl (by simp [Event.count, action]) (by simp [action]) (by simp [action]) ?_
    intro d
    simp [action, after]
  | copy original =>
    rw [action] at acts
    obtain rfl := Option.some.inj acts
    cases token : t.tokens[original]? with
    | some g => exact h.copy action token
    | none =>
      have absent : made events ≤ original := h.size ▸ List.getElem?_eq_none_iff.mp token
      have idle : t.Reflects (events ++ [e]) :=
        h.idle (by simp [Event.count, action, Nat.not_lt_of_le absent]) (by simp [action, absent])
          (by simp [action]) (by simp [action])
      simpa [token] using idle
  | cancel token =>
    rw [action] at acts
    cases found : t.tokens[token]? with
    | some g =>
      simp only [CancelTokens.act, found] at acts
      obtain rfl := Option.some.inj acts
      exact h.cancel action found
    | none =>
      have absent : made events ≤ token := h.size ▸ List.getElem?_eq_none_iff.mp found
      simp only [CancelTokens.act, found] at acts
      obtain rfl := Option.some.inj acts
      exact h.idle (by simp [Event.count, action]) (by simp [action]) (by simp [action, absent])
        (by simp [action])
  | check =>
    rw [action] at acts
    obtain rfl := Option.some.inj acts
    exact h.idle (by simp [Event.count, action]) (by simp [action]) (by simp [action])
      (by simp [action])

theorem reflects_of_after? (h : after? events = some t) : t.Reflects events := by
  induction events using List.reverseRecOn generalizing t with
  | nil =>
    obtain rfl := Option.some.inj h
    exact reflects_empty
  | append_singleton events e ih =>
    rw [after?_concat] at h
    obtain ⟨before, reached, acts⟩ := Option.bind_eq_some_iff.mp h
    exact (ih reached).act acts

/-! ## What tokens tell -/

theorem Reflects.same_of_kin (h : t.Reflects events) (kin : Kin events i j) :
    t.tokens[i]? = t.tokens[j]? := by
  induction kin with
  | rel i j copy => exact h.copies i j copy
  | refl i => rfl
  | symm i j _ ih => exact ih.symm
  | trans i j k _ _ first second => exact first.trans second

/-- The tokens of a family are kin of each other and of no other token. -/
theorem Reflects.kin_iff (h : t.Reflects events) (token : t.tokens[i]? = some f) :
    Kin events i j ↔ t.tokens[j]? = some f :=
  ⟨fun kin => (h.same_of_kin kin).symm.trans token, h.kin i j f token⟩

theorem getElem?_states (t : CancelTokens) (now : Instant) (i : Nat) :
    (t.states now)[i]? = t.tokens[i]?.map fun f => t.families[f]?.any (·.isCancelled now) := by
  simp [states]

theorem Reflects.exists_family (h : t.Reflects events) (there : i < made events) :
    ∃ f family, t.tokens[i]? = some f ∧ t.families[f]? = some family := by
  have inside : i < t.tokens.length := h.size ▸ there
  have token := List.getElem?_eq_getElem inside
  exact ⟨_, _, token, List.getElem?_eq_getElem (h.within i _ token)⟩

/-- A token is cancelled when it is due. -/
theorem Reflects.state_iff (h : t.Reflects events) (there : i < made events) (now : Instant) :
    (t.states now)[i]? = some true ↔ Due events now i := by
  obtain ⟨f, family, token, found⟩ := h.exists_family there
  have cancelled : (t.states now)[i]? = some (family.isCancelled now) := by
    simp [getElem?_states, token, found]
  rw [cancelled, Option.some_inj, CancelFamily.isCancelled, Bool.or_eq_true, Option.any_eq_true]
  constructor
  · rintro (byHand | ⟨deadline, set, come⟩)
    · obtain ⟨j, token', cancels⟩ := (h.cancelled f family found).mp byHand
      exact ⟨j, (h.kin_iff token).mpr token', .inl cancels⟩
    · obtain ⟨j, token', expires⟩ := (h.deadline f family deadline found).mp set
      exact ⟨j, (h.kin_iff token).mpr token', .inr ⟨deadline, expires, come⟩⟩
  · rintro ⟨j, kin, cancels | ⟨deadline, expires, come⟩⟩
    · exact .inl ((h.cancelled f family found).mpr ⟨j, (h.kin_iff token).mp kin, cancels⟩)
    · exact .inr ⟨deadline,
        (h.deadline f family deadline found).mpr ⟨j, (h.kin_iff token).mp kin, expires⟩, come⟩

/-- What is done to one family is not seen in a token of another. -/
theorem Reflects.state_act (h : t.Reflects events) (acts : t.act e.time e.action = some t')
    (there : i < made events) (other : ∀ k, e.action = .cancel k → ¬Kin events k i)
    (now : Instant) : (t'.states now)[i]? = (t.states now)[i]? := by
  obtain ⟨f, family, token, found⟩ := h.exists_family there
  have inside : i < t.tokens.length := h.size ▸ there
  have known : f < t.families.length := h.within i f token
  have begun (first : CancelFamily) :
      ((t.found first).states now)[i]? = (t.states now)[i]? := by
    simp [getElem?_states, CancelTokens.found, List.getElem?_append_left inside, token,
      List.getElem?_append_left known]
  cases action : e.action with
  | new =>
    rw [action] at acts
    obtain rfl := Option.some.inj acts
    exact begun .new
  | timeout seconds nanoseconds =>
    rw [action] at acts
    obtain ⟨first, -, rfl⟩ := Option.map_eq_some_iff.mp acts
    exact begun first
  | copy original =>
    rw [action] at acts
    obtain rfl := Option.some.inj acts
    simp [getElem?_states, List.getElem?_append_left inside]
  | cancel k =>
    rw [action] at acts
    cases at_ : t.tokens[k]? with
    | none =>
      simp only [CancelTokens.act, at_] at acts
      obtain rfl := Option.some.inj acts
      rfl
    | some g =>
      simp only [CancelTokens.act, at_] at acts
      obtain rfl := Option.some.inj acts
      have apart : g ≠ f := by
        rintro rfl
        exact other k action ((h.kin_iff at_).mpr token)
      simp [getElem?_states, token, found, List.getElem?_modify, apart]
  | check =>
    rw [action] at acts
    obtain rfl := Option.some.inj acts
    rfl

theorem act_eq_none : t.act e.time e.action = none ↔ e.Overruns := by
  rw [Event.Overruns]
  cases e.action with
  | timeout seconds nanoseconds => simp [act, CancelFamily.expiring?]
  | cancel token =>
    rw [act]
    split <;> simp
  | new => simp [act]
  | copy original => simp [act]
  | check => simp [act]

theorem after?_eq_none : after? events = none ↔ ∃ e ∈ events, e.Overruns := by
  induction events using List.reverseRecOn with
  | nil => simp [after?]
  | append_singleton events e ih =>
    simp only [after?_concat, List.mem_append, List.mem_singleton, or_and_right, exists_or,
      exists_eq_left, ← ih]
    cases after? events with
    | none => simp
    | some t => simpa using act_eq_none

/-- Tokens behind any course of events, which takes place unless a deadline is further away than the
clock goes. A token is cancelled when a token of its kin was, or the deadline of its kin has come;
so it stays cancelled, copies tell what their original tells, and what is done to other families
makes no difference to it. -/
theorem states_after? (events : List Event) :
    (after? events = none ↔ ∃ e ∈ events, e.Overruns) ∧
    ∀ t, after? events = some t →
      (∀ now, (t.states now).length = made events ∧
        ∀ i < made events, ((t.states now)[i]? = some true ↔ Due events now i)) ∧
      (∀ more t' now later (i : Nat), after? (events ++ more) = some t' → now.atMost later = true →
        (t.states now)[i]? = some true → (t'.states later)[i]? = some true) ∧
      (∀ (i j : Nat) now, Kin events i j → (t.states now)[i]? = (t.states now)[j]?) ∧
      ∀ e t' (i : Nat) now, after? (events ++ [e]) = some t' → i < made events →
        (∀ k, e.action = .cancel k → ¬Kin events k i) →
        (t'.states now)[i]? = (t.states now)[i]? := by
  refine ⟨after?_eq_none, fun t reached => ?_⟩
  have h := reflects_of_after? reached
  have size (now : Instant) : (t.states now).length = made events := by simp [states, h.size]
  refine ⟨fun now => ⟨size now, fun i there => h.state_iff there now⟩, ?_, ?_, ?_⟩
  · intro more t' now later i reached' onward cancelled
    have there : i < made events := size now ▸ (List.getElem?_eq_some_iff.mp cancelled).1
    have there' := Nat.lt_of_lt_of_le there (made_le_append events more)
    have due := (h.state_iff there now).mp cancelled
    exact ((reflects_of_after? reached').state_iff there' later).mpr (due.append more onward)
  · intro i j now kin
    rw [getElem?_states, getElem?_states, h.same_of_kin kin]
  · intro e t' i now reached' there other
    rw [after?_concat, reached] at reached'
    exact h.state_act reached' there other now

/-- Two families: one with a copy of a copy that is cancelled before one more copy is made, the
other with a deadline. -/
example :
    (after? [⟨⟨0, 0⟩, .new⟩, ⟨⟨0, 0⟩, .copy 0⟩, ⟨⟨1, 0⟩, .timeout 1 500⟩, ⟨⟨1, 0⟩, .copy 1⟩,
      ⟨⟨2, 0⟩, .cancel 3⟩, ⟨⟨2, 0⟩, .copy 0⟩, ⟨⟨2, 0⟩, .copy 2⟩]).map
        (fun t => (t.states ⟨2, 499⟩, t.states ⟨2, 500⟩)) =
      some ([true, true, false, true, true, false], [true, true, true, true, true, true]) := by
  decide

end CancelTokens

end RemoteIndex
