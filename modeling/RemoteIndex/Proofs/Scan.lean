import RemoteIndex.Build

/-!
# Scanning the items of a walk

However the items of a walk are scanned, in turn or by workers in some order, what is absorbed is
what became of each item, in the order of the walk. So a build has a closed form (`run_eq`): it
fails if its root cannot be walked, if one of its looks at the token tells it to stop, or if the
workers it needs cannot be started; and else it has absorbed the outcomes of the whole walk.
-/

namespace RemoteIndex.Build

/-- What became of items of a walk, in their order. -/
def outcomes (w : Walk) (items : List Walk.Item) : List FileOutcome := items.map (.ofItem w)

/-- What is absorbed before the first item of a walk. -/
def blankReport (diagnostics : List Diagnostic) : BuildReport := ⟨.empty, diagnostics, 0⟩

/-- The report that has absorbed items of a walk, one after the other. -/
def absorbed (m : ImportMap) (w : Walk) (r : BuildReport) (items : List Walk.Item) : BuildReport :=
  (outcomes w items).foldl (·.absorb m) r

/-- What a build returns if it was told to stop, or was not. -/
def verdict (stopped : Bool) (whole : Except BuildError BuildReport) :
    Except BuildError BuildReport :=
  if stopped then .error .cancelled else whole

variable {m : ImportMap} {w : Walk} {cancelled : CancelAnswers}

@[simp]
theorem verdict_true (whole : Except BuildError BuildReport) :
    verdict true whole = .error .cancelled := rfl

@[simp]
theorem verdict_false (whole : Except BuildError BuildReport) : verdict false whole = whole := rfl

theorem absorbed_cons (r : BuildReport) (item : Walk.Item) (items : List Walk.Item) :
    absorbed m w r (item :: items) = absorbed m w (r.absorb m (.ofItem w item)) items := rfl

theorem absorbed_concat (r : BuildReport) (items : List Walk.Item) (item : Walk.Item) :
    absorbed m w r (items ++ [item]) = (absorbed m w r items).absorb m (.ofItem w item) := by
  rw [absorbed, outcomes, List.map_append, List.foldl_append]
  rfl

theorem scanInTurn_eq (look : Nat) (r : BuildReport) (items : List Walk.Item) :
    scanInTurn m w cancelled look r items =
      verdict ((List.range items.length).any fun k => cancelled (look + k))
        (.ok (absorbed m w r items)) := by
  induction items generalizing look r with
  | nil => rfl
  | cons item items ih =>
    have behind : ((List.range items.length).map Nat.succ).any (fun k => cancelled (look + k)) =
        (List.range items.length).any fun k => cancelled (look + 1 + k) := by
      rw [List.any_map]
      congr 1
      funext k
      exact congrArg cancelled (by rw [Nat.succ_eq_add_one]; omega)
    rw [scanInTurn, ih, absorbed_cons, List.length_cons, List.range_succ_eq_map, List.any_cons,
      behind, Nat.add_zero]
    cases cancelled look with
    | true => rfl
    | false => rfl

/-- Places that are filled in some order: each that was named holds its own value. -/
theorem getElem?_foldl_set {α : Type} (value : Nat → α) (order : List Nat) (places : List α)
    (k : Nat) :
    (order.foldl (fun places i => places.set i (value i)) places)[k]? =
      if k ∈ order ∧ k < places.length then some (value k) else places[k]? := by
  induction order generalizing places with
  | nil => simp
  | cons i order ih =>
    rw [List.foldl_cons, ih, List.length_set, List.getElem?_set]
    by_cases same : i = k
    · subst same
      by_cases inside : i < places.length
      · simp [inside]
      · simp [inside]
    · simp [same, Ne.symm same]

theorem placed_eq {items : List Walk.Item} {order : List Nat}
    (h : order.Perm (List.range items.length)) :
    placed w items order = (outcomes w items).map some := by
  apply List.ext_getElem?
  intro k
  have named : k ∈ order ↔ k < items.length := by rw [h.mem_iff, List.mem_range]
  rw [placed, getElem?_foldl_set, List.length_replicate]
  by_cases inside : k < items.length
  · simp [named, inside, outcomes]
  · simp [named, inside, outcomes]

theorem scanAtOnce_started (schedule : Schedule) (r : BuildReport) (items : List Walk.Item) :
    scanAtOnce m w cancelled (.started schedule) r items =
      verdict ((List.range (items.length + items.length)).any cancelled)
        (.ok (absorbed m w r items)) := by
  have complete := schedule.complete items.length
  have many : (schedule.order items.length).length = items.length := by
    rw [complete.length_eq, List.length_range]
  have whole : (id ∘ some : FileOutcome → Option FileOutcome) = some := rfl
  simp only [scanAtOnce, many, placed_eq complete, List.filterMap_map, whole, List.filterMap_some,
    List.range_add, List.any_append, List.any_map]
  cases (List.range items.length).any cancelled with
  | true => rfl
  | false => rfl

theorem scanAtOnce_failed (reason : String) (r : BuildReport) (items : List Walk.Item) :
    scanAtOnce m w cancelled (.failed reason) r items =
      verdict ((List.range items.length).any cancelled) (.error (.workerPool reason)) := rfl

/-! ## Whole builds -/

/-- A build with a root that can be walked. -/
structure Plan where
  importMap : ImportMap
  walk : Walk
  /-- The problems met before the walk. -/
  diagnostics : List Diagnostic
  jobs : Nat

/-- The plan of a build, if its root can be walked. -/
def plan? (tree : FileTree) (cwd : Place) (request : BuildRequest) : Except RootError Plan :=
  let (m, _, diagnostics) := importMap tree cwd request.importMap
  (Walk.start? tree cwd (filter request.exclude) request.root).map fun w =>
    ⟨m, w, diagnostics, request.jobs⟩

namespace Plan

/-- How often a build looks at the token unless it is told to stop: at every item of the walk, and
where there are several workers once more before each item is scanned. -/
def looks (p : Plan) (pool : Pool) : Nat :=
  if p.jobs ≤ 1 ∨ (pool.trouble? p.jobs).isSome then p.walk.items.length
  else p.walk.items.length + p.walk.items.length

/-- The report on the whole walk. -/
def report (p : Plan) : BuildReport :=
  absorbed p.importMap p.walk (blankReport p.diagnostics) p.walk.items

/-- What a build returns that is not told to stop: the report, if it has the workers it needs. -/
def whole (p : Plan) (pool : Pool) : Except BuildError BuildReport :=
  match pool.trouble? p.jobs with
  | none => .ok p.report
  | some reason => .error (.workerPool reason)

theorem whole_of_alone {p : Plan} (alone : p.jobs ≤ 1) (pool : Pool) :
    p.whole pool = .ok p.report := by
  rw [whole, Pool.trouble?_of_alone alone]

theorem looks_of_alone {p : Plan} (alone : p.jobs ≤ 1) (pool : Pool) :
    p.looks pool = p.walk.items.length := if_pos (.inl alone)

theorem whole_started (p : Plan) (schedule : Schedule) : p.whole (.started schedule) = .ok p.report :=
  rfl

theorem looks_started {p : Plan} (many : ¬p.jobs ≤ 1) (schedule : Schedule) :
    p.looks (.started schedule) = p.walk.items.length + p.walk.items.length := by
  rw [looks, if_neg]
  simpa using many

theorem whole_failed {p : Plan} (many : ¬p.jobs ≤ 1) (reason : String) :
    p.whole (.failed reason) = .error (.workerPool reason) := by
  rw [whole, Pool.trouble?_failed many]

/-- The report, or that the workers are wanting. -/
theorem whole_eq (p : Plan) (pool : Pool) :
    p.whole pool = .ok p.report ∨
      ∃ reason, 1 < p.jobs ∧ pool = .failed reason ∧ p.whole pool = .error (.workerPool reason) := by
  cases pool with
  | started schedule => exact .inl rfl
  | failed reason =>
    by_cases alone : p.jobs ≤ 1
    · exact .inl (whole_of_alone alone _)
    · exact .inr ⟨reason, by omega, rfl, whole_failed alone reason⟩

theorem looks_failed {p : Plan} (many : ¬p.jobs ≤ 1) (reason : String) :
    p.looks (.failed reason) = p.walk.items.length := by
  rw [looks, Pool.trouble?_failed many]
  exact if_pos (.inr rfl)

end Plan

/-- What a build returns, by its root, by what its looks at the token tell, and by what becomes of
its workers. -/
theorem run_eq (tree : FileTree) (cwd : Place) (request : BuildRequest) (cancelled : CancelAnswers)
    (pool : Pool) :
    run tree cwd request cancelled pool =
      match plan? tree cwd request with
      | .error error => .error (.rootUnreadable error)
      | .ok p => verdict ((List.range (p.looks pool)).any cancelled) (p.whole pool) := by
  rcases loaded : importMap tree cwd request.importMap with ⟨m, warnings, diagnostics⟩
  simp only [run, plan?, loaded]
  cases Walk.start? tree cwd (filter request.exclude) request.root with
  | error error => rfl
  | ok w =>
    simp only [Except.map]
    by_cases alone : request.jobs ≤ 1
    · rw [if_pos alone, Plan.looks_of_alone alone, Plan.whole_of_alone alone, scanInTurn_eq]
      simp only [Nat.zero_add]
      rfl
    · rw [if_neg alone]
      cases pool with
      | started schedule =>
        rw [Plan.looks_started alone, Plan.whole_started, scanAtOnce_started]
        rfl
      | failed reason =>
        rw [Plan.looks_failed alone, Plan.whole_failed alone, scanAtOnce_failed]

/-- A build that nobody stops comes to its end. -/
theorem run_of_never {tree : FileTree} {cwd : Place} {request : BuildRequest} {p : Plan}
    (begun : plan? tree cwd request = .ok p) (pool : Pool) :
    run tree cwd request (fun _ => false) pool = p.whole pool := by
  have never : (List.range (p.looks pool)).any (fun _ => false) = false := by simp
  rw [run_eq, begun]
  change verdict _ (p.whole pool) = _
  rw [never, verdict_false]

/-- With workers that start, or with none, that is the report. -/
theorem run_of_never_started {tree : FileTree} {cwd : Place} {request : BuildRequest} {p : Plan}
    (begun : plan? tree cwd request = .ok p) (schedule : Schedule) :
    run tree cwd request (fun _ => false) (.started schedule) = .ok p.report :=
  run_of_never begun (.started schedule)

theorem plan?_eq_ok {tree : FileTree} {cwd : Place} {request : BuildRequest} {p : Plan} :
    plan? tree cwd request = .ok p ↔
      Walk.start? tree cwd (filter request.exclude) request.root = .ok p.walk ∧
        p.importMap = (importMap tree cwd request.importMap).1 ∧
        p.diagnostics = (importMap tree cwd request.importMap).2.2 ∧ p.jobs = request.jobs := by
  obtain ⟨m, w, diagnostics, jobs⟩ := p
  rw [plan?]
  cases Walk.start? tree cwd (filter request.exclude) request.root with
  | error error => simp [Except.map]
  | ok w =>
    simp only [Except.map, Except.ok.injEq, Plan.mk.injEq]
    constructor
    · rintro ⟨rfl, rfl, rfl, rfl⟩
      exact ⟨rfl, rfl, rfl, rfl⟩
    · rintro ⟨rfl, rfl, rfl, rfl⟩
      exact ⟨rfl, rfl, rfl, rfl⟩

theorem plan?_eq_error {tree : FileTree} {cwd : Place} {request : BuildRequest}
    {error : RootError} :
    plan? tree cwd request = .error error ↔
      Walk.start? tree cwd (filter request.exclude) request.root = .error error := by
  rw [plan?]
  cases Walk.start? tree cwd (filter request.exclude) request.root with
  | error other => simp [Except.map]
  | ok w => simp [Except.map]

theorem Plan.whole_eq_ok {p : Plan} {pool : Pool} {report : BuildReport}
    (h : p.whole pool = .ok report) : report = p.report := by
  rcases p.whole_eq pool with served | ⟨reason, -, -, failed⟩
  · exact Except.ok.inj (h.symm.trans served)
  · exact absurd (h.symm.trans failed) (by simp)

theorem run_eq_ok {tree : FileTree} {cwd : Place} {request : BuildRequest} {pool : Pool}
    {report : BuildReport} (h : run tree cwd request cancelled pool = .ok report) :
    ∃ p, plan? tree cwd request = .ok p ∧ report = p.report := by
  rw [run_eq] at h
  cases begun : plan? tree cwd request with
  | error error =>
    rw [begun] at h
    exact absurd h (by simp)
  | ok p =>
    simp only [begun, verdict] at h
    split at h
    · exact absurd h (by simp)
    · exact ⟨p, rfl, p.whole_eq_ok h⟩

/-- A report of a build is what has been absorbed of a whole walk. -/
theorem run_ok {tree : FileTree} {cwd : Place} {request : BuildRequest} {pool : Pool}
    {report : BuildReport} (h : run tree cwd request cancelled pool = .ok report) :
    ∃ w, Walk.start? tree cwd (filter request.exclude) request.root = .ok w ∧
      report = (outcomes w w.items).foldl (·.absorb (importMap tree cwd request.importMap).1)
        (blankReport (importMap tree cwd request.importMap).2.2) := by
  obtain ⟨p, begun, rfl⟩ := run_eq_ok h
  obtain ⟨started, map, diagnostics, -⟩ := plan?_eq_ok.mp begun
  refine ⟨p.walk, started, ?_⟩
  rw [Plan.report, absorbed, map, diagnostics]

end RemoteIndex.Build
