import RemoteIndex.Proofs.Course

/-!
# The verdict of a build

What a build returns is settled by its root and by what its looks at the token tell: it fails at an
unreadable root, it is cancelled as a whole if one look tells it to stop, and else it has the report
of a build that nobody stops. Neither the number of workers nor the order in which they take up
items and finish with them plays a part. Only if a build needs workers that cannot be started, it
fails for that where it would have had its report.
-/

namespace RemoteIndex.Build

/-- A build can get these answers from its looks at the token, one after the other, and return
this. -/
inductive Performs (tree : FileTree) (cwd : Place) (request : BuildRequest) :
    List Bool → Except BuildError BuildReport → Prop
  | unreadable {error : RootError} : plan? tree cwd request = .error error →
      Performs tree cwd request [] (.error (.rootUnreadable error))
  | course {p : Plan} {answers : List Bool} {result : Except BuildError BuildReport} :
      plan? tree cwd request = .ok p → p.Course answers (.ended result) →
      Performs tree cwd request answers result

variable {tree : FileTree} {cwd : Place} {request : BuildRequest} {p : Plan}
  {cancelled : CancelAnswers} {result : Except BuildError BuildReport}

/-- A build that follows a token returns what `run` says, by what becomes of its workers. -/
theorem Performs.exists_eq_run {looks : Nat}
    (h : Performs tree cwd request (Plan.firstAnswers cancelled looks) result) :
    ∃ pool, result = run tree cwd request cancelled pool := by
  generalize met : Plan.firstAnswers cancelled looks = answers at h
  cases h with
  | unreadable unreadable =>
    refine ⟨.inOrder, ?_⟩
    rw [run_eq, unreadable]
  | course begun course =>
    subst met
    obtain ⟨pool, settles⟩ := course.sound
    refine ⟨pool, ?_⟩
    rw [run_eq, begun, settles.result, settles.contains_eq]

/-- A build fails for want of workers only where it needs some, once it has gone through the walk. -/
theorem of_run_eq_workerPool {pool : Pool} {reason : String}
    (failed : run tree cwd request cancelled pool = .error (.workerPool reason)) :
    1 < request.jobs ∧ pool = .failed reason ∧
      ∃ p, plan? tree cwd request = .ok p ∧
        (List.range p.walk.items.length).any cancelled = false := by
  rw [run_eq] at failed
  cases begun : plan? tree cwd request with
  | error error =>
    rw [begun] at failed
    exact absurd failed (by simp)
  | ok p =>
    have jobs : p.jobs = request.jobs := (plan?_eq_ok.mp begun).2.2.2
    simp only [begun, verdict] at failed
    split at failed
    · exact absurd failed (by simp)
    · next onward =>
      by_cases alone : p.jobs ≤ 1
      · rw [Plan.whole_of_alone alone] at failed
        exact absurd failed (by simp)
      · cases pool with
        | started schedule => exact absurd failed (by simp [Plan.whole_started])
        | failed other =>
          rw [Plan.whole_failed alone] at failed
          rw [Plan.looks_failed alone] at onward
          obtain rfl : other = reason := by simpa using failed
          exact ⟨by omega, rfl, p, rfl, by simpa using onward⟩

/-- Unless it fails for want of workers, a build returns the same whatever becomes of them. -/
theorem run_eq_run_started (pool : Pool) (schedule : Schedule)
    (served : ∀ reason, run tree cwd request cancelled pool ≠ .error (.workerPool reason)) :
    run tree cwd request cancelled pool = run tree cwd request cancelled (.started schedule) := by
  rw [run_eq] at served ⊢
  rw [run_eq]
  cases begun : plan? tree cwd request with
  | error error => rfl
  | ok p =>
    rw [begun] at served
    by_cases alone : p.jobs ≤ 1
    · simp only [Plan.looks_of_alone alone, Plan.whole_of_alone alone]
    · cases pool with
      | started other => simp only [Plan.looks_started alone, Plan.whole_started]
      | failed reason =>
        simp only [Plan.looks_failed alone, Plan.whole_failed alone] at served
        cases told : (List.range p.walk.items.length).any cancelled with
        | false =>
          rw [told] at served
          exact absurd rfl (served reason)
        | true =>
          simp only [Plan.looks_failed alone, Plan.looks_started alone, List.range_add,
            List.any_append, told, Bool.true_or, verdict_true]

theorem exists_performs_started (tree : FileTree) (cwd : Place) (request : BuildRequest)
    (cancelled : CancelAnswers) (schedule : Schedule) :
    ∃ looks, Performs tree cwd request (Plan.firstAnswers cancelled looks)
      (run tree cwd request cancelled (.started schedule)) := by
  cases begun : plan? tree cwd request with
  | error error =>
    have returned : run tree cwd request cancelled (.started schedule) =
        .error (.rootUnreadable error) := by
      rw [run_eq, begun]
    rw [returned]
    exact ⟨0, .unreadable begun⟩
  | ok p =>
    obtain ⟨looks, result, course, served⟩ := p.exists_course_ended cancelled
    have performed := Performs.course begun course
    obtain ⟨pool, rfl⟩ := performed.exists_eq_run
    rw [run_eq_run_started pool schedule served] at performed
    exact ⟨looks, performed⟩

theorem exists_performs (tree : FileTree) (cwd : Place) (request : BuildRequest)
    (cancelled : CancelAnswers) (pool : Pool) :
    ∃ looks, Performs tree cwd request (Plan.firstAnswers cancelled looks)
      (run tree cwd request cancelled pool) := by
  by_cases served : ∀ reason, run tree cwd request cancelled pool ≠ .error (.workerPool reason)
  · rw [run_eq_run_started pool .inOrder served]
    exact exists_performs_started tree cwd request cancelled .inOrder
  · obtain ⟨reason, failed⟩ := Classical.not_forall_not.mp served
    obtain ⟨many, -, p, begun, calm⟩ := of_run_eq_workerPool failed
    rw [failed]
    have jobs : ¬p.jobs ≤ 1 := by
      rw [(plan?_eq_ok.mp begun).2.2.2]
      omega
    exact ⟨_, .course begun (p.course_withoutWorkers jobs calm reason)⟩

/-! ## One worker or many -/

theorem plan?_jobs (tree : FileTree) (cwd : Place) (request : BuildRequest) (jobs : Nat) :
    plan? tree cwd { request with jobs } =
      (plan? tree cwd request).map fun p => { p with jobs } := by
  rw [plan?, plan?]
  cases Walk.start? tree cwd (filter request.exclude) request.root with
  | error error => rfl
  | ok w => rfl

theorem Plan.looks_eq_zero (p : Plan) (pool : Pool) : p.looks pool = 0 ↔ p.walk.items = [] := by
  rw [Plan.looks, ← List.length_eq_zero_iff]
  split
  · exact Iff.rfl
  · omega

theorem any_range_const (n : Nat) (answer : Bool) :
    (List.range n).any (fun _ => answer) = (answer && decide (n ≠ 0)) := by
  cases n with
  | zero => cases answer <;> rfl
  | succ n => cases answer <;> simp [List.range_succ]

/-- A token that does not change its mind stops a build or does not, however many workers there
are. -/
theorem any_looks_jobs (p : Plan) (jobs : Nat) (answer : Bool) (pool other : Pool) :
    (List.range ({ p with jobs : Plan }.looks pool)).any (fun _ => answer) =
      (List.range (p.looks other)).any fun _ => answer := by
  have same : { p with jobs : Plan }.looks pool = 0 ↔ p.looks other = 0 := by
    rw [Plan.looks_eq_zero, Plan.looks_eq_zero]
  rw [any_range_const, any_range_const]
  simp only [ne_eq, same]

theorem run_jobs (tree : FileTree) (cwd : Place) (request : BuildRequest) (jobs : Nat)
    (answer : Bool) (schedule : Schedule) (pool : Pool) :
    run tree cwd { request with jobs } (fun _ => answer) (.started schedule) =
      run tree cwd { request with jobs := 1 } (fun _ => answer) pool := by
  rw [run_eq, run_eq, plan?_jobs, plan?_jobs tree cwd request 1]
  cases plan? tree cwd request with
  | error error => rfl
  | ok p =>
    have alone : { p with jobs := 1 : Plan }.whole pool = .ok p.report :=
      Plan.whole_of_alone (Nat.le_refl 1) pool
    simp only [Except.map, any_looks_jobs p 1 answer pool (.started schedule),
      any_looks_jobs p jobs answer (.started schedule) (.started schedule), alone]
    rfl

theorem eq_firstAnswers_of_steady {answers : List Bool} {answer : Bool}
    (steady : ∀ a ∈ answers, a = answer) :
    answers = Plan.firstAnswers (fun _ => answer) answers.length := by
  rw [Plan.firstAnswers, List.map_const', List.length_range]
  exact List.eq_replicate_of_mem steady

theorem steady_firstAnswers (answer : Bool) (looks : Nat) :
    ∀ a ∈ Plan.firstAnswers (fun _ => answer) looks, a = answer := by
  intro a member
  obtain ⟨look, -, same⟩ := List.mem_map.mp member
  exact same.symm

/-! ### Two workers at two scripts -/

/-- One of two workers has taken up the first of two items. -/
theorem Plan.course_first_taken {first second : Walk.Item}
    (items : p.walk.items = [first, second]) (two : p.jobs = 2) :
    p.Course [false, false, false]
      (.atWork ([⟨first, .taken⟩] ++ ⟨second, .waiting⟩ :: [])) := by
  have begun : p.start = .draining [] [first, second] := by
    rw [Plan.start, two, items]
    rfl
  have drained : p.Course [false, false] (.draining [first, second] []) :=
    ((begun ▸ .start : p.Course [] (.draining [] [first, second])).step .drain).step .drain
  have laid : p.Course [false, false]
      (.atWork ([] ++ ⟨first, .waiting⟩ :: [⟨second, .waiting⟩])) := drained.step .layOut
  exact laid.step (.take (by simp [two, Desk.isTaken]))

/-- The second item is taken up while the first is being scanned, and is done before it. -/
theorem Plan.course_overtaken {first second : Walk.Item}
    (items : p.walk.items = [first, second]) (two : p.jobs = 2) :
    p.Course [false, false, false, false] (.ended (.ok p.report)) := by
  have both : p.Course [false, false, false, false]
      (.atWork ([⟨first, .taken⟩] ++ ⟨second, .taken⟩ :: [])) :=
    (course_first_taken items two).step (.take (by simp [two, Desk.isTaken]))
  have one : p.Course [false, false, false, false]
      (.atWork ([] ++ ⟨first, .taken⟩ :: [⟨second, .scanned (.ofItem p.walk second)⟩])) :=
    both.step .putDown
  have ended := (one.step .putDown).step (.gather rfl)
  have gathered : p.gather ([] ++ ⟨first, .scanned (.ofItem p.walk first)⟩ ::
      [⟨second, .scanned (.ofItem p.walk second)⟩]) = .ok p.report := by
    rw [Plan.report, items]
    rfl
  exact gathered ▸ ended

/-- A worker is told to stop before the second item while the first is being scanned. -/
theorem Plan.course_refused {first second : Walk.Item}
    (items : p.walk.items = [first, second]) (two : p.jobs = 2) :
    p.Course [false, false, false, true] (.ended (.error .cancelled)) := by
  have told : p.Course [false, false, false, true]
      (.atWork ([] ++ ⟨first, .taken⟩ :: [⟨second, .refused⟩])) :=
    (course_first_taken items two).step (.refuse (by simp [two, Desk.isTaken]))
  exact (told.step .putDown).step (.gather rfl)

/-- A project with two scripts. -/
def twinTree : FileTree :=
  (FileTree.empty.place [.ofString "p", .ofString "b.ts"]
      (.file (Text.Utf8.encode "export * from \"http://[::1]/x\";") true)).place
    [.ofString "p", .ofString "a.ts"]
    (.file (Text.Utf8.encode "import \"http://[::1]/x\";") true)

/-- The walk of that project. -/
def twinWalk : Walk where
  tree := twinTree
  cwd := []
  filter := filter []
  root := .ofString "/p"
  boundary := [.ofString "p"]
  located := by decide +kernel
  listable := by decide +kernel

theorem items_twinWalk :
    twinWalk.items = [.file [.ofString "a.ts"], .file [.ofString "b.ts"]] := by
  have levels : Walk.maxDepth twinTree = 11 + 1 := by decide +kernel
  have entries : twinTree.nodes.filterMap (fun e => FileTree.nameIn? [.ofString "p"] e.1) =
      [.ofString "a.ts", .ofString "b.ts"] := by decide +kernel
  have names : twinTree.names [.ofString "p"] = [.ofString "a.ts", .ofString "b.ts"] := by
    rw [FileTree.names, entries]
    exact List.mergeSort_of_pairwise (by decide +kernel)
  have listed : twinWalk.tree.list twinWalk.cwd (twinWalk.pathOf []) =
      .ok [.ofString "a.ts", .ofString "b.ts"] := names ▸ rfl
  have first : twinWalk.move ⟨[.ofString "p"], []⟩ [] (.ofString "a.ts") =
      .give (.file [.ofString "a.ts"]) := by decide +kernel
  have second : twinWalk.move ⟨[.ofString "p"], []⟩ [] (.ofString "b.ts") =
      .give (.file [.ofString "b.ts"]) := by decide +kernel
  change twinWalk.visit (Walk.maxDepth twinTree) ⟨[.ofString "p"], []⟩ [] = _
  rw [levels, Walk.visit]
  simp only [listed, List.flatMap_cons, List.flatMap_nil, first, second]
  rfl

/-- The build of that project by two workers. -/
def twinRequest : BuildRequest := ⟨.ofString "/p", none, [], 2⟩

/-- Its report: both scripts, in the order of the walk. -/
def twinReport : BuildReport where
  index := (DependencyIndex.empty.append "http://[::1]/x"
      ⟨.ofString "/p/a.ts", ⟨⟨0, 7⟩, ⟨0, 23⟩⟩, .importFrom⟩).append "http://[::1]/x"
    ⟨.ofString "/p/b.ts", ⟨⟨0, 14⟩, ⟨0, 30⟩⟩, .exportFrom⟩
  diagnostics := []
  filesScanned := 2

theorem plan?_twinRequest : plan? twinTree [] twinRequest = .ok ⟨.empty, twinWalk, [], 2⟩ := rfl

theorem report_twinWalk (jobs : Nat) : Plan.report ⟨.empty, twinWalk, [], jobs⟩ = twinReport := by
  change absorbed .empty twinWalk (blankReport []) twinWalk.items = _
  rw [items_twinWalk]
  decide +kernel

/-- With a token that does not change its mind, a build by many workers returns what a build by one
returns, in whatever order they take up the items and finish with them. If they cannot be started,
that is told only where the build by one has a report. -/
theorem run_many_eq_run_one (tree : FileTree) (cwd : Place) (request : BuildRequest) (jobs : Nat)
    (answer : Bool) (pool : Pool) :
    let alone := run tree cwd { request with jobs := 1 } (fun _ => answer) pool
    (∀ schedule, run tree cwd { request with jobs } (fun _ => answer) (.started schedule) = alone) ∧
      (∀ answers result, (∀ a ∈ answers, a = answer) →
        Performs tree cwd { request with jobs } answers result →
          result = alone ∨
            ∃ reason report, 1 < jobs ∧ result = .error (.workerPool reason) ∧
              alone = .ok report) ∧
      ∃ answers, (∀ a ∈ answers, a = answer) ∧
        Performs tree cwd { request with jobs } answers alone := by
  have same (schedule : Schedule) :
      run tree cwd { request with jobs } (fun _ => answer) (.started schedule) =
        run tree cwd { request with jobs := 1 } (fun _ => answer) pool :=
    run_jobs tree cwd request jobs answer schedule pool
  refine ⟨same, ?_, ?_⟩
  · intro answers result steady performed
    rw [eq_firstAnswers_of_steady steady] at performed
    obtain ⟨actual, rfl⟩ := performed.exists_eq_run
    by_cases served : ∀ reason,
        run tree cwd { request with jobs } (fun _ => answer) actual ≠ .error (.workerPool reason)
    · rw [run_eq_run_started actual .inOrder served, same]
      exact .inl rfl
    · obtain ⟨reason, failed⟩ := Classical.not_forall_not.mp served
      obtain ⟨many, -, p, begun, calm⟩ := of_run_eq_workerPool failed
      have onward : (List.range (p.looks (.started .inOrder))).any (fun _ => answer) = false := by
        rw [any_range_const] at calm ⊢
        simpa [Plan.looks_eq_zero] using calm
      refine .inr ⟨reason, p.report, many, failed, ?_⟩
      rw [← same .inOrder, run_eq, begun]
      simp only [onward, verdict_false, Plan.whole_started]
  · obtain ⟨looks, performed⟩ :=
      exists_performs tree cwd { request with jobs } (fun _ => answer) .inOrder
    rw [Pool.inOrder, same] at performed
    exact ⟨_, steady_firstAnswers answer looks, performed⟩

theorem run_twin_overtaken :
    Performs twinTree [] twinRequest [false, false, false, false] (.ok twinReport) ∧
      .ok twinReport = run twinTree [] { twinRequest with jobs := 1 } (fun _ => false) .inOrder := by
  have performed : Performs twinTree [] twinRequest [false, false, false, false]
      (.ok twinReport) := by
    rw [← report_twinWalk 2]
    exact .course plan?_twinRequest (Plan.course_overtaken items_twinWalk rfl)
  obtain same | ⟨reason, report, -, failed, -⟩ :=
    (run_many_eq_run_one twinTree [] twinRequest 2 false .inOrder).2.1 _ _ (by decide) performed
  · exact ⟨performed, same⟩
  · exact absurd failed (by simp)

/-! ## All or nothing -/

end RemoteIndex.Build
