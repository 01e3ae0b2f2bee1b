import MaintenanceFabric.Guarantees.Lifecycle
import MaintenanceFabric.Lib.Search
import MaintenanceFabric.Runtime.Bindings

/-! # Dependencies

    A proposal may name jobs that have to be complete before its own can start.
    The controller looks every one of them up, and searches the jobs they
    depend on in turn for a cycle.  Since dependencies are fixed by the
    proposal and have to exist by then, the graph only ever grows at its
    leaves: no reachable state has a cycle, and what the search refuses is a
    graph that is too large for its budget.
-/

namespace MaintenanceFabric

open Lib

/-! ## The search of a proposal -/

/-- The jobs a job depends on; none for an identity that is not in the table. -/
def JobTable.dependencies (jobs : JobTable) (id : JobId) : List JobId :=
  ((jobs.find id).map MaintenanceJob.depends_on).getD []

namespace Controller

/-- What a verdict of the search is to the caller. -/
def dependency_status (dependency : JobId) : Verdict → Status
  | .clear => ok_status
  | .cyclic => .error (make_error .StateConflict (text "dependency graph containing " ++
      dependency.to_string ++ text " is cyclic"))
  | .exhausted =>
      .error (make_error .StateConflict (text "dependency graph exceeds the search budget"))

theorem expand_node_eq (dependency : JobId) (nodes : List JobId) (walk : List JobId × List JobId) :
    expand_node dependency nodes walk =
      if dependency ∈ nodes then
        .error (make_error .StateConflict (text "dependency graph containing " ++
          dependency.to_string ++ text " is cyclic"))
      else .ok (discover nodes walk) := by
  induction nodes generalizing walk with
  | nil =>
    obtain ⟨frontier, seen⟩ := walk
    rfl
  | cons node nodes ih =>
    obtain ⟨frontier, seen⟩ := walk
    unfold expand_node discover
    by_cases hnode : node = dependency
    · rw [if_pos hnode, if_pos (by simp [hnode])]
    · have hmem : dependency ∈ node :: nodes ↔ dependency ∈ nodes := by
        rw [List.mem_cons, or_iff_right (fun h => hnode h.symm)]
      rw [if_neg hnode]
      by_cases hseen : node ∈ seen
      · simp only [if_pos hseen, ih, hmem]
      · simp only [if_neg hseen, ih, hmem]

/-- The walk of the controller is the search. -/
theorem walk_dependencies_eq (jobs : JobTable) (dependency : JobId) (budget : Nat)
    (frontier seen : List JobId) :
    walk_dependencies jobs dependency budget frontier seen =
      dependency_status dependency
        (search jobs.dependencies dependency budget frontier seen) := by
  induction budget generalizing frontier seen with
  | zero => cases frontier <;> rfl
  | succ budget ih =>
    cases frontier with
    | nil => rfl
    | cons current frontier =>
      unfold walk_dependencies search
      cases hfind : jobs.find current with
      | none =>
        -- `if (node == nullptr) continue;`: a job that is gone has no dependencies.
        have hnone : jobs.dependencies current = [] := by simp [JobTable.dependencies, hfind]
        simp only [hnone, List.not_mem_nil, if_false]
        exact ih frontier seen
      | some node =>
        have hsome : jobs.dependencies current = node.depends_on := by
          simp [JobTable.dependencies, hfind]
        simp only [hsome, expand_node_eq]
        by_cases hcycle : dependency ∈ node.depends_on
        · rw [if_pos hcycle, if_pos hcycle]
          rfl
        · rw [if_neg hcycle, if_neg hcycle]
          exact ih _ _

end Controller

/-! ## Graphs without a cycle -/

/-- What a job depends on is in the table, and never leads back to it. -/
structure JobTable.Founded (jobs : JobTable) : Prop where
  known : ∀ {id d}, d ∈ jobs.dependencies id → (jobs.find d).isSome
  acyclic : ∀ id, ¬ Cyclic jobs.dependencies id

/-- The next table: dependencies stay, and a new job depends on jobs that were there. -/
structure JobTable.Grows (jobs jobs' : JobTable) : Prop where
  stays : ∀ {id}, (jobs.find id).isSome → (jobs'.find id).isSome
  keeps : ∀ {id}, (jobs.find id).isSome → jobs'.dependencies id = jobs.dependencies id
  fresh : ∀ {id d}, jobs.find id = none → d ∈ jobs'.dependencies id → (jobs.find d).isSome

namespace JobTable

variable {jobs jobs' : JobTable}

/-- From a job that was there, the paths are the old ones. -/
theorem Grows.below (h : jobs.Grows jobs') (hfounded : jobs.Founded) {id d : JobId}
    (hid : (jobs.find id).isSome) (hbelow : Below jobs'.dependencies id d) :
    (jobs.find d).isSome ∧ Below jobs.dependencies id d := by
  induction hbelow with
  | refl => exact ⟨hid, .refl⟩
  | tail _ hlast ih =>
    obtain ⟨hknown, hpath⟩ := ih
    rw [h.keeps hknown] at hlast
    exact ⟨hfounded.known hlast, hpath.tail hlast⟩

theorem Founded.grow (hfounded : jobs.Founded) (h : jobs.Grows jobs') : jobs'.Founded where
  known := by
    intro id d hd
    by_cases hid : (jobs.find id).isSome
    · rw [h.keeps hid] at hd
      exact h.stays (hfounded.known hd)
    · exact h.stays (h.fresh (by simpa using hid) hd)
  acyclic := by
    intro id hcycle
    -- The first step of a cycle leads to a job that was there, and from there no path is new.
    obtain ⟨d, hfirst, hback⟩ := Relation.TransGen.head'_iff.mp hcycle
    have hd : (jobs.find d).isSome := by
      by_cases hid : (jobs.find id).isSome
      · rw [h.keeps hid] at hfirst
        exact hfounded.known hfirst
      · exact h.fresh (by simpa using hid) hfirst
    obtain ⟨hid, hpath⟩ := h.below hfounded hd hback
    rw [h.keeps hid] at hfirst
    exact hfounded.acyclic id (Relation.TransGen.head' hfirst hpath)

theorem founded_empty : ({} : JobTable).Founded where
  known := by
    intro id d hd
    cases hd
  acyclic := by
    intro id hcycle
    obtain ⟨d, hfirst, _⟩ := Relation.TransGen.head'_iff.mp hcycle
    cases hfirst

end JobTable

/-! ## Newcomers -/

namespace Controller

/-- A dependency that passes the check is in the table. -/
theorem check_dependency_known {jobs : JobTable} {d : JobId} {u : Unit}
    (h : check_dependency jobs d = .ok u) : (jobs.find d).isSome := by
  unfold check_dependency at h
  split at h
  · cases h
  · next j hfind => simp [hfind]

/-- A proposal adds nothing, or a job with the dependencies it names, all of which are there. -/
theorem dependencies_propose (c : Controller) (request : MaintenanceRequest) (actor : Text)
    (clock : Nanos) {j' : MaintenanceJob}
    (hj' : j' ∈ (c.propose request actor clock).2.world.jobs.rows)
    (hnew : j' ∉ c.world.jobs.rows) : ∀ d ∈ j'.depends_on, (c.world.jobs.find d).isSome := by
  unfold Controller.propose at hj'
  split at hj'
  · exact absurd hj' hnew
  · next hcheck =>
    obtain ⟨_, _, hrest⟩ := Result.bind_eq_ok.mp hcheck
    obtain ⟨_, _, hall⟩ := Result.bind_eq_ok.mp hrest
    rcases Store.create_job_cases c.store (c.proposed_job request actor clock) with
      hb | ⟨id, _, _, hb⟩
    · have hjobs := congrArg (fun b => b.jobs) hb
      exact absurd (hjobs ▸ hj') hnew
    · have hjobs := congrArg (fun b => b.jobs) hb
      have hmem : j' ∈ (c.store.create_job
        (c.proposed_job request actor clock)).2.books.jobs.rows :=
        hj'
      rw [hjobs] at hmem
      rcases Table.mem_put.mp hmem with rfl | ⟨hmem, _⟩
      · intro d hd
        exact check_dependency_known (check_all_ok hall d hd)
      · exact absurd hmem hnew

end Controller

/-! ## Runs -/

namespace System

variable {s : System} {e : Event}

/-- Only a proposal adds a job. -/
theorem rows_known (hlabel : ∀ request actor clock, e.label ≠ .propose request actor clock)
    {j' : MaintenanceJob} (hj' : j' ∈ (s.step e).ctl.world.jobs.rows) :
    ∃ j ∈ s.ctl.world.jobs.rows, j'.id = j.id := by
  have hserved : ∀ {c c' : Controller}, Controller.Serves c c' → j' ∈ c'.world.jobs.rows →
      ∃ j ∈ c.world.jobs.rows, j'.id = j.id := by
    intro c c' hserves hj'
    obtain ⟨j, hj, hcarries⟩ := hserves.jobs j' hj'
    exact ⟨j, hj, hcarries.id⟩
  have hsame : ∀ {jobs jobs' : Table MaintenanceJob.id}, jobs' = jobs → j' ∈ jobs'.rows →
      ∃ j ∈ jobs.rows, j'.id = j.id := by
    rintro jobs _ rfl hj'
    exact ⟨j', hj', rfl⟩
  have hdid := s.step_did e
  have hjobs : (under s.ctl e.verdicts).world.jobs = s.ctl.world.jobs := rfl
  rw [← hjobs]
  generalize s.step e = s' at hdid hj'
  generalize hc : under s.ctl e.verdicts = c at hdid ⊢
  cases hdid with
  | nothing => exact ⟨j', hj', rfl⟩
  | @restarted options clock steady label =>
    have hj' : j' ∈ (Controller.open c.store options clock steady).2.world.jobs.rows := hj'
    rcases Controller.open_cases c.store options clock steady with
      ⟨_, _, hopened, _⟩ | ⟨c₁, _, hboots, hopen⟩
    · exact hsame hopened hj'
    · rw [hopen] at hj'
      obtain ⟨j, hj, hid⟩ := hserved (c₁.serves_reconcile_locked clock) hj'
      rw [hboots.jobs] at hj
      exact ⟨j, hj, hid⟩
  -- A job that is driven keeps its id, also where a stale attempt is rebound first.
  | @drove p id rest label up pass remaining =>
    rcases Controller.rows_drive_locked c id (p.context c) p.actions hj' with
      hkept | ⟨j, hj, hcarries⟩
    · exact ⟨j', hkept, rfl⟩
    · refine ⟨j, Table.mem_of_find hj, hcarries.id.trans ?_⟩
      unfold Controller.rebound
      split <;> rfl
  | @closed p _ _ _ _ =>
    refine hserved ((c.serves_arbitrate_locked (p.context c)).trans ?_) hj'
    exact .of_frame ⟨rfl, rfl, rfl, rfl, .refl _⟩ rfl
  | ticked _ _ _ _ => exact ⟨j', hj', rfl⟩
  | @began thread t _ _ _ _ _ =>
    refine hsame ?_ hj'
    rcases c.store.expire_authority_books t.now with hb | hb <;>
      exact congrArg (fun b => b.jobs) hb
  | marked _ _ _ _ _ =>
    refine hsame ?_ hj'
    show (Controller.world (if _ then _ else _)).jobs = _
    split <;> rfl
  | @answered _ _ t action _ _ _ _ _ _ _ =>
    exact hserved (c.serves_apply_outcome action _ t.now) hj'
  | finished _ _ _ _ _ => exact ⟨j', hj', rfl⟩
  | @called ctl _ _ call =>
    by_cases htopology : ∃ t, e.label = .set_topology t
    · obtain ⟨t, label⟩ := htopology
      rw [label] at call
      cases call
      exact hsame (congrArg (fun w => w.jobs) (Controller.world_set_topology c t)) hj'
    by_cases hpolicy : ∃ p, e.label = .set_policy p
    · obtain ⟨p, label⟩ := hpolicy
      rw [label] at call
      cases call
      exact hsame (congrArg (fun w => w.jobs) (Controller.world_set_policy c p)) hj'
    exact hserved (Controller.serves_call call (fun t label => htopology ⟨t, label⟩)
      (fun p label => hpolicy ⟨p, label⟩) hlabel) hj'

/-- A call takes place while the process runs and nobody holds the lock. -/
theorem step_propose {request : MaintenanceRequest} {actor : Text} {clock : Nanos}
    (label : e.label = .propose request actor clock) :
    s.step e = { s with
      ctl := (if s.up && s.pass.isNone then ((under s.ctl e.verdicts).propose request actor clock).2
        else under s.ctl e.verdicts) } := by
  unfold step
  simp only [label]
  cases up : s.up with
  | false => rfl
  | true =>
    cases pass : s.pass with
    | none => rfl
    | some p => rfl

theorem job_of_row {j : MaintenanceJob} (hj : j ∈ s.ctl.world.jobs.rows) : s.job j.id = some j :=
  Table.find_iff_mem.mpr hj

/-- One step: the graph grows by the job of a proposal at most. -/
theorem Sound.grows (h : s.Sound) (e : Event) :
    s.ctl.store.state.jobs.Grows (s.step e).ctl.store.state.jobs := by
  have hlater : ∀ {id j}, s.job id = some j →
      ∃ j', (s.step e).job id = some j' ∧ j'.depends_on = j.depends_on := by
    intro id j hj
    obtain ⟨j', hj', hadvance⟩ := (changes_step h e).advance h.world hj
    exact ⟨j', hj', hadvance.request.2.1⟩
  refine ⟨?_, ?_, ?_⟩
  · intro id hid
    obtain ⟨j, hj⟩ := Option.isSome_iff_exists.mp hid
    obtain ⟨j', hj', _⟩ := hlater hj
    exact Option.isSome_iff_exists.mpr ⟨j', hj'⟩
  · intro id hid
    obtain ⟨j, hj⟩ := Option.isSome_iff_exists.mp hid
    obtain ⟨j', hj', hsame⟩ := hlater hj
    unfold JobTable.dependencies
    rw [show JobTable.find _ id = some j from hj, show JobTable.find _ id = some j' from hj']
    exact hsame
  · intro id d hid hd
    cases hj' : (s.step e).job id with
    | none =>
      unfold JobTable.dependencies at hd
      rw [show JobTable.find _ id = none from hj'] at hd
      cases hd
    | some j' =>
      unfold JobTable.dependencies at hd
      rw [show JobTable.find _ id = some j' from hj'] at hd
      have hkey : j'.id = id := Table.key_of_find hj'
      have hrow : j' ∈ (s.step e).ctl.world.jobs.rows := Table.mem_of_find hj'
      have hnew : ∀ j ∈ s.ctl.world.jobs.rows, j'.id ≠ j.id := by
        intro j hj hsame
        have hfind := job_of_row hj
        rw [← hsame, hkey] at hfind
        rw [show s.job id = none from hid] at hfind
        cases hfind
      -- The job was not there before, so the step was its proposal: nothing else adds one.
      by_cases hpropose : ∃ request actor clock, e.label = .propose request actor clock
      · obtain ⟨request, actor, clock, label⟩ := hpropose
        have hunlisted : j' ∉ (under s.ctl e.verdicts).world.jobs.rows := fun hj => hnew j' hj rfl
        rw [step_propose label] at hrow
        by_cases henabled : (s.up && s.pass.isNone) = true
        · rw [if_pos henabled] at hrow
          exact Controller.dependencies_propose _ request actor clock hrow hunlisted d hd
        · rw [if_neg henabled] at hrow
          exact absurd hrow hunlisted
      · have hlabel : ∀ request actor clock, e.label ≠ .propose request actor clock :=
          fun request actor clock label => hpropose ⟨request, actor, clock, label⟩
        obtain ⟨j, hj, hsame⟩ := rows_known hlabel hrow
        exact absurd hsame (hnew j hj)

theorem founded_run (events : List Event) :
    (initial.run events).ctl.store.state.jobs.Founded := by
  have hinitial : initial.Sound ∧ initial.ctl.store.state.jobs.Founded :=
    ⟨sound_initial, JobTable.founded_empty⟩
  refine (run_invariant (I := fun s : System => s.Sound ∧ s.ctl.store.state.jobs.Founded) ?_ events
    hinitial).2
  rintro s e ⟨hsound, hfounded⟩
  exact ⟨hsound.step e, hfounded.grow (hsound.grows e)⟩

/-- One job waits for another. -/
def Awaits (s : System) (waiting awaited : JobId) : Prop :=
  ∃ j, s.job waiting = some j ∧ awaited ∈ j.depends_on

theorem awaits_iff {waiting awaited : JobId} :
    s.Awaits waiting awaited ↔ awaited ∈ s.ctl.store.state.jobs.dependencies waiting := by
  unfold Awaits JobTable.dependencies
  rw [show s.job waiting = JobTable.find _ waiting from rfl]
  cases JobTable.find s.ctl.store.state.jobs waiting with
  | none => simp
  | some j => simp

/-- In every reachable state the jobs that a job waits for are there, and no chain of them leads
    back to it; what a job waits for is settled by its proposal. -/
theorem nobody_waits_in_a_circle (events : List Event) :
    (∀ waiting awaited, (initial.run events).Awaits waiting awaited →
      ∃ other, (initial.run events).job awaited = some other) ∧
    (∀ id, ¬ Relation.TransGen (initial.run events).Awaits id id) ∧
    ∀ id j, (initial.run events).job id = some j → ∀ more, ∃ j',
      (initial.run (events ++ more)).job id = some j' ∧ j'.depends_on = j.depends_on := by
  have hfounded := founded_run events
  refine ⟨?_, ?_, ?_⟩
  · intro waiting awaited hawaits
    exact Option.isSome_iff_exists.mp (hfounded.known (awaits_iff.mp hawaits))
  · intro id hcircle
    exact hfounded.acyclic id (Relation.TransGen.mono (fun _ _ => awaits_iff.mp) _ _ hcircle)
  · intro id j hj more
    obtain ⟨j', hj', hadvance⟩ := (sound_run events).advance_run more hj
    rw [run_append]
    exact ⟨j', hj', hadvance.request.2.1⟩

/-- The check of a proposed dependency lets through exactly the jobs that are there and lead to no
    more jobs than the search may visit. -/
theorem dependency_check_exact (events : List Event) (d : JobId) :
    Controller.check_dependency (initial.run events).ctl.store.state.jobs d = .ok () ↔
      (∃ other, (initial.run events).job d = some other) ∧
      ∃ reached : List JobId, reached.Nodup ∧
        (∀ id, id ∈ reached ↔ Relation.ReflTransGen (initial.run events).Awaits d id) ∧
        reached.length ≤ limits.kMaxDependenciesPerJob * limits.kMaxDependenciesPerJob := by
  have hacyclic := (founded_run events).acyclic d
  have hbelow : ∀ id, Below (initial.run events).ctl.store.state.jobs.dependencies d id ↔
      Relation.ReflTransGen (initial.run events).Awaits d id := by
    intro id
    have hstep : (initial.run events).Awaits =
        fun a x => x ∈ (initial.run events).ctl.store.state.jobs.dependencies a := by
      funext a x
      exact propext awaits_iff
    rw [hstep]
    rfl
  have hsearch := search_clear_iff hacyclic
    (limits.kMaxDependenciesPerJob * limits.kMaxDependenciesPerJob)
  simp only [hbelow] at hsearch
  unfold Controller.check_dependency
  cases hfind : (initial.run events).ctl.store.state.jobs.find d with
  | none =>
    have hnone : (initial.run events).job d = none := hfind
    simp [hnone]
  | some j =>
    have hsome : (initial.run events).job d = some j := hfind
    simp only [Controller.walk_dependencies_eq, hsome, Option.some.injEq, exists_eq', true_and]
    rw [← hsearch]
    -- Only a clear verdict is turned into ok.
    cases search _ d (limits.kMaxDependenciesPerJob * limits.kMaxDependenciesPerJob) [d] [d] with
    | clear => simp [Controller.dependency_status, ok_status]
    | cyclic => simp [Controller.dependency_status]
    | exhausted => simp [Controller.dependency_status]

end System

end MaintenanceFabric
