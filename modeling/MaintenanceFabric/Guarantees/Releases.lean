import MaintenanceFabric.Guarantees.Blocks

/-! # Releases

    A release that is under way is in `queued_releases`: the sweep and the
    restoring jobs look there before they ask for one, and everybody who asks
    for one leaves a mark, with one exception.  A job that is blocked or failed
    by a pass gives its lease back without a mark, and the sweep at the end of
    the same pass takes the lease for an orphan.
-/

namespace MaintenanceFabric

open Lib

/-! ## Counting -/

namespace System

/-- Is this a release of the lease? -/
def releases (lease : DrainLeaseId) (a : DrainAction) : Bool :=
  decide (a.kind = .Release ∧ a.lease = lease)

/-- A lease has at most one release under way, and that one is marked. -/
def Queued (s : System) : Prop :=
  ∀ lease, s.emitted.countP (releases lease) ≤ if lease ∈ s.ctl.queued_releases then 1 else 0

theorem countP_other {new : List DrainAction} {lease : DrainLeaseId}
    (h : ∀ a ∈ new, a.kind = .Release → a.lease ≠ lease) : new.countP (releases lease) = 0 := by
  rw [List.countP_eq_zero]
  intro a ha hreleases
  simp only [releases, decide_eq_true_eq] at hreleases
  exact h a ha hreleases.1 hreleases.2

/-- Releases of unmarked leases may come, one for each, if they are marked. -/
theorem Queued.grow {s s' : System} (h : s.Queued) {new : List DrainAction}
    (hcount : ∀ lease, s'.emitted.countP (releases lease) =
      s.emitted.countP (releases lease) + new.countP (releases lease))
    (hkept : ∀ lease ∈ s.ctl.queued_releases, lease ∈ s'.ctl.queued_releases)
    (hone : ∀ lease, new.countP (releases lease) ≤ 1)
    (hmarked : ∀ a ∈ new, a.kind = .Release →
      a.lease ∉ s.ctl.queued_releases ∧ a.lease ∈ s'.ctl.queued_releases) : s'.Queued := by
  intro lease
  rw [hcount]
  have hbefore := h lease
  by_cases hnew : ∃ a ∈ new, a.kind = .Release ∧ a.lease = lease
  · obtain ⟨a, ha, hkind, rfl⟩ := hnew
    obtain ⟨hfresh, hmark⟩ := hmarked a ha hkind
    have honce := hone a.lease
    rw [if_neg hfresh] at hbefore
    rw [if_pos hmark]
    omega
  · rw [countP_other (fun a ha hkind heq => hnew ⟨a, ha, hkind, heq⟩), Nat.add_zero]
    refine hbefore.trans ?_
    by_cases hqueued : lease ∈ s.ctl.queued_releases
    · rw [if_pos hqueued, if_pos (hkept lease hqueued)]
    · rw [if_neg hqueued]
      exact Nat.zero_le _

theorem Queued.add {s s' : System} (h : s.Queued) {new : List DrainAction}
    (hemitted : s'.emitted.Perm (s.emitted ++ new))
    (hkept : ∀ lease ∈ s.ctl.queued_releases, lease ∈ s'.ctl.queued_releases)
    (hone : ∀ lease, new.countP (releases lease) ≤ 1)
    (hmarked : ∀ a ∈ new, a.kind = .Release →
      a.lease ∉ s.ctl.queued_releases ∧ a.lease ∈ s'.ctl.queued_releases) : s'.Queued :=
  h.grow (fun _ => by rw [hemitted.countP_eq, List.countP_append]) hkept hone hmarked

end System

/-! ## Drives -/

namespace Drive

/-- The drive takes away the lease of a job that holds one: it blocks the job, or fails it. -/
def retires (d : Drive) (context : PassContext) : Bool :=
  d.job.lease.valid && !(d.drive_state context).2.job.lease.valid

/-- A restoring job whose lease is marked asks for nothing. -/
theorem drive_state_marked {d : Drive} (context : PassContext) (state : d.job.state = .Restoring)
    (held : d.job.lease.valid = true) (marked : d.job.lease ∈ d.ctl.queued_releases) :
    (d.drive_state context).2 = d := by
  unfold drive_state drive_restoring_locked request_release
  simp only [state, held, if_true]
  rw [if_pos (.inr marked)]

/-- A drive that does not retire its job releases a lease only if it is unmarked, and marks it. -/
theorem asked_unretired (d : Drive) (context : PassContext) (h : d.retires context = false) :
    ∃ new, (d.drive_state context).2.actions = d.actions.map (· ++ new) ∧ new.length ≤ 1 ∧
      (∀ lease ∈ d.ctl.queued_releases, lease ∈ (d.drive_state context).2.ctl.queued_releases) ∧
      ∀ a ∈ new, a.kind = .Release → a.lease ∉ d.ctl.queued_releases ∧
        a.lease ∈ (d.drive_state context).2.ctl.queued_releases := by
  have hmarked := d.drive_state_marked context
  unfold retires at h
  have hasked := asked_state d context
  generalize d.drive_state context = out at h hasked hmarked ⊢
  cases hasked with
  | nothing marks actions _ =>
    refine ⟨[], ?_, Nat.zero_le _, fun lease hlease => marks.queued ▸ hlease,
      fun _ ha => by cases ha⟩
    rw [actions]
    simp
  | retired _ held _ lease _ =>
    rw [held, lease] at h
    cases h
  | requested _ _ _ _ _ _ queued actions =>
    refine ⟨_, actions, Nat.le_refl _, fun lease hlease => queued ▸ hlease, ?_⟩
    intro a ha hkind
    rw [List.mem_singleton.mp ha] at hkind
    cases hkind
  -- A release is recalled only for a lease without a mark, and marks it.
  | @recalled d' _ state held _ queued actions =>
    refine ⟨_, actions, Nat.le_refl _, ?_, ?_⟩
    · intro lease hlease
      show lease ∈ d'.ctl.queued_releases
      rw [queued]
      exact List.mem_append_left _ hlease
    · intro a ha _
      rw [List.mem_singleton.mp ha]
      refine ⟨?_, ?_⟩
      · intro hqueued
        have hsame : d' = d := hmarked state held hqueued
        rw [hsame, List.self_eq_append_right] at queued
        cases queued
      · show d.job.lease ∈ d'.ctl.queued_releases
        rw [queued]
        exact List.mem_append_right _ List.mem_cons_self

end Drive

namespace Controller

/-- The same for the job of a pass, which commits it. -/
theorem drive_locked_releases (c : Controller) (id : JobId) (context : PassContext)
    (actions : List DrainAction)
    (h : ∀ j, c.world.jobs.find id = some j →
      Drive.retires { ctl := c, job := j, actions := some actions } context = false) :
    ∃ new, (c.drive_locked id context actions).2 = actions ++ new ∧ new.length ≤ 1 ∧
      (∀ lease ∈ c.queued_releases,
        lease ∈ (c.drive_locked id context actions).1.queued_releases) ∧
      ∀ a ∈ new, a.kind = .Release → a.lease ∉ c.queued_releases ∧
        a.lease ∈ (c.drive_locked id context actions).1.queued_releases := by
  have hnothing : ∃ new, actions = actions ++ new ∧ new.length ≤ 1 ∧
      (∀ lease ∈ c.queued_releases, lease ∈ c.queued_releases) ∧
      ∀ a ∈ new, a.kind = .Release → a.lease ∉ c.queued_releases ∧ a.lease ∈ c.queued_releases :=
    ⟨[], by simp, Nat.zero_le _, fun _ hlease => hlease, fun _ ha => by cases ha⟩
  unfold drive_locked
  split
  · exact hnothing
  · next j hfind =>
    split
    · exact hnothing
    · obtain ⟨new, hactions, hlength, hkept, hmarked⟩ :=
        Drive.asked_unretired { ctl := c, job := j, actions := some actions } context (h j hfind)
      simp only at hactions hkept hmarked ⊢
      generalize Drive.drive_state { ctl := c, job := j, actions := some actions } context = out
        at hactions hkept hmarked ⊢
      -- The commit that ends a drive queues nothing.
      have hqueued : (if out.1 = true then (out.2.ctl.commit_job_locked out.2.job context.now).2
          else out.2.ctl).queued_releases = out.2.ctl.queued_releases := by
        split
        · exact (Drive.unmarked_commit _ _ _).queued
        · rfl
      refine ⟨new, ?_, hlength, ?_, ?_⟩
      · rw [hactions]
        rfl
      · rw [hqueued]
        exact hkept
      · rw [hqueued]
        exact hmarked

/-! ## Sweeps, calls and answers -/

theorem mem_orphans {c : Controller} {l : DrainLease} (h : l ∈ c.orphans) :
    l.id ∉ c.queued_releases := by
  unfold orphans at h
  have hfree := (List.mem_filter.mp h).2
  simp only [Bool.not_eq_true', Bool.or_eq_false_iff, decide_eq_false_iff_not] at hfree
  exact hfree.2

/-- A sweep asks once for each orphan. -/
theorem countP_orphans (c : Controller) (lease : DrainLeaseId) :
    (c.orphans.map System.orphan_release).countP (System.releases lease) ≤ 1 := by
  have hnodup : (c.orphans.map DrainLease.id).Nodup :=
    c.store.state.leases.nodup_keys.sublist (List.filter_sublist.map _)
  have hcount : (c.orphans.map System.orphan_release).countP (System.releases lease) =
      (c.orphans.map DrainLease.id).count lease := by
    rw [List.count, List.countP_map, List.countP_map]
    refine List.countP_congr ?_
    intro l _
    simp [System.releases, System.orphan_release]
  rw [hcount]
  exact List.nodup_iff_count_le_one.mp hnodup lease

/-- An answer asks for one release at most. -/
theorem Answered.added_length {c c' : Controller} {action : DrainAction} {response : DrainResponse}
    (h : Answered c action response c') {new : List DrainAction}
    (hnew : c'.deferred_releases = c.deferred_releases ++ new) : new.length ≤ 1 := by
  have hnone : c'.deferred_releases = c.deferred_releases → new.length ≤ 1 := by
    intro hsame
    rw [hsame, List.self_eq_append_right] at hnew
    rw [hnew]
    exact Nat.zero_le _
  cases h with
  | kept _ _ _ deferred => exact hnone deferred
  | gone _ _ _ deferred => exact hnone deferred
  | failed _ _ _ _ deferred => exact hnone deferred
  | granted _ _ _ _ _ deferred => exact hnone deferred
  | stale _ _ _ deferred =>
    rw [hnew, List.append_cancel_left_eq] at deferred
    rw [deferred]
    split
    · exact Nat.le_refl _
    · exact Nat.zero_le _

theorem queued_apply_granted (c : Controller) (current : MaintenanceJob) (lease : DrainLease)
    (now : Nanos) : (c.apply_granted current lease now).queued_releases = c.queued_releases := by
  have hdrained : ∀ (c : Controller) (job : MaintenanceJob) (drained : Bool),
      Drive.Unmarked c (c.record_drain job drained now) := by
    intro c job drained
    unfold record_drain
    apply Drive.Unmarked.foldl
    intro c target
    exact ⟨rfl, rfl⟩
  unfold apply_granted
  split
  · rfl
  · split
    · rfl
    · simp only
      rw [(Drive.unmarked_commit _ _ _).queued]
      split
      · exact (hdrained _ _ _).queued
      · rfl

/-- The mark goes with the release, and comes with the lease nobody waits for. -/
theorem queued_apply_outcome (c : Controller) (action : DrainAction) (response : DrainResponse)
    (now : Nanos) :
    (action.kind = .Release → (c.apply_outcome action response now).queued_releases =
      c.queued_releases.filter (· ≠ action.lease)) ∧
    (action.kind = .Request →
      (c.apply_outcome action response now).queued_releases =
        if (c.unmark action).drain_stale action && (Status.isOk response.status &&
            (granted_lease action response).valid)
        then push_unique c.queued_releases (granted_lease action response)
        else c.queued_releases) := by
  have hunmarked : (c.unmark action).queued_releases = c.queued_releases := rfl
  rw [apply_outcome_eq, ← hunmarked]
  generalize c.unmark action = c₁
  refine ⟨?_, ?_⟩
  · intro hkind
    rw [hkind]
    unfold apply_release
    simp only
    split
    · unfold forget_lease
      split
      · rfl
      · exact (Drive.unmarked_commit _ _ _).queued
    · rfl
  -- Only an answer that comes too late with a lease of its own adds a mark.
  · intro hkind
    rw [hkind]
    simp only
    split
    · next hstale =>
      rw [hstale, Bool.true_and]
      unfold apply_stale
      split <;> rfl
    · next hcurrent =>
      rw [Bool.eq_false_iff.mpr hcurrent, Bool.false_and, if_neg Bool.false_ne_true]
      split
      · rfl
      · split
        · exact (leaves_apply_failure _ _ _ _).queued
        · exact queued_apply_granted _ _ _ _

/-! ## Restarts -/

/-- A job whose lease a restart gives back. -/
def reclaimed (j : MaintenanceJob) : Bool :=
  !(j.is_terminal || decide (j.state = .Proposed) || decide (j.state = .Validated)) &&
    !j.service_removed && j.lease.valid

/-- The loop of a restart, after the jobs that are done: one marked release for each of them at
    most. -/
structure Listed (done : List MaintenanceJob) (r : Reconciling) : Prop where
  leases : (r.releases.map DrainAction.lease).Sublist
    ((done.filter reclaimed).map MaintenanceJob.lease)
  marked : ∀ a ∈ r.releases, a.lease ∈ r.ctl.queued_releases

theorem queued_reblocked (c : Controller) (job : MaintenanceJob) (removed : Bool) (now : Nanos) :
    (c.reblocked job removed now).2.ctl.queued_releases = c.queued_releases := by
  unfold reblocked
  split
  · exact (Drive.transition_asks { ctl := c, job } _ _ _ _).1.queued
  · rfl

theorem Listed.step {done : List MaintenanceJob} {r : Reconciling} (h : Listed done r)
    (j : MaintenanceJob) (now : Nanos) : Listed (done ++ [j]) (reconcile_job r j now) := by
  have hgrown : (r.releases.map DrainAction.lease).Sublist
      (((done ++ [j]).filter reclaimed).map MaintenanceJob.lease) := by
    rw [List.filter_append, List.map_append]
    exact h.leases.trans (List.sublist_append_left _ _)
  rw [reconcile_job_eq]
  by_cases hneeds : r.ctl.needs_reconciling j = true
  · rw [if_pos hneeds]
    have hcopied : Listed (done ++ [j])
        { r with ctl := (r.copied j now).2.1, releases := (r.copied j now).2.2 } := by
      unfold Reconciling.copied
      split
      · refine ⟨hgrown, ?_⟩
        simp only [reissue]
        split <;> exact h.marked
      · next hkept =>
        unfold abandon_lease
        simp only
        split
        · next hvalid =>
          have hreclaimed : reclaimed j = true := by
            unfold needs_reconciling at hneeds
            unfold reclaimed
            simp only [Bool.not_eq_true', Bool.or_eq_false_iff] at hneeds
            rw [hneeds.1.1.1, hneeds.1.2, hneeds.2, Bool.eq_false_iff.mpr hkept]
            exact hvalid
          refine ⟨?_, ?_⟩
          · rw [List.map_append, List.filter_append, List.map_append,
              List.filter_cons_of_pos hreclaimed]
            exact h.leases.append (List.Sublist.refl _)
          · intro a ha
            rcases List.mem_append.mp ha with ha | ha
            · exact mem_push_unique.mpr (.inl (h.marked a ha))
            · rw [List.mem_singleton.mp ha]
              exact mem_push_unique.mpr (.inr rfl)
        · exact ⟨hgrown, h.marked⟩
    -- Blocking the copy marks nothing.
    have hqueued := queued_reblocked (r.copied j now).2.1 (r.copied j now).1 j.service_removed now
    exact ⟨hcopied.leases, fun a ha => hqueued ▸ hcopied.marked a ha⟩
  · rw [if_neg hneeds]
    exact ⟨hgrown, h.marked⟩

theorem Listed.loop (now : Nanos) (jobs : List MaintenanceJob) {done : List MaintenanceJob}
    {r : Reconciling} (h : Listed done r) :
    Listed (done ++ jobs) (jobs.foldl (fun r job => reconcile_job r job now) r) := by
  induction jobs generalizing done r with
  | nil => simpa using h
  | cons j jobs ih =>
    rw [List.append_cons]
    exact ih (h.step j now)

/-- What a restart asks for is marked, and comes from one job each. -/
structure Relists (store : Store) (c : Controller) : Prop where
  leases : (c.deferred_releases.map DrainAction.lease).Sublist
    ((store.state.jobs.jobs.rows.filter reclaimed).map MaintenanceJob.lease)
  marked : ∀ a ∈ c.deferred_releases, a.lease ∈ c.queued_releases

theorem relists_nothing {store : Store} {c : Controller} (h : c.deferred_releases = []) :
    Relists store c := by
  refine ⟨?_, ?_⟩
  · rw [h]
    exact List.nil_sublist _
  · rw [h]
    exact fun _ ha => by cases ha

theorem relists_reconcile_locked (c : Controller) (now : Nanos)
    (hdeferred : c.deferred_releases = []) :
    Relists c.store (c.reconcile_locked now).2 := by
  have hjobs : (c.store.fence_authority c.incarnation).state.jobs.jobs =
    c.store.state.jobs.jobs := by
    show (c.store.fence_authority c.incarnation).books.jobs = c.store.books.jobs
    rcases c.store.fence_authority_books c.incarnation with hb | hb <;> rw [hb]
  have hframe :=
    reclaiming_loop (c := { c with store := c.store.fence_authority c.incarnation }) now
    (c.store.fence_authority c.incarnation).state.jobs.jobs.rows
    { ctl := { c with store := c.store.fence_authority c.incarnation } }
    ⟨rfl, .refl _, fun _ h => by cases h⟩ (fun j hj => Table.find_iff_mem.mpr hj)
  -- The loop starts with nothing listed, and lists one release at most for each job.
  have hstart : Listed [] { ctl := { c with store := c.store.fence_authority c.incarnation } } :=
    ⟨List.nil_sublist _, fun _ h => by cases h⟩
  have hlisted := hstart.loop now (c.store.fence_authority c.incarnation).state.jobs.jobs.rows
  rw [List.nil_append, hjobs] at hlisted
  rw [hjobs] at hframe
  unfold reconcile_locked
  simp only
  rw [hjobs]
  generalize c.store.state.jobs.jobs.rows.foldl _ _ = r at hlisted hframe ⊢
  have hnone : r.ctl.deferred_releases = [] := hframe.frame.deferred.trans hdeferred
  split
  · refine ⟨?_, ?_⟩
    · simp only [hnone, List.nil_append]
      exact hlisted.leases
    · simp only [hnone, List.nil_append]
      exact hlisted.marked
  · split
    · exact relists_nothing hnone
    · refine ⟨?_, ?_⟩
      · simp only [hnone, List.nil_append]
        exact hlisted.leases
      · simp only [hnone, List.nil_append]
        exact hlisted.marked

theorem relists_open (store : Store) (options : ControllerOptions) (clock : Nanos) (steady : Nat) :
    Relists store (Controller.open store options clock steady).2 := by
  unfold Controller.open
  simp only
  generalize hrecovered : ({ state := recovered store.state options, verdicts := store.verdicts
                             log := store.log, digests := store.digests } : Store) = found
  have hjobs : found.state.jobs.jobs = store.state.jobs.jobs := by rw [← hrecovered]; rfl
  have hstate := found.begin_incarnation_leases options.controller_id options.nonce steady
  split
  · exact relists_nothing rfl
  · next incarnation s heq =>
    rw [heq] at hstate
    have hrelists := relists_reconcile_locked
      { store := s, incarnation, policy := s.state.policy, topology := s.state.topology } clock rfl
    refine ⟨?_, hrelists.marked⟩
    rw [← hjobs, ← hstate.2]
    exact hrelists.leases

end Controller

namespace System

variable {s : System} {e : Event}

/-! ## Steps -/

/-- A lease that is given back without a look at the marks is not marked: a drive does not retire
    its job, nobody retracts a job whose lease is on its way out, the port does not grant such a
    lease to a fenced attempt, and a restart finds no lease with two jobs. -/
structure Marked (s : System) (e : Event) : Prop where
  drives : ∀ d ∈ s.driving e, Drive.retires
    { ctl := under s.ctl e.verdicts, job := d.2, actions := some d.1.actions }
    (d.1.context (under s.ctl e.verdicts)) = false
  calls : ∀ job ∈ e.label.retracts, ∀ j ∈ s.job job,
    j.service_removed = false → j.lease ∉ s.ctl.queued_releases
  answers : ∀ x ∈ s.answering e, x.1.kind = .Request → (s.ctl.unmark x.1).drain_stale x.1 = true →
    Status.isOk x.2.1.status = true → Controller.granted_lease x.1 x.2.1 ∉ s.ctl.queued_releases
  restarts : e.restarts = true →
    ((s.ctl.world.jobs.rows.filter Controller.reclaimed).map MaintenanceJob.lease).Nodup

instance (s : System) (e : Event) : Decidable (Marked s e) :=
  decidable_of_iff
    ((∀ d ∈ s.driving e, Drive.retires
        { ctl := under s.ctl e.verdicts, job := d.2, actions := some d.1.actions }
        (d.1.context (under s.ctl e.verdicts)) = false) ∧
      (∀ job ∈ e.label.retracts, ∀ j ∈ s.job job,
        j.service_removed = false → j.lease ∉ s.ctl.queued_releases) ∧
      (∀ x ∈ s.answering e, x.1.kind = .Request → (s.ctl.unmark x.1).drain_stale x.1 = true →
        Status.isOk x.2.1.status = true →
        Controller.granted_lease x.1 x.2.1 ∉ s.ctl.queued_releases) ∧
      (e.restarts = true →
        ((s.ctl.world.jobs.rows.filter Controller.reclaimed).map MaintenanceJob.lease).Nodup))
    ⟨fun ⟨drives, calls, answers, restarts⟩ => ⟨drives, calls, answers, restarts⟩,
      fun h => ⟨h.drives, h.calls, h.answers, h.restarts⟩⟩

/-- A step that takes nothing away and adds nothing. -/
theorem Queued.same {s' : System} (h : s.Queued) (hemitted : s'.emitted.Perm s.emitted)
    (hkept : ∀ lease ∈ s.ctl.queued_releases, lease ∈ s'.ctl.queued_releases) : s'.Queued := by
  have hadded : s'.emitted.Perm (s.emitted ++ []) := by simpa using hemitted
  exact h.add hadded hkept (fun _ => Nat.zero_le _) (fun _ ha => by cases ha)

theorem Queued.drove (h : s.Queued) (hmarked : s.Marked e) {p : Pass} {id : JobId}
    {rest : List JobId} (label : e.label = .pass_step) (pass : s.pass = some p)
    (remaining : p.remaining = id :: rest) :
    (pass_step { s with ctl := under s.ctl e.verdicts } p).Queued := by
  have hunretired : ∀ j, (under s.ctl e.verdicts).world.jobs.find id = some j → Drive.retires
      { ctl := under s.ctl e.verdicts, job := j, actions := some p.actions }
      (p.context (under s.ctl e.verdicts)) = false :=
    fun j hj => hmarked.drives (p, j) (driving_eq label pass remaining hj)
  obtain ⟨new, hactions, hlength, hkept, hfresh⟩ :=
    (under s.ctl e.verdicts).drive_locked_releases id _ p.actions hunretired
  obtain ⟨hframe, _⟩ := (under s.ctl e.verdicts).keeps_drive_locked id
    (p.context (under s.ctl e.verdicts)) p.actions
  unfold pass_step
  rw [remaining]
  simp only
  rw [hactions]
  exact h.add (emitted_drove pass hframe.deferred) hkept
    (fun _ => List.countP_le_length.trans hlength) hfresh

theorem Queued.closed (h : s.Queued) (hattended : s.Attended) {p : Pass} (pass : s.pass = some p)
    (remaining : p.remaining = []) :
    (pass_step { s with ctl := under s.ctl e.verdicts } p).Queued := by
  obtain ⟨t, found, idle⟩ := hattended p pass
  have hframe :=
    (under s.ctl e.verdicts).frame_arbitrate_locked (p.context (under s.ctl e.verdicts))
  have hmarks := (under s.ctl e.verdicts).unmarked_arbitrate_locked
    (p.context (under s.ctl e.verdicts))
  unfold pass_step
  rw [remaining]
  simp only [found]
  generalize (under s.ctl e.verdicts).arbitrate_locked (p.context (under s.ctl e.verdicts)) = c
    at hframe hmarks
  have hqueued : c.queued_releases = s.ctl.queued_releases := hmarks.queued
  refine h.add (emitted_closed pass found idle hframe.deferred) ?_ c.countP_orphans ?_
  · intro lease hlease
    exact List.mem_append_left _ (hqueued ▸ hlease)
  · intro a ha _
    obtain ⟨l, hl, rfl⟩ := List.mem_map.mp ha
    exact ⟨hqueued ▸ Controller.mem_orphans hl,
      List.mem_append_right _ (List.mem_map.mpr ⟨l, hl, rfl⟩)⟩

theorem Queued.answered (h : s.Queued) (hmarked : s.Marked e) {action : DrainAction}
    {response : DrainResponse} {now : Nanos}
    (answering : s.answering e = some (action, response, now)) : (s.step e).Queued := by
  have happlied := step_answering answering
  have hfresh := hmarked.answers (action, response, now) answering
  obtain ⟨hrelease, hrequest⟩ :=
    (under s.ctl e.verdicts).queued_apply_outcome action response now
  rw [← happlied.applied] at hrelease hrequest
  obtain ⟨waiting, new, deferred, before, after⟩ := happlied.flow
  cases hkind : action.kind with
  | Release =>
    -- The only release of the lease is answered, and its mark goes.
    have hnone : new = [] := by
      rw [List.eq_nil_iff_forall_not_mem]
      intro a ha
      rw [(happlied.answered.added deferred ha).1] at hkind
      cases hkind
    rw [hnone, List.append_nil] at after
    intro lease
    have hbefore := h lease
    rw [before.countP_eq, List.countP_cons] at hbefore
    rw [after.countP_eq, hrelease hkind]
    have hmark : (lease ∈ (under s.ctl e.verdicts).queued_releases.filter (· ≠ action.lease)) ↔
        lease ∈ s.ctl.queued_releases ∧ lease ≠ action.lease := by
      rw [List.mem_filter, decide_eq_true_eq]
      rfl
    by_cases hlease : lease = action.lease
    · rw [if_pos (by simp [releases, hkind, hlease])] at hbefore
      split at hbefore <;> omega
    · simp only [hmark, ne_eq, hlease, not_false_eq_true, and_true]
      omega
  | Request =>
    have hqueued := hrequest hkind
    have hcount : ∀ lease, (s.step e).emitted.countP (releases lease) =
        s.emitted.countP (releases lease) + new.countP (releases lease) := by
      intro lease
      rw [before.countP_eq, after.countP_eq, List.countP_append, List.countP_cons,
        if_neg (by simp [releases, hkind]), Nat.add_zero]
    refine h.grow hcount ?_ ?_ ?_
    · intro lease hlease
      rw [hqueued]
      split
      · exact mem_push_unique.mpr (.inl hlease)
      · exact hlease
    · exact fun lease => List.countP_le_length.trans (happlied.answered.added_length deferred)
    · intro a ha _
      obtain ⟨_, hstale, hok, hvalid, rfl⟩ := happlied.answered.added deferred ha
      refine ⟨hfresh hkind hstale hok, ?_⟩
      rw [hqueued, hstale, hok, hvalid]
      exact mem_push_unique.mpr (.inr rfl)

theorem Queued.called (h : s.Queued) (hmarked : s.Marked e) {c : Controller}
    (call : (under s.ctl e.verdicts).call e.label = some c) (pass : s.pass = none) :
    Queued { s with ctl := c } := by
  have hleft : ∀ new, Controller.Leaves (under s.ctl e.verdicts) c new → new.length ≤ 1 →
      (∀ a ∈ new, a.lease ∉ s.ctl.queued_releases) → Queued { s with ctl := c } := by
    intro new hleaves hlength hfresh
    have hdeferred : c.deferred_releases = s.ctl.deferred_releases ++ new := hleaves.deferred
    have hqueued : c.queued_releases =
        push_all_unique s.ctl.queued_releases (new.map DrainAction.lease) := hleaves.queued
    have hemitted : (emitted { s with ctl := c }).Perm (s.emitted ++ new) := by
      simp only [emitted, passing, performing, pass, hdeferred, Option.map_none, Option.getD_none,
        List.append_nil, List.append_assoc]
      exact List.Perm.append_left _ List.perm_append_comm
    refine h.add hemitted ?_ (fun _ => List.countP_le_length.trans hlength) ?_
    · intro lease hlease
      show lease ∈ c.queued_releases
      rw [hqueued]
      exact mem_push_all_unique.mpr (.inl hlease)
    · intro a ha _
      refine ⟨hfresh a ha, ?_⟩
      show a.lease ∈ c.queued_releases
      rw [hqueued]
      exact mem_push_all_unique.mpr (.inr (List.mem_map.mpr ⟨a, ha, rfl⟩))
  rcases Controller.call_asks_for call
    with hleaves | ⟨job, hjob, hleaves | ⟨j, hj, kept, _, hleaves⟩⟩
  · exact hleft [] hleaves (Nat.zero_le _) (fun _ ha => by cases ha)
  · exact hleft [] hleaves (Nat.zero_le _) (fun _ ha => by cases ha)
  · refine hleft [Drive.retirement j] hleaves (Nat.le_refl _) ?_
    intro a ha
    rw [List.mem_singleton.mp ha]
    exact hmarked.calls job hjob j hj kept

theorem Queued.restarted (hmarked : s.Marked e) {options : Controller.ControllerOptions}
    {clock : Nanos} {steady : Nat} (label : e.label = .open options clock steady) :
    (restart { s with ctl := under s.ctl e.verdicts } options clock steady).Queued := by
  have hrestarts : e.restarts = true := by
    unfold Event.restarts
    rw [label]
  have hrelists := Controller.relists_open (under s.ctl e.verdicts).store options clock steady
  have hnodup := (hmarked.restarts hrestarts).sublist hrelists.leases
  have hemitted : (restart { s with ctl := under s.ctl e.verdicts } options clock steady).emitted =
      (Controller.open (under s.ctl e.verdicts).store options clock
        steady).2.deferred_releases := by
    simp [emitted, passing, performing, restart, Table.empty]
  intro lease
  rw [hemitted]
  have hcount : (Controller.open (under s.ctl e.verdicts).store options clock
      steady).2.deferred_releases.countP (releases lease) ≤
      ((Controller.open (under s.ctl e.verdicts).store options clock
        steady).2.deferred_releases.map DrainAction.lease).count lease := by
    rw [List.count, List.countP_map]
    refine List.countP_mono_left ?_
    intro a _ ha
    simp only [releases, decide_eq_true_eq] at ha
    simpa using ha.2
  have honce := List.nodup_iff_count_le_one.mp hnodup lease
  split
  · omega
  · next hunmarked =>
    rw [Nat.le_zero]
    refine countP_other ?_
    rintro a ha _ rfl
    exact hunmarked (hrelists.marked a ha)

/-- A step that is no part of a pass, no call, no answer and no restart. -/
theorem emitted_kept (hattended : s.Attended) (hpass : e.label ≠ .pass_step)
    (hcall : (under s.ctl e.verdicts).call e.label = none) (hanswering : s.answering e = none)
    (hrunning : e.restarts = false) : (s.step e).emitted.Perm s.emitted := by
  have hemits := emits_step hattended e
  cases hemits with
  | kept _ _ emitted => exact emitted
  | asked label _ _ _ _ _ => exact absurd label hpass
  | swept label _ _ _ _ _ _ _ => exact absurd label hpass
  | left call _ _ _ =>
    rw [hcall] at call
    cases call
  | answered answering _ =>
    rw [hanswering] at answering
    cases answering
  | restarted label _ _ =>
    rw [hrunning] at label
    cases label

/-- One step: a release comes with its mark, and goes with it. -/
theorem Queued.step (h : s.Queued) (hattended : s.Attended) (hmarked : s.Marked e) :
    (s.step e).Queued := by
  -- An answer takes one release and its mark; every other step only adds, or keeps both.
  cases hanswering : s.answering e with
  | some x =>
    obtain ⟨action, response, now⟩ := x
    exact h.answered hmarked hanswering
  | none =>
    have hdid := s.step_did e
    have hkept := emitted_kept hattended (e := e)
    generalize s.step e = s' at hdid hkept
    cases hdid with
    | nothing => exact h.same (.refl _) (fun _ hlease => hlease)
    | restarted label => exact Queued.restarted hmarked label
    | drove label up pass remaining =>
      have hdrove := h.drove hmarked label pass remaining
      unfold pass_step at hdrove
      rw [remaining] at hdrove
      exact hdrove
    | closed label up pass remaining =>
      have hclosed := h.closed (e := e) hattended pass remaining
      unfold pass_step at hclosed
      rw [remaining] at hclosed
      exact hclosed
    | ticked label up pass unused =>
      refine h.same (hkept ?_ ?_ hanswering ?_) (fun _ hlease => hlease)
      all_goals simp [label, Controller.call, Event.restarts]
    | began label up pass found ready =>
      refine h.same (hkept ?_ ?_ hanswering ?_) (fun _ hlease => hlease)
      all_goals simp [label, Controller.call, Event.restarts]
    | marked label up pass found actions =>
      refine h.same (hkept ?_ ?_ hanswering ?_) ?_
      · simp [label]
      · simp [label, Controller.call]
      · simp [label, Event.restarts]
      · intro lease hlease
        simp only
        split <;> exact hlease
    | answered label up pass found actions marked =>
      rw [answering_eq label up pass found actions marked] at hanswering
      cases hanswering
    | finished label up pass found done =>
      refine h.same (hkept ?_ ?_ hanswering ?_) (fun _ hlease => hlease)
      all_goals simp [label, Controller.call, Event.restarts]
    | called up pass call => exact h.called hmarked call pass

theorem queued_run {events : List Event} (hmarked : Along step Marked initial events) :
    (initial.run events).Queued := by
  refine (hmarked.invariant (I := fun s => s.Queued ∧ s.Attended) ?_ ⟨?_,
    fun _ hp => by cases hp⟩).1
  · intro s e hstep hs
    exact ⟨hs.1.step hs.2 hstep, hs.2.step e⟩
  · intro lease
    exact Nat.zero_le _

/-- Along a run in which no lease is given back past its mark, a pass has collected at most one
    release of a lease, and none if a tick has one to perform.  What a tick has to perform, which
    after its pass is what the pass has collected, holds at most one release of a lease, and none
    if another tick has one. -/
theorem one_release_per_pass (events : List Event) (hmarked : Along step Marked initial events)
    (lease : DrainLeaseId) :
    (∀ p, (initial.run events).pass = some p → p.actions.countP (releases lease) ≤ 1 ∧
      ∀ t ∈ (initial.run events).threads.rows, t.actions.any (releases lease) = true →
        p.actions.any (releases lease) = false) ∧
    ∀ t ∈ (initial.run events).threads.rows, t.actions.countP (releases lease) ≤ 1 ∧
      ∀ t' ∈ (initial.run events).threads.rows, t'.id ≠ t.id →
        t'.actions.any (releases lease) = true → t.actions.any (releases lease) = false := by
  have htotal : (initial.run events).emitted.countP (releases lease) ≤ 1 := by
    refine (queued_run hmarked lease).trans ?_
    split <;> omega
  generalize initial.run events = s at htotal ⊢
  unfold emitted at htotal
  rw [List.countP_append, List.countP_append] at htotal
  -- A tick that has a release counts among those that have.
  have hcounts : ∀ {threads : List Thread} {t : Thread}, t ∈ threads →
      t.actions.any (releases lease) = true →
      0 < (threads.flatMap Thread.actions).countP (releases lease) := by
    intro threads t ht hany
    obtain ⟨a, ha, hreleases⟩ := List.any_eq_true.mp hany
    exact List.countP_pos_iff.mpr ⟨a, List.mem_flatMap.mpr ⟨t, ht, ha⟩, hreleases⟩
  have hnone : ∀ actions : List DrainAction, actions.countP (releases lease) = 0 →
      actions.any (releases lease) = false := by
    intro actions hzero
    rw [List.any_eq_false]
    exact List.countP_eq_zero.mp hzero
  refine ⟨?_, ?_⟩
  · intro p pass
    have hpassing : s.passing = p.actions := by
      unfold passing
      rw [pass]
      rfl
    rw [hpassing] at htotal
    refine ⟨by omega, ?_⟩
    intro t ht hany
    have hperforming : 0 < s.performing.countP (releases lease) := hcounts ht hany
    exact hnone _ (by omega)
  · intro t ht
    have hfound := performing_found (Table.find_iff_mem.mpr ht)
    have hsplit : s.performing.countP (releases lease) = t.actions.countP (releases lease) +
        ((s.threads.erase t.id).rows.flatMap Thread.actions).countP (releases lease) := by
      unfold performing
      rw [hfound.countP_eq, List.countP_append]
    refine ⟨by omega, ?_⟩
    intro t' ht' hother hany
    have hrest : t' ∈ (s.threads.erase t.id).rows := Table.mem_erase.mpr ⟨ht', hother⟩
    have hpositive := hcounts hrest hany
    exact hnone _ (by omega)

end System

namespace Drill

/-- Job 1 is cancelled while it holds its lease, and two ticks take a pass each. -/
def withdrawn : List Event :=
  drained ++ [call (.cancel ⟨1⟩ (text "operator") [] (ms 150)),
    call (.tick 0 (ms 200))] ++ pass 0 ++
    [call (.tick 1 (ms 210))] ++ pass 1

/-- The pass of a tick blocks job 1, which holds its lease. -/
def swept : List Event := frozen_out ++ [call .pass_step, call .pass_step]

/-- The drain port does not answer the first of the two releases before another tick. -/
def swept_again : List Event :=
  swept ++ [call (.mark 0), refusal 0, call (.tick 1 (ms 210))] ++ pass 1

end Drill

namespace System

/-- The lease of the cancelled job is released once, by the tick that is the first to take a
    pass. -/
theorem cancelled_lease_released_once :
    (initial.run Drill.withdrawn).threads.rows.map (fun t => (t.id, t.actions.any (releases ⟨1⟩))) =
      [(0, true), (1, false)] ∧
    ∀ t ∈ (initial.run Drill.withdrawn).threads.rows, t.actions.countP (releases ⟨1⟩) ≤ 1 := by
  refine ⟨by decide +kernel, ?_⟩
  intro t ht
  exact ((one_release_per_pass Drill.withdrawn (by decide +kernel) ⟨1⟩).2 t ht).1

/-- A pass that blocks a job collects two releases of its lease, and the pass of another tick
    collects one while one of the two is still under way. -/
theorem lease_released_twice :
    (initial.run Drill.swept).threads.rows.map (fun t => (t.id, t.actions.countP (releases ⟨1⟩))) =
      [(0, 2)] ∧
    (initial.run Drill.swept_again).threads.rows.map
      (fun t => (t.id, t.actions.countP (releases ⟨1⟩))) = [(0, 1), (1, 1)] := by
  decide +kernel

end System

end MaintenanceFabric
