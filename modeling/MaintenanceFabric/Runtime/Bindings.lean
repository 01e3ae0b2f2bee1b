import MaintenanceFabric.Runtime.Accounting
import MaintenanceFabric.Runtime.Reconciliation
import MaintenanceFabric.Runtime.Steps

/-! # What a job is bound to

    Validation binds a job: its scope is expanded in the topology of that
    moment, and the policy of that moment is written down.  Nothing else
    changes the scope or the policy.  The owner of a job is the incarnation
    that validated it, gave it an attempt or found it at a restart.
-/

namespace MaintenanceFabric

open Lib

/-- The scope and the policy a job was validated for. -/
structure Binding where
  removal_set : List TargetId := []
  policy_revision : Revision := ⟨0⟩
  policy_digest : UInt64 := 0
  deriving DecidableEq

namespace MaintenanceJob

def binding (j : MaintenanceJob) : Binding :=
  { removal_set := j.removal_set
    policy_revision := j.policy_revision, policy_digest := j.policy_digest }

/-- The next version of a job is bound to the same, and owned as before or by `current`.  An
    approval is never taken back. -/
structure Carries (current : ControllerIncarnation) (j j' : MaintenanceJob) : Prop where
  id : j'.id = j.id
  binding : j'.binding = j.binding
  owner : j'.owner = j.owner ∨ j'.owner = current
  topology : j'.topology_revision = j.topology_revision ∧ j'.topology_digest = j.topology_digest
  approved : j.approved = true → j'.approved = true

namespace Carries

variable {current : ControllerIncarnation} {j j' j'' : MaintenanceJob}

theorem same (hid : j'.id = j.id) (hbinding : j'.binding = j.binding) (howner : j'.owner = j.owner)
    (htopology : j'.topology_revision = j.topology_revision ∧
      j'.topology_digest = j.topology_digest)
    (happroved : j.approved = true → j'.approved = true) : Carries current j j' :=
  ⟨hid, hbinding, .inl howner, htopology, happroved⟩

theorem refl (j : MaintenanceJob) : Carries current j j := same rfl rfl rfl ⟨rfl, rfl⟩ (fun h => h)

theorem trans (h : Carries current j j') (h' : Carries current j' j'') : Carries current j j'' := by
  refine ⟨h'.id.trans h.id, h'.binding.trans h.binding, ?_,
    ⟨h'.topology.1.trans h.topology.1, h'.topology.2.trans h.topology.2⟩,
    fun happroved => h'.approved (h.approved happroved)⟩
  rcases h'.owner with howner | howner
  · rw [howner]
    exact h.owner
  · exact .inr howner

end Carries

end MaintenanceJob

open MaintenanceJob

/-! ## Drives -/

namespace Controller

/-- Does validation block the job instead of expanding its scope? -/
def refuses (c : Controller) (j : MaintenanceJob) : Bool :=
  (j.targets.findSome? (Drive.target_fault c.topology)).isSome ||
    (!c.policy.tiers.isEmpty && !c.policy.known_tier j.priority)

/-- What a drive makes of the binding of a job. -/
def rebound (c : Controller) (j : MaintenanceJob) : MaintenanceJob :=
  if j.state = .Validated ∧ c.refuses j = false then Drive.expanded c j else j

end Controller

namespace Drive

variable {i : ControllerIncarnation}

theorem carries_entered (j : MaintenanceJob) (to_state : JobState) (reason : BlockReason)
    (detail : Text) (now : Nanos) (by_ : ControllerIncarnation) :
    Carries i j (entered j to_state reason detail now by_) := by
  cases to_state <;> exact .same rfl rfl rfl ⟨rfl, rfl⟩ (fun h => h)

theorem carries_release_resources (d : Drive) : Carries i d.job d.release_resources_locked.job := by
  obtain ⟨_, _, hjob, _⟩ := release_resources_spec d
  rw [hjob]
  exact .same rfl rfl rfl ⟨rfl, rfl⟩ (fun h => h)

/-- A transition leaves the binding alone. -/
theorem carries_transition (d : Drive) (to_state : JobState) (reason : BlockReason) (detail : Text)
    (now : Nanos) : Carries i d.job (d.transition_locked to_state reason detail now).2.job := by
  have hentered := carries_entered (i := i) d.job to_state reason detail now
    d.ctl.incarnation
  unfold transition_locked
  split
  · simp only
    generalize entered d.job to_state reason detail now d.ctl.incarnation = moved at hentered
    have hfreed : Carries i d.job (if gives_back to_state moved.service_removed then
        Drive.release_resources_locked
          { d with job := moved } else { d with job := moved }).job := by
      split
      · exact hentered.trans (carries_release_resources { d with job := moved })
      · exact hentered
    split
    · exact hfreed.trans (.same rfl rfl rfl ⟨rfl, rfl⟩ (fun h => h))
    · exact hfreed
  · exact .refl _

/-- A transition of a prepared copy. -/
theorem carries_prepared {d : Drive} {ctl : Controller} {job : MaintenanceJob}
    (h : Carries i d.job job) (to_state : JobState) (reason : BlockReason) (detail : Text)
    (now : Nanos) :
    Carries i d.job (Drive.transition_locked { d with ctl,
                                                      job } to_state reason detail now).2.job :=
  h.trans (carries_transition { d with ctl, job } to_state reason detail now)

theorem carries_new_attempt (c : Controller) (j : MaintenanceJob) (now : Nanos) :
    Carries c.incarnation j (c.new_attempt_locked j now) :=
  ⟨rfl, rfl, .inr rfl, ⟨rfl, rfl⟩, fun h => h⟩

theorem carries_with_attempt (c : Controller) (j : MaintenanceJob) (now : Nanos) :
    Carries c.incarnation j (with_attempt c j now) := by
  unfold with_attempt
  split
  · exact .refl j
  · exact carries_new_attempt c j now

theorem carries_violation (d : Drive) (evaluation : PreconditionSet) (now : Nanos) :
    Carries i d.job (d.block_on_violation evaluation now).2.job := by
  unfold block_on_violation
  split <;> exact carries_transition d _ _ _ _

theorem carries_validated (d : Drive) (context : PassContext) (hstate : d.job.state = .Validated) :
    Carries d.ctl.incarnation (d.ctl.rebound d.job) (d.drive_validated_locked context).2.job := by
  unfold drive_validated_locked Controller.rebound Controller.refuses
  cases hfault : d.job.targets.findSome? (target_fault d.ctl.topology) with
  | some fault =>
    rw [if_neg (by simp)]
    exact carries_transition d _ _ _ _
  | none =>
    by_cases htier : (!d.ctl.policy.tiers.isEmpty && !d.ctl.policy.known_tier d.job.priority) = true
    · simp only
      rw [if_pos htier, if_neg (by simp [htier])]
      exact carries_transition d _ _ _ _
    · simp only
      rw [if_neg htier, if_pos ⟨hstate, by simpa using htier⟩]
      have hbound := carries_with_attempt d.ctl (expanded d.ctl d.job) context.now
      exact hbound.trans (carries_transition { d with job := _ } _ _ _ _)

theorem carries_await (d : Drive) (context : PassContext) :
    Carries i d.job (d.await_prerequisites context).2.job := by
  unfold await_prerequisites
  simp only
  split
  · split
    · exact carries_transition d _ _ _ _
    · unfold request_drain
      split <;> exact .refl _
  · split
    · exact carries_violation d _ _
    · split
      · exact .same rfl rfl rfl ⟨rfl, rfl⟩ (fun h => h)
      · apply carries_prepared
        exact .same rfl rfl rfl ⟨rfl, rfl⟩ (fun h => h)

theorem carries_prerequisites (d : Drive) (context : PassContext) :
    Carries d.ctl.incarnation d.job (d.drive_prerequisites_locked context).2.job := by
  have hawait : ∀ ctl, Carries d.ctl.incarnation d.job
      (Drive.await_prerequisites { d with ctl } context).2.job :=
    fun ctl => carries_await { d with ctl } context
  unfold drive_prerequisites_locked
  simp only
  split
  · exact carries_new_attempt _ _ _
  · split
    · exact .refl _
    · split
      · exact .same rfl rfl rfl ⟨rfl, rfl⟩ (fun h => h)
      · split
        · split
          · split
            · exact .same rfl rfl rfl ⟨rfl, rfl⟩ (fun h => h)
            · apply carries_prepared
              exact .refl _
          · exact hawait _
        · exact carries_await d context

theorem carries_ready (d : Drive) (context : PassContext) :
    Carries i d.job (d.drive_ready_locked context).2.job := by
  unfold drive_ready_locked
  simp only
  split
  · exact carries_violation d _ _
  · split
    · exact carries_transition d _ _ _ _
    · split
      · exact carries_transition d _ _ _ _
      · apply carries_prepared
        exact .same rfl rfl rfl ⟨rfl, rfl⟩ (fun h => h)

theorem carries_blocked (d : Drive) (context : PassContext) :
    Carries d.ctl.incarnation d.job (d.drive_blocked_locked context).2.job := by
  unfold drive_blocked_locked
  simp only
  split
  · exact .refl _
  · split
    · exact .refl _
    · split
      · apply carries_prepared
        exact carries_with_attempt _ _ _
      · exact carries_transition d _ _ _ _

theorem carries_finish_step (d : Drive) (complete any_failed : Bool) (now : Nanos) :
    Carries i d.job (d.finish_step complete any_failed now).2.job := by
  unfold finish_step
  split
  · exact .refl _
  · apply carries_prepared
    cases any_failed <;> exact .same rfl rfl rfl ⟨rfl, rfl⟩ (fun h => h)

theorem carries_in_maintenance (d : Drive) (context : PassContext) :
    Carries i d.job (d.drive_in_maintenance_locked context).2.job := by
  have hfinish := fun complete any_failed =>
    carries_finish_step (i := i) d complete any_failed context.now
  unfold drive_in_maintenance_locked
  simp only
  split
  · split
    · split
      · apply carries_prepared
        exact .same rfl rfl rfl ⟨rfl, rfl⟩ (fun h => h)
      · exact hfinish _ _
    · split
      · exact .same rfl rfl rfl ⟨rfl, rfl⟩ (fun h => h)
      · exact hfinish _ _
    · split
      · exact .same rfl rfl rfl ⟨rfl, rfl⟩ (fun h => h)
      · exact hfinish _ _
  · exact hfinish _ _

theorem carries_verifying (d : Drive) (context : PassContext) :
    Carries i d.job (d.drive_verifying_locked context).2.job := by
  unfold drive_verifying_locked
  simp only
  split
  · split
    · split
      · apply carries_prepared
        exact .same rfl rfl rfl ⟨rfl, rfl⟩ (fun h => h)
      · exact .same rfl rfl rfl ⟨rfl, rfl⟩ (fun h => h)
    · exact .same rfl rfl rfl ⟨rfl, rfl⟩ (fun h => h)
  · apply carries_prepared
    exact .same rfl rfl rfl ⟨rfl, rfl⟩ (fun h => h)

theorem carries_restoring (d : Drive) (context : PassContext) :
    Carries i d.job (d.drive_restoring_locked context).2.job := by
  unfold drive_restoring_locked
  simp only
  split
  · unfold request_release
    split <;> exact .same rfl rfl rfl ⟨rfl, rfl⟩ (fun h => h)
  · split
    · split
      · split
        · apply carries_prepared
          exact .same rfl rfl rfl ⟨rfl, rfl⟩ (fun h => h)
        · exact .same rfl rfl rfl ⟨rfl, rfl⟩ (fun h => h)
      · exact .same rfl rfl rfl ⟨rfl, rfl⟩ (fun h => h)
    · split
      · apply carries_prepared
        exact .same rfl rfl rfl ⟨rfl, rfl⟩ (fun h => h)
      · apply carries_prepared
        exact .same rfl rfl rfl ⟨rfl, rfl⟩ (fun h => h)

/-- Only validation binds a job anew. -/
theorem carries_state (d : Drive) (context : PassContext) :
    Carries d.ctl.incarnation (d.ctl.rebound d.job) (d.drive_state context).2.job := by
  have hother : d.job.state ≠ .Validated → d.ctl.rebound d.job = d.job :=
    fun hstate => if_neg (fun h => hstate h.1)
  unfold drive_state
  split
  case h_1 hstate => exact carries_validated d context hstate
  all_goals rw [hother (by rename_i hstate; rw [hstate]; decide)]
  · exact carries_prerequisites d context
  · exact carries_ready d context
  · exact carries_blocked d context
  · exact carries_in_maintenance d context
  · exact carries_verifying d context
  · exact carries_restoring d context
  all_goals exact .refl _

theorem jobs_release_resources (d : Drive) :
    d.release_resources_locked.ctl.world.jobs = d.ctl.world.jobs := by
  obtain ⟨_, _, _, _, _, hw | ⟨hw, _⟩⟩ := release_resources_spec d
  · rw [hw]
  · rw [hw]

theorem jobs_transition (d : Drive) (to_state : JobState) (reason : BlockReason) (detail : Text)
    (now : Nanos) :
    (d.transition_locked to_state reason detail now).2.ctl.world.jobs = d.ctl.world.jobs := by
  rcases transition_cases d to_state reason detail now with hno | ⟨_, _, hmoved⟩
  · rw [hno]
  · rcases hmoved.world with hw | ⟨hw, _⟩
    · rw [hw]
    · rw [hw]

end Drive

/-! ## Commits -/

namespace Controller

/-- The jobs after a commit: those before, except the one that is committed. -/
theorem rows_commit {c : Controller} {job : MaintenanceJob} {now : Nanos} {j' : MaintenanceJob}
    (h : j' ∈ (c.commit_job_locked job now).2.world.jobs.rows) :
    j' ∈ c.world.jobs.rows ∨ ∀ current, Carries current job j' := by
  unfold commit_job_locked at h
  split at h
  · exact .inl h
  · next stored _ =>
    simp only at h
    rcases Store.commit_job_cases c.store (revised job stored.revision.next now) with
      ⟨_, _, hb⟩ | ⟨_, _, hb⟩
    · left
      have hjobs := congrArg (fun b => b.jobs) hb
      exact hjobs ▸ h
    · have hjobs : ({ c with store := (c.store.commit_job
          (revised job stored.revision.next now)).2 } : Controller).world.jobs =
          c.world.jobs.put (clipped_job (revised job stored.revision.next now)) :=
        congrArg (fun b => b.jobs) hb
      rw [hjobs] at h
      rcases Table.mem_put.mp h with rfl | ⟨h, _⟩
      · exact .inr (fun _ => .same rfl rfl rfl ⟨rfl, rfl⟩ (fun h => h))
      · exact .inl h

/-- Everything is served under the same configuration: every job is a version of one that was
    there and bound to the same. -/
structure Serves (c c' : Controller) : Prop where
  incarnation : c'.incarnation = c.incarnation
  topology : c'.topology = c.topology
  policy : c'.policy = c.policy
  stored : c'.store.state.topology = c.store.state.topology ∧
    c'.store.state.policy = c.store.state.policy
  jobs : ∀ j' ∈ c'.world.jobs.rows, ∃ j ∈ c.world.jobs.rows, Carries c.incarnation j j'

namespace Serves

variable {c c' c'' : Controller}

theorem of_frame (h : Frame c c') (hjobs : c'.world.jobs = c.world.jobs) : Serves c c' := by
  refine ⟨h.incarnation, h.topology, h.policy, ⟨h.store.topology, h.store.policy⟩, ?_⟩
  intro j hj
  rw [hjobs] at hj
  exact ⟨j, hj, .refl j⟩

theorem refl (c : Controller) : Serves c c := of_frame (.refl c) rfl

theorem trans (h : Serves c c') (h' : Serves c' c'') : Serves c c'' := by
  refine ⟨h'.incarnation.trans h.incarnation, h'.topology.trans h.topology,
    h'.policy.trans h.policy,
    ⟨h'.stored.1.trans h.stored.1, h'.stored.2.trans h.stored.2⟩, ?_⟩
  intro j'' hj''
  have hlast := h'.jobs j'' hj''
  rw [h.incarnation] at hlast
  obtain ⟨j', hj', hcarries'⟩ := hlast
  obtain ⟨j, hj, hcarries⟩ := h.jobs j' hj'
  exact ⟨j, hj, hcarries.trans hcarries'⟩

theorem foldl {α : Type} {f : Controller → α → Controller} (h : ∀ c a, Serves c (f c a)) :
    ∀ (l : List α) (c : Controller), Serves c (l.foldl f c)
  | [], c => refl c
  | a :: l, c => (h c a).trans (foldl h l (f c a))

/-- A version of a stored job is committed. -/
theorem commit (h : Serves c c') {j job : MaintenanceJob} (hj : j ∈ c.world.jobs.rows)
    (carries : Carries c.incarnation j job) (now : Nanos) :
    Serves c (c'.commit_job_locked job now).2 := by
  have hframe := c'.frame_commit job now
  refine ⟨hframe.incarnation.trans h.incarnation, hframe.topology.trans h.topology,
    hframe.policy.trans h.policy,
    ⟨hframe.store.topology.trans h.stored.1, hframe.store.policy.trans h.stored.2⟩, ?_⟩
  intro j' hj'
  rcases rows_commit hj' with hj' | hcommitted
  · exact h.jobs j' hj'
  · exact ⟨j, hj, carries.trans (hcommitted _)⟩

end Serves

/-- A drive leaves the stored jobs alone until it commits. -/
theorem jobs_drive_state {c : Controller} {j : MaintenanceJob}
    (hfind : c.world.jobs.find j.id = some j)
    (context : PassContext) (actions : List DrainAction) :
    (Drive.drive_state { ctl := c, job := j, actions := some actions } context).2.ctl.world.jobs =
      c.world.jobs := by
  have hmay : ∀ k, drive_may c j context k → (drive_license c j.id context).edits j.id k :=
    fun k hk => ⟨rfl, j, hfind, hk⟩
  obtain ⟨mid, hquiet, ⟨_, hw⟩ | ⟨_, _, _, _, _, _, hw | ⟨_, hw, _⟩⟩⟩ :=
    Drive.drove_state (d := { ctl := c, job := j, actions := some actions })
      hmay (fun _ hkind hresult => ⟨hkind, hresult⟩)
  all_goals
    rw [hw]
    exact hquiet.jobs

/-- A drive binds no job but its own, and that one only when it validates it. -/
theorem rows_drive_locked (c : Controller) (id : JobId) (context : PassContext)
    (actions : List DrainAction) {j' : MaintenanceJob}
    (h : j' ∈ (c.drive_locked id context actions).1.world.jobs.rows) :
    j' ∈ c.world.jobs.rows ∨
      ∃ j, c.world.jobs.find id = some j ∧ Carries c.incarnation (c.rebound j) j' := by
  unfold drive_locked at h
  split at h
  · exact .inl h
  · next j hfind =>
    split at h
    · exact .inl h
    · have hfind : c.world.jobs.find id = some j := hfind
      have hid : j.id = id := Table.key_of_find hfind
      have hjobs := jobs_drive_state (hid ▸ hfind) context actions
      have hcarries := Drive.carries_state { ctl := c, job := j, actions := some actions } context
      simp only at h
      generalize Drive.drive_state { ctl := c, job := j, actions := some actions } context = out
        at hjobs hcarries h
      split at h
      · rcases rows_commit h with hkept | hcommitted
        · rw [hjobs] at hkept
          exact .inl hkept
        · exact .inr ⟨j, hfind, hcarries.trans (hcommitted _)⟩
      · rw [hjobs] at h
        exact .inl h

/-! ## Arbitration and answers -/

theorem serves_arbitrate_locked (c : Controller) (context : PassContext) :
    Serves c (c.arbitrate_locked context) := by
  unfold arbitrate_locked
  refine Serves.foldl ?_ _ c
  intro c decision
  unfold apply_decision
  split
  -- A denial blocks the job; a grant gives it authority. Neither binds it anew.
  · unfold apply_denial
    split
    · exact .refl c
    · next denied hfind =>
      split
      · exact .refl c
      · have hmem : denied ∈ c.world.jobs.rows := Table.mem_of_find hfind
        have hblocked := Serves.of_frame
          (Drive.keeps_transition { ctl := c, job := denied, actions := some [] } .Blocked
            decision.reason decision.detail context.now).frame (Drive.jobs_transition _ _ _ _ _)
        exact hblocked.commit hmem (Drive.carries_transition
          { ctl := c, job := denied, actions := some [] } _ _ _ _) context.now
  · unfold apply_grant
    split
    · next current granted hfind _ =>
      have hmem : current ∈ c.world.jobs.rows := Table.mem_of_find hfind
      have hstands := Store.stands_insert_authority c.store granted
      have hjobs : (c.store.insert_authority granted).2.books.jobs = c.world.jobs := by
        rcases c.store.insert_authority_cases granted with ⟨_, _, hb⟩ | ⟨_, _, _, hb⟩
        · rw [hb]
          rfl
        · rw [hb]
          rfl
      split
      · next heq =>
        rw [heq] at hstands hjobs
        exact .of_frame ⟨rfl, rfl, rfl, rfl, hstands⟩ hjobs
      · next store heq =>
        rw [heq] at hstands hjobs
        have hinserted : Serves c { c with store } := .of_frame ⟨rfl, rfl, rfl, rfl, hstands⟩ hjobs
        refine hinserted.commit hmem ?_ context.now
        exact .same rfl rfl rfl ⟨rfl, rfl⟩ (fun h => h)
    · exact .refl c
  · exact .refl c

theorem serves_forget_lease (c : Controller) (lease : DrainLeaseId) (now : Nanos) :
    Serves c (c.forget_lease lease now) := by
  unfold Controller.forget_lease
  split
  · exact .refl c
  · next candidate hfind =>
    have hmem : candidate ∈ c.world.jobs.rows := List.mem_of_find?_eq_some hfind
    refine (Serves.refl c).commit hmem ?_ now
    exact .same rfl rfl rfl ⟨rfl, rfl⟩ (fun h => h)

theorem serves_apply_failure (c : Controller) {j : MaintenanceJob} (hj : j ∈ c.world.jobs.rows)
    (e : Error) (now : Nanos) : Serves c (c.apply_failure j e now) := by
  unfold Controller.apply_failure
  simp only
  generalize hfailed : ({ j with
    drain_failures := j.drain_failures + 1
    last_detail := text "drain request failed: " ++ format_error e } : MaintenanceJob) = failed
  have hcarries : Carries c.incarnation j failed := by
    rw [← hfailed]
    exact .same rfl rfl rfl ⟨rfl, rfl⟩ (fun h => h)
  split
  · generalize text "drain request failed: " ++ format_error e = detail
    have hblocked : Serves c (Drive.transition_locked { ctl := c, job := failed } .Blocked
        .DrainFailed detail now).2.ctl :=
      .of_frame (Drive.keeps_transition { ctl := c, job := failed } _ _ _ _).frame
        (Drive.jobs_transition _ _ _ _ _)
    have hmoved := Drive.carries_transition (i := c.incarnation) { ctl := c, job := failed }
      .Blocked .DrainFailed detail now
    exact hblocked.commit hj (hcarries.trans hmoved) now
  · exact (Serves.refl c).commit hj hcarries now

theorem serves_apply_granted (c : Controller) {j : MaintenanceJob} (hj : j ∈ c.world.jobs.rows)
    (lease : DrainLease) (now : Nanos) : Serves c (c.apply_granted j lease now) := by
  have hbooks := Store.books_commit_lease c.store lease
  have hstands : (c.store.commit_lease lease).2.state.topology = c.store.state.topology ∧
      (c.store.commit_lease lease).2.state.policy = c.store.state.policy := by
    rcases c.store.commit_lease_cases lease with ⟨_, hstate⟩ | ⟨_, hstate⟩
    · rw [hstate]
      exact ⟨rfl, rfl⟩
    · rw [hstate]
      exact ⟨rfl, rfl⟩
  have hstored : Serves c { c with store := (c.store.commit_lease lease).2 } := by
    refine ⟨rfl, rfl, rfl, hstands, ?_⟩
    intro x hx
    have hjobs : (c.store.commit_lease lease).2.books.jobs = c.world.jobs :=
      congrArg (fun b => b.jobs) hbooks
    exact ⟨x, hjobs ▸ hx, .refl x⟩
  unfold Controller.apply_granted
  split
  · exact .refl c
  · split
    · next heq =>
      rw [heq] at hstored
      exact hstored
    · next store heq =>
      rw [heq] at hstored
      simp only
      split
      · refine (hstored.trans (.of_frame (frame_record_drain _ _ _ _)
          (aside_record_drain _ _ _ _).jobs)).commit hj ?_ now
        exact .same rfl rfl rfl ⟨rfl, rfl⟩ (fun h => h)
      · refine hstored.commit hj ?_ now
        exact .same rfl rfl rfl ⟨rfl, rfl⟩ (fun h => h)

theorem serves_apply_outcome (c : Controller) (action : DrainAction) (response : DrainResponse)
    (now : Nanos) : Serves c (c.apply_outcome action response now) := by
  have hunmarked : Serves c (c.unmark action) := .of_frame ⟨rfl, rfl, rfl, rfl, .refl _⟩ rfl
  rw [apply_outcome_eq]
  refine hunmarked.trans ?_
  generalize c.unmark action = c₁
  cases hkind : action.kind with
  | Release =>
    unfold apply_release
    simp only
    split
    · have hbooks := Store.books_commit_lease_erased c₁.store (granted_lease action response)
      have hstands : (c₁.store.commit_lease_erased
        (granted_lease action response)).2.state.topology =
            c₁.store.state.topology ∧
          (c₁.store.commit_lease_erased (granted_lease action response)).2.state.policy =
            c₁.store.state.policy := by
        rcases c₁.store.commit_lease_erased_cases (granted_lease action response) with
          ⟨_, hstate⟩ | ⟨_, hstate⟩
        · rw [hstate]
          exact ⟨rfl, rfl⟩
        · rw [hstate]
          exact ⟨rfl, rfl⟩
      -- The lease table is not among what a job is bound by.
      have herased : Serves c₁ { c₁ with
          queued_releases := c₁.queued_releases.filter (· ≠ action.lease)
          store := (c₁.store.commit_lease_erased (granted_lease action response)).2 } := by
        refine ⟨rfl, rfl, rfl, hstands, ?_⟩
        intro x hx
        have hjobs : (c₁.store.commit_lease_erased (granted_lease action response)).2.books.jobs =
          c₁.world.jobs := congrArg (fun b => b.jobs) hbooks
        exact ⟨x, hjobs ▸ hx, .refl x⟩
      exact herased.trans (serves_forget_lease _ _ now)
    · exact .of_frame ⟨rfl, rfl, rfl, rfl, .refl _⟩ rfl
  | Request =>
    simp only
    split
    · unfold apply_stale
      split
      · exact ⟨rfl, rfl, rfl, ⟨rfl, rfl⟩, fun x hx => ⟨x, hx, .refl x⟩⟩
      · exact .refl c₁
    · split
      · exact .refl c₁
      · next j hfind =>
        have hmem : j ∈ c₁.world.jobs.rows := Table.mem_of_find hfind
        split
        · exact c₁.serves_apply_failure hmem _ now
        · exact c₁.serves_apply_granted hmem _ now

/-! ## Calls -/

theorem serves_rearm (c : Controller) (job : JobId) (actor : Text) (now : Nanos) :
    Serves c (c.rearm job actor now).2 := by
  unfold Controller.rearm
  split
  · exact .refl c
  · next j hfind =>
    have hmem : j ∈ c.world.jobs.rows := Table.mem_of_find hfind
    split
    · exact .refl c
    · split
      · exact .refl c
      · have hfreed := Serves.of_frame (Drive.keeps_release_resources
          { ctl := c, job := j, actions := some [] }).frame (Drive.jobs_release_resources _)
        have hcarries : Carries c.incarnation j (Drive.release_resources_locked
            { ctl := c, job := j, actions := some [] }).job :=
          Drive.carries_release_resources { ctl := c, job := j, actions := some [] }
        simp only
        generalize Drive.release_resources_locked { ctl := c, job := j, actions := some [] } = d
          at hfreed hcarries ⊢
        split
        · have hcarried : Carries c.incarnation j
              (c.reentered_job (rearmed_job d.job actor now) now) :=
            hcarries.trans (.same rfl rfl rfl ⟨rfl, rfl⟩ (fun h => h))
          have hcommit := hfreed.commit hmem hcarried now
          split
          · next heq =>
            rw [heq] at hcommit
            exact hcommit
          · next heq =>
            rw [heq] at hcommit
            exact ⟨hcommit.incarnation, hcommit.topology, hcommit.policy, hcommit.stored,
              hcommit.jobs⟩
        · exact hfreed

theorem serves_cancel (c : Controller) (job : JobId) (actor reason : Text) (now : Nanos) :
    Serves c (c.cancel job actor reason now).2 := by
  unfold Controller.cancel
  split
  · exact .refl c
  · next j hfind =>
    have hmem : j ∈ c.world.jobs.rows := Table.mem_of_find hfind
    split
    · exact .refl c
    · split
      · exact .refl c
      · have hmoved := Serves.of_frame (Drive.keeps_transition
          { ctl := c, job := j, actions := some [] } .Cancelled .None
          (text "cancelled by " ++ actor ++ text ": " ++ reason) now).frame
          (Drive.jobs_transition _ _ _ _ _)
        have hcarries : Carries c.incarnation j (Drive.transition_locked
            { ctl := c, job := j, actions := some [] } .Cancelled .None
            (text "cancelled by " ++ actor ++ text ": " ++ reason) now).2.job :=
          Drive.carries_transition { ctl := c, job := j, actions := some [] } _ _ _ _
        generalize Drive.transition_locked { ctl := c, job := j, actions := some [] } .Cancelled
          .None (text "cancelled by " ++ actor ++ text ": " ++ reason) now =
            out at hmoved hcarries ⊢
        obtain ⟨moved, d⟩ := out
        cases moved with
        | false => exact hmoved
        | true =>
          have hcommit := hmoved.commit hmem hcarries now
          simp only at hcommit ⊢
          split
          · next heq =>
            rw [heq] at hcommit
            exact hcommit
          · next heq =>
            rw [heq] at hcommit
            exact ⟨hcommit.incarnation, hcommit.topology, hcommit.policy, hcommit.stored,
              hcommit.jobs⟩

/-- A proposal changes no job; a new one is bound to nothing and asks for something, under an
    identity that was not in use, and waits for its approval. -/
theorem rows_propose (c : Controller) (request : MaintenanceRequest)
    (actor : Text) (clock : Nanos) :
    Frame c (c.propose request actor clock).2 ∧
    ∀ j' ∈ (c.propose request actor clock).2.world.jobs.rows, j' ∈ c.world.jobs.rows ∨
      j'.binding = {} ∧ j'.owner = c.incarnation ∧ c.world.jobs.find j'.id = none ∧
        j'.targets ≠ [] ∧ j'.state = .Proposed := by
  unfold Controller.propose
  split
  · exact ⟨.refl c, fun _ hj => .inl hj⟩
  · next hcheck =>
    -- A request without targets is refused before anything is created.
    have htargets : request.targets ≠ [] := by
      obtain ⟨_, hshape, _⟩ := Result.bind_eq_ok.mp hcheck
      simp only [validate_request_shape, Result.bind_eq_ok, refuse_if_eq_ok] at hshape
      obtain ⟨_, _, _, _, _, hsome, _⟩ := hshape
      intro hnone
      rw [hnone] at hsome
      cases hsome
    refine ⟨⟨rfl, rfl, rfl, rfl,
      Store.stands_create_job c.store (c.proposed_job request actor clock)⟩, ?_⟩
    intro j' hj'
    rcases Store.create_job_cases c.store (c.proposed_job request actor clock) with
      hb | ⟨id, hunused, _, hb⟩
    · have hjobs : (c.store.create_job (c.proposed_job request actor clock)).2.books.jobs =
        c.world.jobs := congrArg (fun b => b.jobs) hb
      exact .inl (hjobs ▸ hj')
    · have hjobs := congrArg (fun b => b.jobs) hb
      have hmem : j' ∈ (c.store.create_job
        (c.proposed_job request actor clock)).2.books.jobs.rows :=
        hj'
      rw [hjobs] at hmem
      rcases Table.mem_put.mp hmem with rfl | ⟨hmem, _⟩
      · exact .inr ⟨rfl, rfl, hunused, htargets, rfl⟩
      · exact .inl hmem

theorem serves_observe (c : Controller) (e : EvidenceRecord) : Serves c (c.observe e).2 := by
  have hcompleted : Serves c (c.completed_evidence e).2 := by
    refine .of_frame ?_ ?_
    · unfold Controller.completed_evidence
      simp only
      split <;> split <;> exact ⟨rfl, rfl, rfl, rfl, ⟨rfl, rfl, rfl, rfl⟩⟩
    · unfold Controller.completed_evidence
      simp only
      split <;> split <;> rfl
  unfold Controller.observe
  simp only
  generalize c.completed_evidence e = completed at hcompleted ⊢
  refine hcompleted.trans (.of_frame
    ⟨rfl, rfl, rfl, rfl, Store.stands_observe_evidence _ _⟩ ?_)
  rcases Store.observe_evidence_cases completed.2.store completed.1 with
    ⟨_, _, hb, _⟩ | ⟨_, _, _, hb⟩
  · exact congrArg (fun b => b.jobs) hb
  · exact congrArg (fun b => b.jobs) hb

theorem serves_author_evidence (c : Controller) (kind : EvidenceKind) (target : TargetId)
    (source : SourceId) (now : Nanos) (payload : EvidencePayload) (job : JobId)
    (attempt : AttemptId) :
    Serves c (c.author_evidence kind target source now payload job attempt).2 :=
  .of_frame (c.frame_author_evidence kind target source now payload job attempt)
    (Drive.aside_author_evidence c kind target source now payload job attempt).jobs

theorem serves_record_completion (job : JobId) (attempt : AttemptId) (succeeded : Bool)
    (now : Nanos) : ∀ (targets : List TargetId) (c : Controller),
      Serves c (record_completion job attempt succeeded now c targets).2
  | [], c => .refl c
  | target :: rest, c => by
      have hone := c.serves_author_evidence .MaintenanceCompletion target ⟨1⟩ now
        { result := succeeded, health := if succeeded then .Degraded else .Down } job attempt
      unfold record_completion
      split
      · next heq =>
        rw [heq] at hone
        exact hone
      · next heq =>
        rw [heq] at hone
        exact hone.trans (serves_record_completion job attempt succeeded now rest _)

theorem serves_report_completion (c : Controller) (job : JobId) (attempt : AttemptId)
    (succeeded : Bool) (detail : Text) (now : Nanos) :
    Serves c (c.report_completion job attempt succeeded detail now).2 := by
  unfold Controller.report_completion
  split
  · exact .refl c
  · next j hfind =>
    have hmem : j ∈ c.world.jobs.rows := Table.mem_of_find hfind
    split
    · exact .refl c
    · split
      · exact .refl c
      · have hrec := serves_record_completion job attempt succeeded now j.removal_set c
        split
        · next heq =>
          rw [heq] at hrec
          exact hrec
        · next heq =>
          rw [heq] at hrec
          refine hrec.commit hmem ?_ now
          exact .same rfl rfl rfl ⟨rfl, rfl⟩ (fun h => h)

theorem serves_report_restoration (c : Controller) (job : JobId) (attempt : AttemptId)
    (target : TargetId) (restored : Bool) (detail : Text) (now : Nanos) :
    Serves c (c.report_restoration job attempt target restored detail now).2 := by
  unfold Controller.report_restoration
  split
  · exact .refl c
  · next j hfind =>
    have hmem : j ∈ c.world.jobs.rows := Table.mem_of_find hfind
    split
    · exact .refl c
    · split
      · exact .refl c
      · have hrec := c.serves_author_evidence .RestorationCheck target ⟨2⟩ now
          { result := restored, health := if restored then .Healthy else .Down } job attempt
        split
        · next heq =>
          rw [heq] at hrec
          exact hrec
        · next heq =>
          rw [heq] at hrec
          refine hrec.commit hmem ?_ now
          exact .same rfl rfl rfl ⟨rfl, rfl⟩ (fun h => h)

/-- Every call but a proposal and the two that configure the controller. -/
theorem serves_call {c c' : Controller} {label : Label} (hcall : c.call label = some c')
    (htopology : ∀ t, label ≠ .set_topology t) (hpolicy : ∀ p, label ≠ .set_policy p)
    (hpropose : ∀ request actor clock, label ≠ .propose request actor clock) : Serves c c' := by
  unfold Controller.call at hcall
  split at hcall
  case h_1 t => exact absurd rfl (htopology t)
  case h_2 p => exact absurd rfl (hpolicy p)
  case h_3 request actor clock => exact absurd rfl (hpropose request actor clock)
  case h_4 job actor entry_at commit_at =>
    cases hcall
    unfold Controller.approve
    split
    · exact .refl c
    · next j hfind =>
      split
      · exact .refl c
      · refine (Serves.refl c).commit (Table.mem_of_find hfind) ?_ _
        exact .same rfl rfl rfl ⟨rfl, rfl⟩ (fun _ => rfl)
  case h_5 => cases hcall; exact c.serves_rearm _ _ _
  case h_6 => cases hcall; exact c.serves_cancel _ _ _ _
  case h_7 => cases hcall; exact c.serves_observe _
  case h_8 => cases hcall; exact c.serves_report_completion _ _ _ _ _
  case h_9 => cases hcall; exact c.serves_report_restoration _ _ _ _ _ _
  case h_10 id actor justification clock =>
    cases hcall
    refine .of_frame ?_ (congrArg (fun w => w.jobs)
      (world_clear_quarantine c id actor justification clock))
    unfold Controller.clear_quarantine
    split
    · exact .refl c
    · exact ⟨rfl, rfl, rfl, rfl, Store.stands_commit_quarantine _ _ _⟩
  case h_11 => cases hcall

/-- A replaced topology is the one the store has recorded; the policy stays. -/
theorem set_topology_cases (c : Controller) (t : Topology) :
    ((c.set_topology t).2.policy = c.policy ∧
      (c.set_topology t).2.store.state.policy = c.store.state.policy) ∧
    ((c.set_topology t).2.topology = c.topology ∧
        (c.set_topology t).2.store.state.topology = c.store.state.topology ∨
      Status.isOk (c.set_topology t).1 = true ∧
        (c.set_topology t).2.topology = (c.set_topology t).2.store.state.topology) := by
  have hstore : (c.store.commit_topology t).2.state.policy = c.store.state.policy ∧
      (Status.isOk (c.store.commit_topology t).1 = false →
        (c.store.commit_topology t).2.state.topology = c.store.state.topology) := by
    unfold Store.commit_topology
    split
    · exact ⟨rfl, fun _ => rfl⟩
    · split
      · next h =>
        have hs := Store.stands_append_and_flush h
        exact ⟨hs.policy, fun _ => hs.topology⟩
      · next h =>
        have hs := Store.stands_append_and_flush h
        split
        · exact ⟨hs.policy, fun _ => hs.topology⟩
        · refine ⟨hs.policy, ?_⟩
          intro hno
          cases hno
  unfold set_topology
  split
  · exact ⟨⟨rfl, rfl⟩, .inl ⟨rfl, rfl⟩⟩
  · split
    · next heq =>
      rw [heq] at hstore
      exact ⟨⟨rfl, hstore.1⟩, .inl ⟨rfl, hstore.2 rfl⟩⟩
    · next heq =>
      rw [heq] at hstore
      exact ⟨⟨rfl, hstore.1⟩, .inr ⟨rfl, rfl⟩⟩

theorem set_policy_cases (c : Controller) (p : Policy) :
    ((c.set_policy p).2.topology = c.topology ∧
      (c.set_policy p).2.store.state.topology = c.store.state.topology) ∧
    ((c.set_policy p).2.policy = c.policy ∧
        (c.set_policy p).2.store.state.policy = c.store.state.policy ∨
      Status.isOk (c.set_policy p).1 = true ∧
        (c.set_policy p).2.policy = (c.set_policy p).2.store.state.policy) := by
  have hstore : (c.store.commit_policy p).2.state.topology = c.store.state.topology ∧
      (Status.isOk (c.store.commit_policy p).1 = false →
        (c.store.commit_policy p).2.state.policy = c.store.state.policy) := by
    unfold Store.commit_policy
    split
    · exact ⟨rfl, fun _ => rfl⟩
    · split
      · next h =>
        have hs := Store.stands_append_and_flush h
        exact ⟨hs.topology, fun _ => hs.policy⟩
      · next h =>
        have hs := Store.stands_append_and_flush h
        split
        · exact ⟨hs.topology, fun _ => hs.policy⟩
        · refine ⟨hs.topology, ?_⟩
          intro hno
          cases hno
  unfold set_policy
  split
  · exact ⟨⟨rfl, rfl⟩, .inl ⟨rfl, rfl⟩⟩
  · split
    · next heq =>
      rw [heq] at hstore
      exact ⟨⟨rfl, hstore.1⟩, .inl ⟨rfl, hstore.2 rfl⟩⟩
    · next heq =>
      rw [heq] at hstore
      exact ⟨⟨rfl, hstore.1⟩, .inr ⟨rfl, rfl⟩⟩

/-! ## Restart -/

/-- What the loop of a restart has prepared: versions of stored jobs, with the same bindings. -/
structure Carried (c : Controller) (r : Reconciling) : Prop where
  serves : Serves c r.ctl
  updates : ∀ u ∈ r.updates, ∃ j ∈ c.world.jobs.rows, Carries c.incarnation j u

theorem carries_reblocked (c : Controller) (job : MaintenanceJob) (removed : Bool) (now : Nanos) :
    Serves c (c.reblocked job removed now).2.ctl ∧
      Carries c.incarnation job (c.reblocked job removed now).2.job := by
  unfold reblocked
  split
  · exact ⟨.of_frame (Drive.keeps_transition { ctl := c, job } _ _ _ _).frame
      (Drive.jobs_transition _ _ _ _ _), Drive.carries_transition { ctl := c, job } _ _ _ _⟩
  · exact ⟨.refl c, .same rfl rfl rfl ⟨rfl, rfl⟩ (fun h => h)⟩

theorem serves_reissue (c : Controller) (j : MaintenanceJob) (now : Nanos) :
    Serves c (c.reissue j now).2 := by
  have hstands := Store.stands_reserve_authority c.store (c.reissue_request j now)
  have hjobs : (c.store.reserve_authority (c.reissue_request j now)).2.books.jobs =
      c.world.jobs := by
    rcases Store.reserve_authority_cases c.store (c.reissue_request j now) with
      ⟨_, _, hb⟩ | ⟨_, _, _, _, hb⟩
    · exact congrArg (fun b => b.jobs) hb
    · exact congrArg (fun b => b.jobs) hb
  have hctl : (c.reissue j now).2 =
      { c with store := (c.store.reserve_authority (c.reissue_request j now)).2 } := by
    unfold reissue
    simp only
    split <;> next heq =>
      rw [show c.reissued_reservation _ now = c.reissue_request j now from rfl] at heq
      rw [heq]
  rw [hctl]
  exact .of_frame ⟨rfl, rfl, rfl, rfl, hstands⟩ hjobs

theorem Carried.step {c : Controller} {r : Reconciling} (h : Carried c r) {j : MaintenanceJob}
    (hj : j ∈ c.world.jobs.rows) (now : Nanos) : Carried c (reconcile_job r j now) := by
  rw [reconcile_job_eq]
  by_cases hneeds : r.ctl.needs_reconciling j = true
  · rw [if_pos hneeds]
    have hfenced : Carries c.incarnation j (r.ctl.fenced_job j now) :=
      ⟨rfl, rfl, .inr h.serves.incarnation, ⟨rfl, rfl⟩, fun h => h⟩
    have hminted : Carries c.incarnation j
      (r.ctl.new_attempt_locked (r.ctl.fenced_job j now) now) :=
      ⟨rfl, rfl, .inr h.serves.incarnation, ⟨rfl, rfl⟩, fun h => h⟩
    -- The two kinds of copy: one that re-issues authority, one that gives its lease up.
    have hserves : Serves c (r.copied j now).2.1 := by
      unfold Reconciling.copied
      split
      · exact h.serves.trans (serves_reissue r.ctl j now)
      · refine h.serves.trans ?_
        unfold abandon_lease
        simp only
        split
        · exact .of_frame ⟨rfl, rfl, rfl, rfl, .refl _⟩ rfl
        · exact .refl _
    have hcarries : Carries c.incarnation j (r.copied j now).1 := by
      unfold Reconciling.copied
      split
      · simp only [reissue]
        split
        · exact hminted
        · exact hminted.trans (.same rfl rfl rfl ⟨rfl, rfl⟩ (fun h => h))
      · unfold abandon_lease
        simp only
        split
        · exact hfenced.trans (.same rfl rfl rfl ⟨rfl, rfl⟩ (fun h => h))
        · exact hfenced
    obtain ⟨hblocked, hjob⟩ :=
      carries_reblocked (r.copied j now).2.1 (r.copied j now).1 j.service_removed now
    rw [hserves.incarnation] at hjob
    refine ⟨hserves.trans hblocked, ?_⟩
    intro u hu
    by_cases hchanged : (r.blocked j now).1 = true
    · rw [if_pos hchanged] at hu
      rcases List.mem_append.mp hu with hu | hu
      · exact h.updates u hu
      · rw [List.mem_singleton.mp hu]
        exact ⟨j, hj, hcarries.trans hjob⟩
    · rw [if_neg hchanged] at hu
      exact h.updates u hu
  · rw [if_neg hneeds]
    exact h

theorem Carried.loop {c : Controller} (now : Nanos) : ∀ (jobs : List MaintenanceJob)
    {r : Reconciling}, Carried c r → (∀ j ∈ jobs, j ∈ c.world.jobs.rows) →
    Carried c (jobs.foldl (fun r job => reconcile_job r job now) r)
  | [], _, h, _ => h
  | j :: jobs, _, h, hjobs =>
      Carried.loop now jobs (h.step (hjobs j List.mem_cons_self) now)
        (fun i hi => hjobs i (List.mem_cons_of_mem _ hi))

/-- A restart binds no job anew. -/
theorem serves_reconcile_locked (c : Controller) (now : Nanos) :
    Serves c (c.reconcile_locked now).2 := by
  have hfence : Serves c { c with store := c.store.fence_authority c.incarnation } := by
    refine .of_frame ⟨rfl, rfl, rfl, rfl, c.store.stands_fence_authority c.incarnation⟩ ?_
    show (c.store.fence_authority c.incarnation).books.jobs = c.store.books.jobs
    rcases c.store.fence_authority_books c.incarnation with hb | hb <;> rw [hb]
  have hrows : (c.store.fence_authority c.incarnation).state.jobs.jobs.rows =
      ({ c with store := c.store.fence_authority c.incarnation } : Controller).world.jobs.rows :=
        rfl
  refine hfence.trans ?_
  unfold reconcile_locked
  simp only
  rw [hrows]
  generalize ({ c with store := c.store.fence_authority c.incarnation } : Controller) = c₁
  have hprepared := prepared_loop now c₁.world.jobs.rows { ctl := c₁ } []
    ⟨Changes.refl _, rfl, rfl, List.Sublist.refl _, by simp⟩
    (fun j hj => Table.find_iff_mem.mpr hj)
  have hloop := Carried.loop now c₁.world.jobs.rows (c := c₁) (r := { ctl := c₁ })
    ⟨.refl c₁, by simp⟩ (fun _ hj => hj)
  rw [List.nil_append] at hprepared
  generalize c₁.world.jobs.rows.foldl (fun r job => reconcile_job r job now) { ctl := c₁ } = r
    at hprepared hloop ⊢
  have hids : (r.updates.map (r.ctl.stamped now)).map MaintenanceJob.id =
      r.updates.map MaintenanceJob.id := by
    rw [List.map_map]
    refine List.map_congr_left (fun u _ => ?_)
    exact congrArg Core.id (core_stamped r.ctl now u)
  have hnd : ((r.updates.map (r.ctl.stamped now)).map MaintenanceJob.id).Nodup := by
    rw [hids]
    exact c₁.world.jobs.nodup_keys.sublist hprepared.ids
  have hserves := hloop.serves
  -- Stamping and clipping leave the binding alone.
  have hstamped : ∀ u, Carries c₁.incarnation u (clipped_job (r.ctl.stamped now u)) := by
    intro u
    unfold stamped
    split <;> exact .same rfl rfl rfl ⟨rfl, rfl⟩ (fun h => h)
  split
  · exact ⟨hserves.incarnation, hserves.topology, hserves.policy, hserves.stored, hserves.jobs⟩
  · have hstands := r.ctl.store.stands_commit_jobs (r.updates.map (r.ctl.stamped now))
    have hcommitted : Serves c₁ { r.ctl with
        store := (r.ctl.store.commit_jobs (r.updates.map (r.ctl.stamped now))).2 } := by
      refine ⟨hserves.incarnation, hserves.topology, hserves.policy,
        ⟨hstands.topology.trans hserves.stored.1, hstands.policy.trans hserves.stored.2⟩, ?_⟩
      intro j' hj'
      have hmem : j' ∈ (r.ctl.store.commit_jobs
        (r.updates.map (r.ctl.stamped now))).2.books.jobs.rows :=
        hj'
      rcases Store.commit_jobs_cases r.ctl.store hnd with ⟨_, _, hb⟩ | ⟨_, _, hb⟩
      · rw [hb] at hmem
        exact hserves.jobs j' hmem
      · rw [hb] at hmem
        have hfind := Table.find_iff_mem.mpr hmem
        rcases Table.find_foldl_put_cases ((r.updates.map (r.ctl.stamped now)).map clipped_job)
            r.ctl.store.books.jobs j'.id with ⟨v, hv, _, hput⟩ | ⟨_, hput⟩
        · rw [hput] at hfind
          cases hfind
          obtain ⟨w, hw, rfl⟩ := List.mem_map.mp hv
          obtain ⟨u, hu, rfl⟩ := List.mem_map.mp hw
          obtain ⟨j, hj, hcarries⟩ := hloop.updates u hu
          exact ⟨j, hj, hcarries.trans (hstamped u)⟩
        · rw [hput] at hfind
          exact hserves.jobs j' (Table.mem_of_find hfind)
    split
    · next heq =>
      rw [heq] at hcommitted
      exact hcommitted
    · next heq =>
      rw [heq] at hcommitted
      exact ⟨hcommitted.incarnation, hcommitted.topology, hcommitted.policy, hcommitted.stored,
        hcommitted.jobs⟩

end Controller

/-! ## Steps -/

namespace System

/-- The topology that an accepted call puts in force, as it is recorded. -/
def new_topology (s : System) (e : Event) : Option Topology :=
  match e.label with
  | .set_topology t =>
      let replaced := (under s.ctl e.verdicts).set_topology t
      if s.up && s.pass.isNone && Status.isOk replaced.1 then some replaced.2.store.state.topology
      else none
  | _ => none

/-- The policy that an accepted call puts in force, as it is recorded. -/
def new_policy (s : System) (e : Event) : Option Policy :=
  match e.label with
  | .set_policy p =>
      let replaced := (under s.ctl e.verdicts).set_policy p
      if s.up && s.pass.isNone && Status.isOk replaced.1 then some replaced.2.store.state.policy
      else none
  | _ => none

/-- A running controller works under the configuration that is recorded. -/
structure Configured (s : System) : Prop where
  topology : s.up = true → s.ctl.topology = s.ctl.store.state.topology
  policy : s.up = true → s.ctl.policy = s.ctl.store.state.policy

/-- What a step makes of the configuration, and of what the jobs are bound to. -/
structure Binds (s : System) (e : Event) (s' : System) : Prop where
  configured : s'.Configured
  topology : s'.ctl.store.state.topology = (s.new_topology e).getD s.ctl.store.state.topology
  policy : s'.ctl.store.state.policy = (s.new_policy e).getD s.ctl.store.state.policy
  jobs : ∀ j' ∈ s'.ctl.world.jobs.rows,
    (∃ j ∈ s.ctl.world.jobs.rows, Carries s'.ctl.incarnation j j') ∨
    (j'.binding = {} ∧ j'.owner = s'.ctl.incarnation ∧ s.job j'.id = none ∧ j'.targets ≠ [] ∧
      j'.state = .Proposed) ∨
    ∃ p j, s.driving e = some (p, j) ∧ s.up = true ∧
      Carries s'.ctl.incarnation (s.ctl.rebound j) j'

/-- A step that serves the jobs under the configuration there is. -/
theorem Configured.served {s s' : System} {e : Event} (h : s.Configured)
    (hup : s'.up = true → s.up = true) (htopology : s.new_topology e = none)
    (hpolicy : s.new_policy e = none)
    (hserves : Controller.Serves (under s.ctl e.verdicts) s'.ctl) : s.Binds e s' := by
  refine ⟨⟨?_, ?_⟩, ?_, ?_, ?_⟩
  · intro hup'
    rw [hserves.topology, hserves.stored.1]
    exact h.topology (hup hup')
  · intro hup'
    rw [hserves.policy, hserves.stored.2]
    exact h.policy (hup hup')
  · rw [htopology]
    exact hserves.stored.1
  · rw [hpolicy]
    exact hserves.stored.2
  · intro j' hj'
    have hjobs := hserves.jobs j' hj'
    rw [← hserves.incarnation] at hjobs
    exact .inl hjobs

theorem Configured.restart {s : System} {e : Event} {options : Controller.ControllerOptions}
    {clock : Nanos} {steady : Nat} (label : e.label = .open options clock steady) :
    s.Binds e (System.restart { s with ctl := under s.ctl e.verdicts } options clock steady) := by
  have htopology : s.new_topology e = none := by
    unfold new_topology
    rw [label]
  have hpolicy : s.new_policy e = none := by
    unfold new_policy
    rw [label]
  unfold System.restart
  simp only
  rcases Controller.open_cases (under s.ctl e.verdicts).store options clock steady with
    ⟨_, hdown, hjobs, _, htop, hpol⟩ | ⟨c, _, hboots, hopen⟩
  · refine ⟨⟨?_, ?_⟩, ?_, ?_, ?_⟩
    · intro hup
      rw [hdown] at hup
      cases hup
    · intro hup
      rw [hdown] at hup
      cases hup
    · rw [htopology]
      exact htop
    · rw [hpolicy]
      exact hpol
    · intro j hj
      rw [hjobs] at hj
      exact .inl ⟨j, hj, .refl j⟩
  -- What is in force is read back from the store, and reconciliation leaves it.
  · have hserves := c.serves_reconcile_locked clock
    rw [hopen]
    refine ⟨⟨fun _ => ?_, fun _ => ?_⟩, ?_, ?_, ?_⟩
    · rw [hserves.topology, hserves.stored.1, hboots.topology.1, hboots.topology.2]
    · rw [hserves.policy, hserves.stored.2, hboots.policy.1, hboots.policy.2]
    · rw [htopology, hserves.stored.1]
      exact hboots.topology.2
    · rw [hpolicy, hserves.stored.2]
      exact hboots.policy.2
    · intro j' hj'
      have hcases := hserves.jobs j' hj'
      rw [← hserves.incarnation, hboots.jobs] at hcases
      exact .inl hcases

/-- A call takes place while the process runs and nobody holds the lock. -/
theorem step_set_topology {s : System} {e : Event} {t : Topology}
    (label : e.label = .set_topology t) :
    s.step e = { s with
      ctl := (if s.up && s.pass.isNone then ((under s.ctl e.verdicts).set_topology t).2
        else under s.ctl e.verdicts) } := by
  unfold step
  simp only [label]
  cases up : s.up with
  | false => rfl
  | true =>
    cases pass : s.pass with
    | none => rfl
    | some p => rfl

theorem step_set_policy {s : System} {e : Event} {p : Policy} (label : e.label = .set_policy p) :
    s.step e = { s with
      ctl := (if s.up && s.pass.isNone then ((under s.ctl e.verdicts).set_policy p).2
        else under s.ctl e.verdicts) } := by
  unfold step
  simp only [label]
  cases up : s.up with
  | false => rfl
  | true =>
    cases pass : s.pass with
    | none => rfl
    | some p => rfl

/-- A call that replaces the topology. -/
theorem Configured.set_topology {s : System} (h : s.Configured) {e : Event} {t : Topology}
    (label : e.label = .set_topology t) : s.Binds e (s.step e) := by
  have hpolicy : s.new_policy e = none := by
    unfold new_policy
    rw [label]
  have hnew : s.new_topology e = if s.up && s.pass.isNone &&
      Status.isOk ((under s.ctl e.verdicts).set_topology t).1 then
        some ((under s.ctl e.verdicts).set_topology t).2.store.state.topology else none := by
    unfold new_topology
    rw [label]
  have hworld := Controller.world_set_topology (under s.ctl e.verdicts) t
  obtain ⟨⟨hpol, hstored⟩, htopology⟩ := (under s.ctl e.verdicts).set_topology_cases t
  rw [step_set_topology label]
  generalize (under s.ctl e.verdicts).set_topology t = out at hworld hpol hstored htopology hnew ⊢
  -- A call is taken only while a process is up and no pass is open.
  by_cases henabled : (s.up && s.pass.isNone) = true
  · have hjobs : out.2.world.jobs = s.ctl.world.jobs := by rw [hworld]; rfl
    rw [if_pos henabled]
    rw [henabled, Bool.true_and] at hnew
    refine ⟨⟨fun hup => ?_, fun hup => ?_⟩, ?_, ?_, ?_⟩
    · rcases htopology with ⟨htop, hsame⟩ | ⟨_, hsame⟩
      · show out.2.topology = out.2.store.state.topology
        rw [htop, hsame]
        exact h.topology hup
      · exact hsame
    · show out.2.policy = out.2.store.state.policy
      rw [hpol, hstored]
      exact h.policy hup
    · rw [hnew]
      by_cases hok : Status.isOk out.1 = true
      · rw [if_pos hok]
        rfl
      · rw [if_neg hok]
        rcases htopology with ⟨_, hsame⟩ | ⟨hyes, _⟩
        · exact hsame
        · exact absurd hyes hok
    · rw [hpolicy]
      exact hstored
    · intro j hj
      have hmem : j ∈ out.2.world.jobs.rows := hj
      rw [hjobs] at hmem
      exact .inl ⟨j, hmem, .refl j⟩
  · rw [if_neg henabled]
    rw [Bool.of_not_eq_true henabled, Bool.false_and] at hnew
    exact h.served id hnew hpolicy (.refl _)

theorem Configured.set_policy {s : System} (h : s.Configured) {e : Event} {p : Policy}
    (label : e.label = .set_policy p) : s.Binds e (s.step e) := by
  have htopology : s.new_topology e = none := by
    unfold new_topology
    rw [label]
  have hnew : s.new_policy e = if s.up && s.pass.isNone &&
      Status.isOk ((under s.ctl e.verdicts).set_policy p).1 then
        some ((under s.ctl e.verdicts).set_policy p).2.store.state.policy else none := by
    unfold new_policy
    rw [label]
  have hworld := Controller.world_set_policy (under s.ctl e.verdicts) p
  obtain ⟨⟨htop, hstored⟩, hpolicy⟩ := (under s.ctl e.verdicts).set_policy_cases p
  rw [step_set_policy label]
  generalize (under s.ctl e.verdicts).set_policy p = out at hworld htop hstored hpolicy hnew ⊢
  -- As for the topology, with the roles of the two exchanged.
  by_cases henabled : (s.up && s.pass.isNone) = true
  · have hjobs : out.2.world.jobs = s.ctl.world.jobs := by rw [hworld]; rfl
    rw [if_pos henabled]
    rw [henabled, Bool.true_and] at hnew
    refine ⟨⟨fun hup => ?_, fun hup => ?_⟩, ?_, ?_, ?_⟩
    · show out.2.topology = out.2.store.state.topology
      rw [htop, hstored]
      exact h.topology hup
    · rcases hpolicy with ⟨hpol, hsame⟩ | ⟨_, hsame⟩
      · show out.2.policy = out.2.store.state.policy
        rw [hpol, hsame]
        exact h.policy hup
      · exact hsame
    · rw [htopology]
      exact hstored
    · rw [hnew]
      by_cases hok : Status.isOk out.1 = true
      · rw [if_pos hok]
        rfl
      · rw [if_neg hok]
        rcases hpolicy with ⟨_, hsame⟩ | ⟨hyes, _⟩
        · exact hsame
        · exact absurd hyes hok
    · intro j hj
      have hmem : j ∈ out.2.world.jobs.rows := hj
      rw [hjobs] at hmem
      exact .inl ⟨j, hmem, .refl j⟩
  · rw [if_neg henabled]
    rw [Bool.of_not_eq_true henabled, Bool.false_and] at hnew
    exact h.served id htopology hnew (.refl _)

/-- One step of any kind. -/
theorem Configured.step {s : System} (h : s.Configured) (e : Event) : s.Binds e (s.step e) := by
  -- The two calls that change what is in force come first; every other step keeps both.
  by_cases htopology : ∃ t, e.label = .set_topology t
  · obtain ⟨t, label⟩ := htopology
    exact h.set_topology label
  by_cases hpolicy : ∃ p, e.label = .set_policy p
  · obtain ⟨p, label⟩ := hpolicy
    exact h.set_policy label
  have htopology : ∀ t, e.label ≠ .set_topology t := fun t label => htopology ⟨t, label⟩
  have hpolicy : ∀ p, e.label ≠ .set_policy p := fun p label => hpolicy ⟨p, label⟩
  have hkept_topology : s.new_topology e = none := by
    unfold new_topology
    split
    · next t label => exact absurd label (htopology t)
    · rfl
  have hkept_policy : s.new_policy e = none := by
    unfold new_policy
    split
    · next p label => exact absurd label (hpolicy p)
    · rfl
  have hserved := fun s' hup => @Configured.served s s' e h hup hkept_topology hkept_policy
  have hdid := s.step_did e
  have hrestart : ∀ o c t, e.label = .open o c t → s.Binds e
      (System.restart { s with ctl := under s.ctl e.verdicts } o c t) :=
    fun _ _ _ hl => Configured.restart hl
  generalize s.step e = s' at hdid ⊢
  generalize hc : under s.ctl e.verdicts = c at hdid hrestart hserved
  cases hdid with
  | nothing => exact hserved _ id (.refl c)
  | restarted label => exact hrestart _ _ _ label
  -- A drive is the one step that binds a job anew.
  | @drove p id rest label up pass remaining =>
    obtain ⟨hframe, _⟩ := c.keeps_drive_locked id (p.context c) p.actions
    have hrows := fun j' => @Controller.rows_drive_locked c id (p.context c) p.actions j'
    have htop : c.topology = s.ctl.topology := by rw [← hc]; rfl
    have hpol : c.policy = s.ctl.policy := by rw [← hc]; rfl
    have hstore : c.store.state = s.ctl.store.state := by rw [← hc]; rfl
    refine ⟨⟨fun _ => ?_, fun _ => ?_⟩, ?_, ?_, ?_⟩
    · show (c.drive_locked id (p.context c) p.actions).1.topology = _
      rw [hframe.topology, hframe.store.topology, htop, hstore]
      exact h.topology up
    · show (c.drive_locked id (p.context c) p.actions).1.policy = _
      rw [hframe.policy, hframe.store.policy, hpol, hstore]
      exact h.policy up
    · rw [hkept_topology, Option.getD_none]
      exact hframe.store.topology.trans (by rw [hstore])
    · rw [hkept_policy, Option.getD_none]
      exact hframe.store.policy.trans (by rw [hstore])
    · intro j' hj'
      have hjobs : c.world.jobs = s.ctl.world.jobs := by rw [← hc]; rfl
      have hcurrent : (c.drive_locked id (p.context c) p.actions).1.incarnation = c.incarnation :=
        hframe.incarnation
      rcases hrows j' hj' with hkept | ⟨j, hj, hcarries⟩
      · rw [hjobs] at hkept
        exact .inl ⟨j', hkept, .refl j'⟩
      · rw [hjobs] at hj
        refine .inr (.inr ⟨p, j, driving_eq label pass remaining hj, up, ?_⟩)
        show Carries (c.drive_locked id (p.context c) p.actions).1.incarnation _ j'
        rw [hcurrent, show s.ctl.rebound j = c.rebound j by rw [← hc]; rfl]
        exact hcarries
  | @closed p _ _ _ _ =>
    refine hserved _ id ((c.serves_arbitrate_locked (p.context c)).trans ?_)
    exact .of_frame ⟨rfl, rfl, rfl, rfl, .refl _⟩ rfl
  | ticked _ _ _ _ => exact hserved _ id (.refl c)
  -- The ledger is expired, which keeps every job.
  | @began thread t _ _ _ _ _ =>
    refine hserved _ id ⟨rfl, rfl, rfl, ?_, ?_⟩
    · have hstands := c.store.stands_expire_authority t.now
      exact ⟨hstands.topology, hstands.policy⟩
    · intro j hj
      have hjobs : (c.store.expire_authority t.now).books.jobs = c.world.jobs := by
        rcases c.store.expire_authority_books t.now with hb | hb <;> rw [hb] <;> rfl
      exact ⟨j, hjobs ▸ hj, .refl j⟩
  | marked _ _ _ _ _ =>
    refine hserved _ id ?_
    simp only
    split
    · exact .of_frame ⟨rfl, rfl, rfl, rfl, .refl _⟩ rfl
    · exact .refl c
  | @answered _ _ t action _ _ _ _ _ _ _ =>
    exact hserved _ id (c.serves_apply_outcome action _ t.now)
  | finished _ _ _ _ _ => exact hserved _ id (.refl c)
  | @called ctl _ _ call =>
    -- `propose` adds a job, so it is not among those that only serve what is stored.
    by_cases hpropose : ∃ request actor clock, e.label = .propose request actor clock
    · obtain ⟨request, actor, clock, label⟩ := hpropose
      rw [label] at call
      cases call
      obtain ⟨hframe, hrows⟩ := c.rows_propose request actor clock
      have hctl : c.topology = s.ctl.topology ∧ c.policy = s.ctl.policy ∧
          c.store.state = s.ctl.store.state ∧ c.world.jobs = s.ctl.world.jobs := by
        rw [← hc]
        exact ⟨rfl, rfl, rfl, rfl⟩
      refine ⟨⟨fun hup => ?_, fun hup => ?_⟩, ?_, ?_, ?_⟩
      · show (c.propose request actor clock).2.topology = _
        rw [hframe.topology, hframe.store.topology, hctl.1, hctl.2.2.1]
        exact h.topology hup
      · show (c.propose request actor clock).2.policy = _
        rw [hframe.policy, hframe.store.policy, hctl.2.1, hctl.2.2.1]
        exact h.policy hup
      · rw [hkept_topology, Option.getD_none]
        exact hframe.store.topology.trans (by rw [hctl.2.2.1])
      · rw [hkept_policy, Option.getD_none]
        exact hframe.store.policy.trans (by rw [hctl.2.2.1])
      · intro j' hj'
        rcases hrows j' hj' with hkept | ⟨hblank, howner, hunused, htargets⟩
        · rw [hctl.2.2.2] at hkept
          exact .inl ⟨j', hkept, .refl j'⟩
        · rw [hctl.2.2.2] at hunused
          exact .inr (.inl ⟨hblank, howner.trans hframe.incarnation.symm, hunused, htargets⟩)
    · exact hserved _ id (Controller.serves_call call htopology hpolicy
        (fun request actor clock label => hpropose ⟨request, actor, clock, label⟩))

/-- A job that was there before is a version of itself, or has just been driven. -/
theorem Binds.version {s s' : System} {e : Event} (h : s.Binds e s') {id : JobId}
    {j j' : MaintenanceJob} (hj : s.job id = some j) (hj' : s'.job id = some j') :
    Carries s'.ctl.incarnation j j' ∨
      ∃ p, s.driving e = some (p, j) ∧ s.up = true ∧
        Carries s'.ctl.incarnation (s.ctl.rebound j) j' := by
  have hid : j'.id = id := Table.key_of_find hj'
  have hsame : ∀ x ∈ s.ctl.world.jobs.rows, j'.id = x.id → x = j := by
    intro x hx heq
    have hx : s.job x.id = some x := Table.find_iff_mem.mpr hx
    rw [← heq, hid, hj] at hx
    exact (Option.some.inj hx).symm
  rcases h.jobs j' (Table.mem_of_find hj') with
    ⟨x, hx, hcarries⟩ | ⟨_, _, hunused, _⟩ | ⟨p, x, hdriving, hup, hcarries⟩
  · cases hsame x hx hcarries.id
    exact .inl hcarries
  · rw [hid, hj] at hunused
    cases hunused
  · obtain ⟨_, _, hx, _⟩ := driving_spec hdriving
    have hrebound : (s.ctl.rebound x).id = x.id := by
      unfold Controller.rebound
      split <;> rfl
    cases hsame x (Table.mem_of_find hx) (hcarries.id.trans hrebound)
    exact .inr ⟨p, hdriving, hup, hcarries⟩

/-- A job that was not there before has just been proposed. -/
theorem Binds.newcomer {s s' : System} {e : Event} (h : s.Binds e s') {id : JobId}
    {j' : MaintenanceJob} (hj : s.job id = none) (hj' : s'.job id = some j') :
    j'.targets ≠ [] ∧ j'.state = .Proposed := by
  have hid : j'.id = id := Table.key_of_find hj'
  have hnobody : ∀ x ∈ s.ctl.world.jobs.rows, j'.id ≠ x.id := by
    intro x hx hsame
    have hx : s.job x.id = some x := Table.find_iff_mem.mpr hx
    rw [← hsame, hid, hj] at hx
    cases hx
  rcases h.jobs j' (Table.mem_of_find hj') with
    ⟨x, hx, hcarries⟩ | ⟨_, _, _, hnew⟩ | ⟨p, x, hdriving, _, hcarries⟩
  · exact absurd hcarries.id (hnobody x hx)
  · exact hnew
  · obtain ⟨_, _, hx, _⟩ := driving_spec hdriving
    have hrebound : (s.ctl.rebound x).id = x.id := by
      unfold Controller.rebound
      split <;> rfl
    exact absurd (hcarries.id.trans hrebound) (hnobody x (Table.mem_of_find hx))

theorem configured_initial : initial.Configured where
  topology := fun hup => by cases hup
  policy := fun hup => by cases hup

end System

end MaintenanceFabric
