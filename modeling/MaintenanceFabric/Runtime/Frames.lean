import MaintenanceFabric.Runtime.System
import MaintenanceFabric.Store.Standing

/-! # What a pass leaves alone

    A pass reads policy, topology and incarnation, and never writes them; nor
    does it queue deferred releases or write a drain lease.  And every drain
    request it asks for carries a valid attempt, which is what later protects
    a finished job from a late answer.
-/

namespace MaintenanceFabric

/-- Requests carry the attempt that made them. -/
def DrainAction.Tokened (a : DrainAction) : Prop := a.kind = .Request → a.attempt.valid = true

theorem DrainAction.tokened_release {a : DrainAction} (h : a.kind = .Release) : a.Tokened := by
  intro hr
  rw [h] at hr
  cases hr

/-- The fields a pass only reads. -/
structure Frame (c c' : Controller) : Prop where
  incarnation : c'.incarnation = c.incarnation
  policy : c'.policy = c.policy
  topology : c'.topology = c.topology
  deferred : c'.deferred_releases = c.deferred_releases
  store : c.store.Stands c'.store

namespace Frame

variable {c c' c'' : Controller}

theorem refl (c : Controller) : Frame c c := ⟨rfl, rfl, rfl, rfl, .refl _⟩

theorem trans (h : Frame c c') (h' : Frame c' c'') : Frame c c'' :=
  ⟨h'.incarnation.trans h.incarnation, h'.policy.trans h.policy, h'.topology.trans h.topology,
    h'.deferred.trans h.deferred, h.store.trans h'.store⟩

theorem foldl {α : Type} {f : Controller → α → Controller} (h : ∀ c a, Frame c (f c a)) :
    ∀ (l : List α) (c : Controller), Frame c (l.foldl f c)
  | [], c => refl c
  | a :: l, c => (h c a).trans (foldl h l (f c a))

end Frame

theorem Controller.frame_commit (c : Controller) (job : MaintenanceJob) (now : Nanos) :
    Frame c (c.commit_job_locked job now).2 := by
  unfold Controller.commit_job_locked
  split
  · exact .refl c
  · exact ⟨rfl, rfl, rfl, rfl, Store.stands_commit_job _ _⟩

/-- A record of the controller's own goes to the evidence only. -/
theorem Controller.frame_author_evidence (c : Controller) (kind : EvidenceKind) (target : TargetId)
    (source : SourceId) (now : Nanos) (payload : EvidencePayload) (job : JobId)
    (attempt : AttemptId) :
    Frame c (c.author_evidence kind target source now payload job attempt).2 := by
  have hallocated : c.store.Stands c.store.allocate_evidence_id.2 := ⟨rfl, rfl, rfl, rfl⟩
  exact ⟨rfl, rfl, rfl, rfl, hallocated.trans (Store.stands_observe_evidence _ _)⟩

namespace Drive

/-- From one drive to the next: the frame is kept, and only tokened actions are added. -/
structure Keeps (d d' : Drive) : Prop where
  frame : Frame d.ctl d'.ctl
  actions : (∀ a ∈ d.actions.getD [], a.Tokened) → ∀ a ∈ d'.actions.getD [], a.Tokened

namespace Keeps

variable {d d' d'' : Drive}

theorem refl (d : Drive) : Keeps d d := ⟨.refl _, id⟩

theorem trans (h : Keeps d d') (h' : Keeps d' d'') : Keeps d d'' :=
  ⟨h.frame.trans h'.frame, fun ha => h'.actions (h.actions ha)⟩

/-- The job copy is not part of it. -/
theorem of_job (h : Frame d.ctl d'.ctl) (ha : d'.actions = d.actions) : Keeps d d' :=
  ⟨h, by rw [ha]; exact id⟩

end Keeps

theorem keeps_push (d : Drive) {a : DrainAction} (ha : a.Tokened) : Keeps d (d.push a) := by
  refine ⟨.refl _, ?_⟩
  intro h x hx
  unfold push at hx
  cases hd : d.actions with
  | none => simp [hd] at hx
  | some as =>
    simp only [hd, Option.map_some, Option.getD_some, List.mem_append, List.mem_singleton] at hx h
    rcases hx with hx | rfl
    · exact h x hx
    · exact ha

theorem keeps_release_resources (d : Drive) : Keeps d d.release_resources_locked := by
  have hauthority : Keeps d d.release_authority := by
    unfold release_authority
    split
    · exact .of_job ⟨rfl, rfl, rfl, rfl, Store.stands_release_authority _ _ _⟩ rfl
    · exact .refl d
  refine hauthority.trans ?_
  show Keeps d.release_authority d.release_authority.release_lease
  unfold release_lease
  split
  · exact (keeps_push _ (DrainAction.tokened_release rfl)).trans (.of_job (.refl _) rfl)
  · exact .refl _

theorem keeps_transition (d : Drive) (to_state : JobState) (reason : BlockReason) (detail : Text)
    (now : Nanos) : Keeps d (d.transition_locked to_state reason detail now).2 := by
  unfold transition_locked
  split
  · simp only
    have hmoved : Keeps d { d with
        job := entered d.job to_state reason detail now d.ctl.incarnation } := .of_job (.refl _) rfl
    have hfreed : ∀ b : Bool, Keeps d (if b then Drive.release_resources_locked { d with
        job := entered d.job to_state reason detail now d.ctl.incarnation } else { d with
        job := entered d.job to_state reason detail now d.ctl.incarnation }) := by
      intro b
      split
      · exact hmoved.trans (keeps_release_resources _)
      · exact hmoved
    split
    · exact (hfreed _).trans (.of_job (.refl _) rfl)
    · exact hfreed _
  · exact .refl d

/-- A transition of a prepared copy. -/
theorem keeps_prepared (d : Drive) (job : MaintenanceJob) (to_state : JobState)
    (reason : BlockReason) (detail : Text) (now : Nanos) :
    Keeps d (Drive.transition_locked { d with job } to_state reason detail now).2 := by
  have hprepared : Keeps d { d with job } := .of_job (.refl _) rfl
  exact hprepared.trans (keeps_transition _ _ _ _ _)

theorem frame_quarantine (c : Controller) (job : MaintenanceJob) (reason : BlockReason)
    (detail : Text) (now : Nanos) :
    Frame c (c.quarantine_targets_locked job reason detail now) := by
  unfold Controller.quarantine_targets_locked
  apply Frame.foldl
  intro c target
  exact ⟨rfl, rfl, rfl, rfl, Store.stands_quarantine_target _ _ _ _ _ _ _ _⟩

/-- A transition of a prepared copy, out of a controller that has done something first. -/
theorem keeps_after (d : Drive) {ctl : Controller} (h : Frame d.ctl ctl) (job : MaintenanceJob)
    (to_state : JobState) (reason : BlockReason) (detail : Text) (now : Nanos) :
    Keeps d (Drive.transition_locked { d with ctl, job } to_state reason detail now).2 := by
  have hprepared : Keeps d { d with ctl, job } := .of_job h rfl
  exact hprepared.trans (keeps_transition _ _ _ _ _)

theorem keeps_violation (d : Drive) (evaluation : PreconditionSet) (now : Nanos) :
    Keeps d (d.block_on_violation evaluation now).2 := by
  unfold block_on_violation
  split <;> exact keeps_transition d _ _ _ _

/-! ## The drive functions -/

theorem keeps_await (d : Drive) (context : PassContext)
    (token : d.job.active_attempt.valid = true) :
    Keeps d (d.await_prerequisites context).2 := by
  unfold await_prerequisites
  simp only
  split
  · split
    · exact keeps_transition d _ _ _ _
    · unfold request_drain
      split
      · exact .refl d
      · exact (keeps_push d (fun _ => token)).trans (.of_job ⟨rfl, rfl, rfl, rfl, .refl _⟩ rfl)
  · split
    · exact keeps_violation d _ _
    · split
      · exact .of_job (.refl _) rfl
      · exact keeps_prepared d _ _ _ _ _

theorem keeps_prerequisites (d : Drive) (context : PassContext) :
    Keeps d (d.drive_prerequisites_locked context).2 := by
  unfold drive_prerequisites_locked
  simp only
  split
  · exact .of_job (.refl _) rfl
  · next htoken =>
    have htoken : d.job.active_attempt.valid = true := by simpa using htoken
    split
    · exact .refl d
    · split
      · exact .of_job (.refl _) rfl
      · split
        · -- The renewal writes the ledger only.
          have hstands := Store.stands_renew_authority d.ctl.store d.job.authority
            d.job.active_attempt d.ctl.incarnation (renewal_margin d.ctl.policy) context.now
          have hrenewed : ∀ store : Store, d.ctl.store.Stands store →
              Keeps d { d with ctl := { d.ctl with store } } :=
            fun _ h => .of_job ⟨rfl, rfl, rfl, rfl, h⟩ rfl
          split
          · split
            · exact (hrenewed _ hstands).trans (.of_job (.refl _) rfl)
            · exact (hrenewed _ hstands).trans (keeps_transition _ _ _ _ _)
          · exact (hrenewed _ hstands).trans (keeps_await _ context htoken)
        · exact keeps_await d context htoken

theorem keeps_validated (d : Drive) (context : PassContext) :
    Keeps d (d.drive_validated_locked context).2 := by
  unfold drive_validated_locked
  split
  · exact keeps_transition d _ _ _ _
  · split
    · exact keeps_transition d _ _ _ _
    · exact keeps_prepared d _ _ _ _ _

theorem keeps_ready (d : Drive) (context : PassContext) :
    Keeps d (d.drive_ready_locked context).2 := by
  unfold drive_ready_locked
  simp only
  split
  · exact keeps_violation d _ _
  · split
    · exact keeps_transition d _ _ _ _
    · split
      · exact keeps_transition d _ _ _ _
      · exact keeps_prepared d _ _ _ _ _

theorem keeps_blocked (d : Drive) (context : PassContext) :
    Keeps d (d.drive_blocked_locked context).2 := by
  unfold drive_blocked_locked
  simp only
  split
  · exact .refl d
  · split
    · exact .refl d
    · split
      · exact keeps_prepared d _ _ _ _ _
      · exact keeps_transition d _ _ _ _

theorem keeps_finish_step (d : Drive) (complete any_failed : Bool) (now : Nanos) :
    Keeps d (d.finish_step complete any_failed now).2 := by
  unfold finish_step
  split
  · exact .refl d
  · exact keeps_prepared d _ _ _ _ _

theorem keeps_in_maintenance (d : Drive) (context : PassContext) :
    Keeps d (d.drive_in_maintenance_locked context).2 := by
  unfold drive_in_maintenance_locked
  have hfinish := fun complete any_failed => keeps_finish_step d complete any_failed context.now
  simp only
  split
  · split
    · split
      · exact keeps_after d (frame_quarantine _ _ _ _ _) _ _ _ _ _
      · exact hfinish _ _
    · split
      · exact .of_job (.refl _) rfl
      · exact hfinish _ _
    · split
      · exact .of_job (.refl _) rfl
      · exact hfinish _ _
  · exact hfinish _ _

theorem keeps_verifying (d : Drive) (context : PassContext) :
    Keeps d (d.drive_verifying_locked context).2 := by
  unfold drive_verifying_locked
  simp only
  split
  · split
    · split
      · exact keeps_after d (frame_quarantine _ _ _ _ _) _ _ _ _ _
      · exact .of_job (.refl _) rfl
    · exact .of_job (.refl _) rfl
  · exact keeps_prepared d _ _ _ _ _

theorem frame_record_restoration (c : Controller) (job : MaintenanceJob) (context : PassContext) :
    Frame c (record_restoration c job context) := by
  unfold record_restoration
  apply Frame.foldl
  intro c target
  exact c.frame_author_evidence _ _ _ _ _ _ _

theorem keeps_restoring (d : Drive) (context : PassContext) :
    Keeps d (d.drive_restoring_locked context).2 := by
  unfold drive_restoring_locked
  simp only
  split
  · unfold request_release
    split
    · exact .refl d
    · exact (keeps_push d (DrainAction.tokened_release rfl)).trans
        (.of_job ⟨rfl, rfl, rfl, rfl, .refl _⟩ rfl)
  · split
    · split
      · split
        · exact keeps_after d (frame_quarantine _ _ _ _ _) _ _ _ _ _
        · exact .of_job (.refl _) rfl
      · exact .of_job (.refl _) rfl
    · split
      · exact keeps_after d (frame_record_restoration _ _ _) _ _ _ _ _
      · exact keeps_after d (frame_record_restoration _ _ _) _ _ _ _ _

theorem keeps_state (d : Drive) (context : PassContext) : Keeps d (d.drive_state context).2 := by
  unfold drive_state
  split
  · exact keeps_validated d context
  · exact keeps_prerequisites d context
  · exact keeps_ready d context
  · exact keeps_blocked d context
  · exact keeps_in_maintenance d context
  · exact keeps_verifying d context
  · exact keeps_restoring d context
  all_goals exact .refl d

end Drive

namespace Controller

/-- A drive keeps the frame and adds only tokened actions. -/
theorem keeps_drive_locked (c : Controller) (id : JobId) (context : PassContext)
    (actions : List DrainAction) :
    Frame c (c.drive_locked id context actions).1 ∧
      ((∀ a ∈ actions, a.Tokened) → ∀ a ∈ (c.drive_locked id context actions).2, a.Tokened) := by
  unfold drive_locked
  split
  · exact ⟨.refl c, fun h => h⟩
  · next current _ =>
    split
    · exact ⟨.refl c, fun h => h⟩
    · have hkeeps := Drive.keeps_state { ctl := c, job := current, actions := some actions } context
      refine ⟨?_, hkeeps.actions⟩
      simp only
      split
      · exact hkeeps.frame.trans (frame_commit _ _ _)
      · exact hkeeps.frame

theorem frame_arbitrate_locked (c : Controller) (context : PassContext) :
    Frame c (c.arbitrate_locked context) := by
  unfold arbitrate_locked
  refine Frame.foldl ?_ _ c
  intro c decision
  unfold apply_decision
  split
  · unfold apply_denial
    split
    · exact .refl c
    · next denied _ =>
      split
      · exact .refl c
      · have hkeeps := Drive.keeps_transition { ctl := c, job := denied, actions := some [] }
          .Blocked decision.reason decision.detail context.now
        exact hkeeps.frame.trans (frame_commit _ _ _)
  · unfold apply_grant
    split
    · next granted _ _ =>
      have hstands := Store.stands_insert_authority c.store granted
      split
      · next heq =>
        rw [heq] at hstands
        exact ⟨rfl, rfl, rfl, rfl, hstands⟩
      · next store heq =>
        rw [heq] at hstands
        have hinserted : Frame c { c with store } := ⟨rfl, rfl, rfl, rfl, hstands⟩
        exact hinserted.trans (frame_commit _ _ _)
    · exact .refl c
  · exact .refl c

theorem tokened_sweep_orphans (c : Controller) {actions : List DrainAction}
    (h : ∀ a ∈ actions, a.Tokened) : ∀ a ∈ (c.sweep_orphans actions).2, a.Tokened := by
  intro a ha
  unfold sweep_orphans at ha
  simp only [List.mem_append, List.mem_map] at ha
  rcases ha with ha | ⟨_, _, rfl⟩
  · exact h a ha
  · exact DrainAction.tokened_release rfl

/-! ## Releases that wait for the next pass -/

/-- What waits for the next pass may become its first actions. -/
def Deferred (c : Controller) : Prop := ∀ a ∈ c.deferred_releases, a.Tokened

theorem Deferred.of_eq {c c' : Controller} (h : c.Deferred)
    (heq : c'.deferred_releases = c.deferred_releases) : c'.Deferred := by
  unfold Deferred
  rw [heq]
  exact h

theorem Deferred.append {c c' : Controller} (h : c.Deferred) {actions : List DrainAction}
    (heq : c'.deferred_releases = c.deferred_releases ++ actions)
    (hnew : ∀ a ∈ actions, a.Tokened) : c'.Deferred := by
  unfold Deferred
  rw [heq]
  intro a ha
  rcases List.mem_append.mp ha with ha | ha
  · exact h a ha
  · exact hnew a ha

theorem deferred_record_completion (job : JobId) (attempt : AttemptId) (succeeded : Bool)
    (now : Nanos) : ∀ (targets : List TargetId) (c : Controller),
      (record_completion job attempt succeeded now c targets).2.deferred_releases =
        c.deferred_releases
  | [], _ => rfl
  | target :: rest, c => by
      have hone : (c.author_evidence .MaintenanceCompletion target ⟨1⟩ now
          { result := succeeded, health := if succeeded then .Degraded else .Down } job
          attempt).2.deferred_releases = c.deferred_releases := rfl
      unfold record_completion
      split
      · next heq =>
        rw [heq] at hone
        exact hone
      · next heq =>
        rw [heq] at hone
        exact (deferred_record_completion job attempt succeeded now rest _).trans hone

/-- Releases a re-arm or a cancellation has produced. -/
theorem Deferred.release {c : Controller} (h : c.Deferred) {d d' : Drive} (hctl : d.ctl = c)
    (hnone : d.actions = some []) (hkeeps : Drive.Keeps d d') {job : MaintenanceJob} {now : Nanos}
    {committed : Status × Controller} (hcommit : d'.ctl.commit_job_locked job now = committed) :
    committed.2.Deferred ∧ (committed.2.defer_releases (d'.actions.getD [])).Deferred := by
  have hactions : ∀ a ∈ d'.actions.getD [], a.Tokened := hkeeps.actions (by simp [hnone])
  have hframe := hkeeps.frame.trans (frame_commit d'.ctl job now)
  rw [hcommit] at hframe
  have hcommitted : committed.2.Deferred := h.of_eq (hframe.deferred.trans (by rw [hctl]))
  exact ⟨hcommitted, hcommitted.append rfl hactions⟩

theorem Deferred.rearm {c : Controller} (h : c.Deferred) (job : JobId) (actor : Text)
    (now : Nanos) : (c.rearm job actor now).2.Deferred := by
  unfold Controller.rearm
  split
  · exact h
  · next current _ =>
    split
    · exact h
    · split
      · exact h
      · have hkeeps := Drive.keeps_release_resources
          { ctl := c, job := current, actions := some [] }
        simp only
        split
        · split
          · next heq => exact (h.release rfl rfl hkeeps heq).1
          · next heq => exact (h.release rfl rfl hkeeps heq).2
        · exact h.of_eq hkeeps.frame.deferred

theorem Deferred.cancel {c : Controller} (h : c.Deferred) (job : JobId) (actor reason : Text)
    (now : Nanos) : (c.cancel job actor reason now).2.Deferred := by
  unfold Controller.cancel
  split
  · exact h
  · next current _ =>
    split
    · exact h
    · split
      · exact h
      · have hkeeps := Drive.keeps_transition { ctl := c, job := current, actions := some [] }
          .Cancelled .None (text "cancelled by " ++ actor ++ text ": " ++ reason) now
        split
        · next heq =>
          rw [heq] at hkeeps
          exact h.of_eq hkeeps.frame.deferred
        · next heq =>
          rw [heq] at hkeeps
          split
          · next heq => exact (h.release rfl rfl hkeeps heq).1
          · next heq => exact (h.release rfl rfl hkeeps heq).2

/-- No call of the interface queues anything but releases. -/
theorem Deferred.call {c c' : Controller} {label : Label} (h : c.Deferred)
    (hcall : c.call label = some c') : c'.Deferred := by
  -- Two calls release what a job holds; the others leave the queue as it was.
  cases label with
  | set_topology topology =>
    cases Option.some.inj hcall
    refine h.of_eq ?_
    unfold Controller.set_topology
    split
    · rfl
    · split <;> rfl
  | set_policy policy =>
    cases Option.some.inj hcall
    refine h.of_eq ?_
    unfold Controller.set_policy
    split
    · rfl
    · split <;> rfl
  | propose request actor clock =>
    cases Option.some.inj hcall
    refine h.of_eq ?_
    unfold Controller.propose
    split <;> rfl
  | approve job actor entry_at commit_at =>
    cases Option.some.inj hcall
    refine h.of_eq ?_
    unfold Controller.approve
    split
    · rfl
    · split
      · rfl
      · exact (frame_commit _ _ _).deferred
  | rearm job actor clock =>
    cases Option.some.inj hcall
    exact h.rearm job actor clock
  | cancel job actor reason clock =>
    cases Option.some.inj hcall
    exact h.cancel job actor reason clock
  | observe evidence =>
    cases Option.some.inj hcall
    refine h.of_eq ?_
    unfold Controller.observe completed_evidence
    simp only
    split <;> split <;> rfl
  | report_completion job attempt succeeded detail clock =>
    cases Option.some.inj hcall
    refine h.of_eq ?_
    unfold Controller.report_completion
    split
    · rfl
    · next current _ =>
      split
      · rfl
      · split
        · rfl
        · have hrec := deferred_record_completion job attempt succeeded clock current.removal_set c
          split
          · next heq =>
            rw [heq] at hrec
            exact hrec
          · next heq =>
            rw [heq] at hrec
            exact (frame_commit _ _ _).deferred.trans hrec
  | report_restoration job attempt target restored detail clock =>
    cases Option.some.inj hcall
    refine h.of_eq ?_
    unfold Controller.report_restoration
    split
    · rfl
    · split
      · rfl
      · split
        · rfl
        · have hrec : (c.author_evidence .RestorationCheck target ⟨2⟩ clock
              { result := restored, health := if restored then .Healthy else .Down } job
              attempt).2.deferred_releases = c.deferred_releases := rfl
          split
          · next heq =>
            rw [heq] at hrec
            exact hrec
          · next heq =>
            rw [heq] at hrec
            exact (frame_commit _ _ _).deferred.trans hrec
  | clear_quarantine id actor justification clock =>
    cases Option.some.inj hcall
    refine h.of_eq ?_
    unfold Controller.clear_quarantine
    split <;> rfl
  | _ => cases hcall

theorem Deferred.apply_release {c : Controller} (h : c.Deferred) (action : DrainAction)
    (response : DrainResponse) (lease : DrainLeaseId) (now : Nanos) :
    (c.apply_release action response lease now).Deferred := by
  unfold Controller.apply_release
  simp only
  split
  · unfold forget_lease
    split
    · exact h.of_eq rfl
    · exact h.of_eq (frame_commit _ _ _).deferred
  · exact h.of_eq rfl

theorem Deferred.apply_stale {c : Controller} (h : c.Deferred) (response : DrainResponse)
    (lease : DrainLeaseId) : (c.apply_stale response lease).Deferred := by
  unfold Controller.apply_stale
  split
  · refine h.append rfl ?_
    intro a ha
    rw [List.mem_singleton] at ha
    subst ha
    exact DrainAction.tokened_release rfl
  · exact h

theorem Deferred.apply_failure {c : Controller} (h : c.Deferred) (current : MaintenanceJob)
    (e : Error) (now : Nanos) : (c.apply_failure current e now).Deferred := by
  unfold Controller.apply_failure
  simp only
  split
  · have hblocked := Drive.keeps_transition { ctl := c, job := { current with
        drain_failures := current.drain_failures + 1
        last_detail := text "drain request failed: " ++ format_error e } } .Blocked .DrainFailed
      (text "drain request failed: " ++ format_error e) now
    exact h.of_eq (hblocked.frame.trans (frame_commit _ _ _)).deferred
  · exact h.of_eq (frame_commit _ _ _).deferred

theorem frame_record_drain (c : Controller) (job : MaintenanceJob) (drained : Bool) (now : Nanos) :
    Frame c (c.record_drain job drained now) := by
  unfold record_drain
  apply Frame.foldl
  intro c target
  exact c.frame_author_evidence _ _ _ _ _ _ _

theorem Deferred.apply_granted {c : Controller} (h : c.Deferred) (current : MaintenanceJob)
    (lease : DrainLease) (now : Nanos) : (c.apply_granted current lease now).Deferred := by
  unfold Controller.apply_granted
  split
  · exact h
  · split
    · exact h.of_eq rfl
    · simp only
      split
      · exact h.of_eq ((frame_commit _ _ _).deferred.trans (frame_record_drain _ _ _ _).deferred)
      · exact h.of_eq (frame_commit _ _ _).deferred

/-- An answer of the drain port queues at most the release of an orphaned lease. -/
theorem Deferred.apply_outcome {c : Controller} (h : c.Deferred) (action : DrainAction)
    (response : DrainResponse) (now : Nanos) : (c.apply_outcome action response now).Deferred := by
  unfold Controller.apply_outcome
  simp only
  have hmarked : ({ c with drain_inflight := c.drain_inflight.filter (· ≠ action.job) } :
      Controller).Deferred := h.of_eq rfl
  generalize ({ c with drain_inflight := c.drain_inflight.filter (· ≠ action.job) } :
    Controller) = c₁ at hmarked ⊢
  cases action.kind with
  | Release => exact hmarked.apply_release _ _ _ _
  | Request =>
    simp only
    split
    · exact hmarked.apply_stale _ _
    · split
      · exact hmarked
      · split
        · exact hmarked.apply_failure _ _ _
        · exact hmarked.apply_granted _ _ _

/-- What reconciliation has collected so far. -/
theorem reconcile_job_releases (r : Reconciling) (job : MaintenanceJob) (now : Nanos)
    (h : r.ctl.Deferred ∧ ∀ a ∈ r.releases, a.Tokened) :
    (reconcile_job r job now).ctl.Deferred ∧ ∀ a ∈ (reconcile_job r job now).releases,
      a.Tokened := by
  obtain ⟨hctl, hrel⟩ := h
  rw [reconcile_job_eq]
  by_cases hneeds : r.ctl.needs_reconciling job = true
  · rw [if_pos hneeds]
    have hdeferred : (r.copied job now).2.1.Deferred := by
      unfold Reconciling.copied
      split
      · unfold reissue
        simp only
        split <;> exact hctl.of_eq rfl
      · unfold abandon_lease
        simp only
        split <;> exact hctl.of_eq rfl
    -- Only a job that keeps its service adds a release, for the lease that it abandons.
    have htokened : ∀ a ∈ (r.copied job now).2.2, a.Tokened := by
      unfold Reconciling.copied
      split
      · exact hrel
      · unfold abandon_lease
        simp only
        split
        · intro a ha
          rcases List.mem_append.mp ha with ha | ha
          · exact hrel a ha
          · rw [List.mem_singleton] at ha
            subst ha
            exact DrainAction.tokened_release rfl
        · exact hrel
    have hblocked : (r.blocked job now).2.ctl.Deferred := by
      unfold Reconciling.blocked reblocked
      split
      · exact hdeferred.of_eq (Drive.keeps_transition _ _ _ _ _).frame.deferred
      · exact hdeferred
    exact ⟨hblocked, htokened⟩
  · rw [if_neg hneeds]
    exact ⟨hctl, hrel⟩

theorem Deferred.reconcile_locked {c : Controller} (h : c.Deferred) (now : Nanos) :
    (c.reconcile_locked now).2.Deferred := by
  have hfold : ∀ (jobs : List MaintenanceJob) (r : Reconciling),
      r.ctl.Deferred ∧ (∀ a ∈ r.releases, a.Tokened) →
      (jobs.foldl (fun r job => reconcile_job r job now) r).ctl.Deferred ∧
      ∀ a ∈ (jobs.foldl (fun r job => reconcile_job r job now) r).releases, a.Tokened := by
    intro jobs
    induction jobs with
    | nil => exact fun r hr => hr
    | cons job jobs ih => exact fun r hr => ih _ (reconcile_job_releases r job now hr)
  unfold Controller.reconcile_locked
  simp only
  obtain ⟨hctl, hrel⟩ := hfold (c.store.fence_authority c.incarnation).state.jobs.jobs.rows
    { ctl := { c with store := c.store.fence_authority c.incarnation } }
    ⟨h.of_eq rfl, by simp⟩
  split
  · exact hctl.append rfl hrel
  · split
    · exact hctl.of_eq rfl
    · exact hctl.append rfl hrel

theorem deferred_open (store : Store) (options : ControllerOptions) (clock : Nanos) (steady : Nat) :
    (Controller.open store options clock steady).2.Deferred := by
  have hempty : ∀ c : Controller, c.deferred_releases = [] → c.Deferred := by
    intro c hc a ha
    rw [hc] at ha
    cases ha
  unfold Controller.open
  simp only
  split
  · exact hempty _ rfl
  · exact (hempty _ rfl).reconcile_locked clock

end Controller

end MaintenanceFabric
