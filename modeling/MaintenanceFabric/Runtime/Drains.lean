import MaintenanceFabric.Runtime.Frames

/-! # What is asked of the drain port

    A drive adds at most one action to its list: the request of a job that
    waits for its drain, the release a restoring job asks for, or the release
    of a job that retires.  Each comes with what the drive had found, and with
    the mark it leaves in `drain_inflight` or `queued_releases`.
-/

namespace MaintenanceFabric

open Lib

/-! ## The three actions of a drive -/

namespace Drive

/-- The release of a job that gives its resources back. -/
def retirement (job : MaintenanceJob) : DrainAction :=
  { kind := .Release, job := job.id, generation := job.generation, attempt := job.active_attempt
    lease := job.lease, reason := text "job retired before service removal" }

/-- The release of a job that has been verified. -/
def recall_action (job : MaintenanceJob) : DrainAction :=
  { kind := .Release, job := job.id, generation := job.generation, attempt := job.active_attempt
    lease := job.lease, reason := text "restoration complete" }

/-- The request of a job without a lease. -/
def demand (policy : Policy) (job : MaintenanceJob) : DrainAction :=
  { kind := .Request, job := job.id, generation := job.generation, attempt := job.active_attempt
    targets := job.removal_set, lease_duration := policy.drain_lease, reason := job.title }

/-- The abort-and-restore deadline of a running step has passed without a completion report. -/
def aborts (c : Controller) (job : MaintenanceJob) (now : Nanos) : Prop :=
  job.state = .InMaintenance ∧ (job.window_closes_at > 0 ∧ now ≥ job.window_closes_at) ∧
    job.on_close = .AbortAndRestore ∧ (c.completion_confirmed_locked job now).1 = false ∧
    now > job.window_closes_at + abort_grace c job

/-- The last round of verification has run out. -/
def exhausts (c : Controller) (job : MaintenanceJob) (context : PassContext) : Prop :=
  job.state = .Verifying ∧
    ((job.removal_set.filter (unproven context.readiness)).isEmpty = false ∨
      job.removal_set.any (c.restoration_refuted job context.now) = true) ∧
    context.now - job.verification_started_at > job.estimated_duration ∧
    job.verification_failures + 1 ≥ c.policy.max_verification_attempts

/-- Neither set of marks has changed. -/
structure Unmarked (c c' : Controller) : Prop where
  inflight : c'.drain_inflight = c.drain_inflight
  queued : c'.queued_releases = c.queued_releases

namespace Unmarked

variable {c c' c'' : Controller}

theorem refl (c : Controller) : Unmarked c c := ⟨rfl, rfl⟩

theorem trans (h : Unmarked c c') (h' : Unmarked c' c'') : Unmarked c c'' :=
  ⟨h'.inflight.trans h.inflight, h'.queued.trans h.queued⟩

theorem foldl {α : Type} {f : Controller → α → Controller} (h : ∀ c a, Unmarked c (f c a)) :
    ∀ (l : List α) (c : Controller), Unmarked c (l.foldl f c)
  | [], c => refl c
  | a :: l, c => (h c a).trans (foldl h l (f c a))

end Unmarked

theorem unmarked_commit (c : Controller) (job : MaintenanceJob) (now : Nanos) :
    Unmarked c (c.commit_job_locked job now).2 := by
  unfold Controller.commit_job_locked
  split <;> exact ⟨rfl, rfl⟩

theorem unmarked_quarantine (c : Controller) (job : MaintenanceJob) (reason : BlockReason)
    (detail : Text) (now : Nanos) :
    Unmarked c (c.quarantine_targets_locked job reason detail now) := by
  unfold Controller.quarantine_targets_locked
  apply Unmarked.foldl
  intro c target
  exact ⟨rfl, rfl⟩

theorem unmarked_record_restoration (c : Controller) (job : MaintenanceJob)
    (context : PassContext) :
    Unmarked c (record_restoration c job context) := by
  unfold record_restoration
  apply Unmarked.foldl
  intro c target
  exact ⟨rfl, rfl⟩

/-- What a drive function has asked for, with its answer whether the copy must be committed. -/
inductive Asked (d : Drive) (context : PassContext) : Bool × Drive → Prop where
  | nothing {changed : Bool} {d' : Drive} (marks : Unmarked d.ctl d'.ctl)
      (actions : d'.actions = d.actions) (lease : d'.job.lease = d.job.lease) :
      Asked d context (changed, d')
  | retired {d' : Drive} (marks : Unmarked d.ctl d'.ctl) (held : d.job.lease.valid = true)
      (actions : d'.actions = d.actions.map (· ++ [retirement d.job])) (lease : d'.job.lease = ⟨0⟩)
      (cause : d.job.service_removed = false ∨ aborts d.ctl d.job context.now ∨
        exhausts d.ctl d.job context) :
      Asked d context (true, d')
  | requested {d' : Drive} (job : d'.job = d.job) (state : d.job.state = .Prerequisites)
      (token : d.job.active_attempt.valid = true) (unheld : d.job.lease.valid = false)
      (idle : d.job.id ∉ d.ctl.drain_inflight)
      (inflight : d'.ctl.drain_inflight = d.ctl.drain_inflight ++ [d.job.id])
      (queued : d'.ctl.queued_releases = d.ctl.queued_releases)
      (actions : d'.actions = d.actions.map (· ++ [demand d.ctl.policy d.job])) :
      Asked d context (false, d')
  | recalled {d' : Drive} (job : d'.job = d.job) (state : d.job.state = .Restoring)
      (held : d.job.lease.valid = true)
      (inflight : d'.ctl.drain_inflight = d.ctl.drain_inflight)
      (queued : d'.ctl.queued_releases = d.ctl.queued_releases ++ [d.job.lease])
      (actions : d'.actions = d.actions.map (· ++ [recall_action d.job])) :
      Asked d context (false, d')

/-! ## Building blocks -/

theorem asked_idle (d : Drive) (context : PassContext) : Asked d context (false, d) :=
  .nothing (.refl _) rfl rfl

/-- Giving the resources back asks for the lease, if there is one. -/
theorem release_resources_asks (d : Drive) :
    Unmarked d.ctl d.release_resources_locked.ctl ∧
      (d.job.lease.valid = false ∧ d.release_resources_locked.actions = d.actions ∧
          d.release_resources_locked.job.lease = d.job.lease ∨
        d.job.lease.valid = true ∧
          d.release_resources_locked.actions = d.actions.map (· ++ [retirement d.job]) ∧
          d.release_resources_locked.job.lease = ⟨0⟩) := by
  have hauthority : Unmarked d.ctl d.release_authority.ctl ∧
      d.release_authority.actions = d.actions ∧ d.release_authority.job.lease = d.job.lease ∧
      retirement d.release_authority.job = retirement d.job := by
    unfold release_authority
    split
    · refine ⟨⟨rfl, rfl⟩, rfl, ?_, ?_⟩
      · dsimp only
        split <;> rfl
      · dsimp only
        split <;> rfl
    · exact ⟨.refl _, rfl, rfl, rfl⟩
  obtain ⟨hmarks, hactions, hlease, haction⟩ := hauthority
  show Unmarked d.ctl d.release_authority.release_lease.ctl ∧ _
  unfold release_resources_locked release_lease
  rw [hlease]
  by_cases hvalid : d.job.lease.valid = true
  · rw [if_pos hvalid]
    refine ⟨hmarks, .inr ⟨hvalid, ?_, rfl⟩⟩
    rw [← haction, ← hactions]
    show d.release_authority.actions.map (· ++ [_]) = _
    rw [← hlease]
    rfl
  · rw [if_neg hvalid]
    exact ⟨hmarks, .inl ⟨by simpa using hvalid, hactions, hlease⟩⟩

/-- What a transition asks for. -/
theorem transition_asks (d : Drive) (to_state : JobState) (reason : BlockReason) (detail : Text)
    (now : Nanos) :
    let out := d.transition_locked to_state reason detail now
    Unmarked d.ctl out.2.ctl ∧
      (out.2.actions = d.actions ∧ out.2.job.lease = d.job.lease ∨
        out.1 = true ∧ gives_back to_state d.job.service_removed = true ∧ d.job.lease.valid = true ∧
          out.2.actions = d.actions.map (· ++ [retirement d.job]) ∧ out.2.job.lease = ⟨0⟩) := by
  intro out
  -- Entering a state leaves the tokens of the copy, so it retires what the job did.
  have hsame : retirement (entered d.job to_state reason detail now d.ctl.incarnation) =
      retirement d.job := by
    cases to_state <;> rfl
  have hlease : (entered d.job to_state reason detail now d.ctl.incarnation).lease =
    d.job.lease := by
    cases to_state <;> rfl
  have hback : gives_back to_state
      (entered d.job to_state reason detail now d.ctl.incarnation).service_removed =
      gives_back to_state d.job.service_removed := by
    cases to_state <;> simp [gives_back, entered, MaintenanceJob.push_history]
  have hout : out = d.transition_locked to_state reason detail now := rfl
  unfold transition_locked at hout
  -- A move that is not legal asks for nothing.
  split at hout
  · simp only at hout
    rw [hback] at hout
    have hfreed := release_resources_asks
      { d with job := entered d.job to_state reason detail now d.ctl.incarnation }
    simp only [hsame, hlease] at hfreed
    by_cases hg : gives_back to_state d.job.service_removed = true
    · rw [if_pos hg] at hout
      obtain ⟨hmarks, hrest⟩ := hfreed
      generalize Drive.release_resources_locked _ = freed at hout hmarks hrest
      have hctl : out.2.ctl = freed.ctl ∧ out.2.actions = freed.actions ∧
          out.2.job.lease = freed.job.lease ∧ out.1 = true := by
        rw [hout]
        refine ⟨?_, ?_, ?_, rfl⟩ <;> dsimp only <;> split <;> rfl
      obtain ⟨hctl, hactions, hjob, htrue⟩ := hctl
      rw [hctl, hactions, hjob]
      refine ⟨hmarks, ?_⟩
      rcases hrest with ⟨_, ha, hl⟩ | ⟨hv, ha, hl⟩
      · exact .inl ⟨ha, hl⟩
      · exact .inr ⟨htrue, hg, hv, ha, hl⟩
    · rw [if_neg hg] at hout
      rw [hout]
      simp only
      split
      · exact ⟨.refl _, .inl ⟨rfl, hlease⟩⟩
      · exact ⟨.refl _, .inl ⟨rfl, hlease⟩⟩
  · rw [hout]
    exact ⟨.refl _, .inl ⟨rfl, rfl⟩⟩

/-- A transition at the end of a drive, out of a copy with the same tokens. -/
theorem asked_transition {d : Drive} {context : PassContext} {prepared : Drive}
    {to_state : JobState} (reason : BlockReason) (detail : Text) (now : Nanos)
    (marks : Unmarked d.ctl prepared.ctl) (actions : prepared.actions = d.actions)
    (lease : prepared.job.lease = d.job.lease)
    (removed : prepared.job.service_removed = d.job.service_removed)
    (same : gives_back to_state d.job.service_removed = true →
      retirement prepared.job = retirement d.job)
    (cause : gives_back to_state d.job.service_removed = true → d.job.lease.valid = true →
      d.job.service_removed = false ∨ aborts d.ctl d.job context.now ∨
        exhausts d.ctl d.job context) :
    Asked d context (prepared.transition_locked to_state reason detail now) := by
  obtain ⟨hmarks, hcases⟩ := transition_asks prepared to_state reason detail now
  have hall := marks.trans hmarks
  rw [actions, lease, removed] at hcases
  generalize prepared.transition_locked to_state reason detail now = out at hall hcases
  obtain ⟨changed, d'⟩ := out
  rcases hcases with ⟨ha, hl⟩ | ⟨rfl, hback, hvalid, ha, hl⟩
  · exact .nothing hall ha hl
  · rw [same hback] at ha
    exact .retired hall hvalid ha hl (cause hback hvalid)

/-- A block of a job that still serves, or that keeps what it has. -/
theorem asked_blocked {d : Drive} {context : PassContext} (reason : BlockReason) (detail : Text)
    (now : Nanos) : Asked d context (d.transition_locked .Blocked reason detail now) := by
  refine asked_transition reason detail now (.refl _) rfl rfl rfl (fun _ => rfl) ?_
  intro hback _
  left
  simpa [gives_back, JobState.is_terminal] using hback

/-- A step forward keeps the lease. -/
theorem asked_onward {d : Drive} {context : PassContext} {prepared : Drive} {to_state : JobState}
    (reason : BlockReason) (detail : Text) (now : Nanos) (marks : Unmarked d.ctl prepared.ctl)
    (actions : prepared.actions = d.actions) (lease : prepared.job.lease = d.job.lease)
    (removed : prepared.job.service_removed = d.job.service_removed)
    (onward : to_state.is_terminal = false ∧ to_state ≠ .Blocked) :
    Asked d context (prepared.transition_locked to_state reason detail now) := by
  have hkeeps : gives_back to_state d.job.service_removed = true → False := by
    simp [gives_back, onward.1, onward.2]
  exact asked_transition reason detail now marks actions lease removed (fun h => (hkeeps h).elim)
    (fun h => (hkeeps h).elim)

theorem asked_violation {d : Drive} {context : PassContext} (evaluation : PreconditionSet)
    (now : Nanos) : Asked d context (d.block_on_violation evaluation now) := by
  unfold block_on_violation
  split <;> exact asked_blocked _ _ _

/-- What is asked after the store has been written first. -/
theorem Asked.after_store {d : Drive} {context : PassContext} (store : Store) {out : Bool × Drive}
    (h : Asked { d with ctl := { d.ctl with store } } context out)
    (hkept : d.job.state = .Prerequisites) : Asked d context out := by
  cases h with
  | nothing marks actions lease => exact .nothing ⟨marks.inflight, marks.queued⟩ actions lease
  | retired marks held actions lease cause =>
    refine .retired ⟨marks.inflight, marks.queued⟩ held actions lease (cause.imp_right ?_)
    rintro (habort | hexhaust)
    · exact absurd (hkept.symm.trans habort.1) (by simp)
    · exact absurd (hkept.symm.trans hexhaust.1) (by simp)
  | requested job state token unheld idle inflight queued actions =>
    exact .requested job state token unheld idle inflight queued actions
  | recalled _ state _ _ _ _ => exact absurd (hkept.symm.trans state) (by simp)

/-! ## The drive functions -/

theorem asked_await (d : Drive) (context : PassContext) (state : d.job.state = .Prerequisites)
    (token : d.job.active_attempt.valid = true) :
    Asked d context (d.await_prerequisites context) := by
  unfold await_prerequisites
  simp only
  split
  · next hwaits =>
    split
    · exact asked_blocked _ _ _
    · unfold request_drain
      split
      · exact asked_idle d context
      · next hidle =>
        have hunheld : d.job.lease.valid = false := by
          simp only [Bool.and_eq_true, Bool.not_eq_true'] at hwaits
          exact hwaits.2
        exact .requested rfl state token hunheld hidle rfl rfl rfl
  · split
    · exact asked_violation _ _
    · split
      · exact .nothing (.refl _) rfl rfl
      · exact asked_onward _ _ _ (.refl _) rfl rfl rfl (by decide)

theorem asked_prerequisites (d : Drive) (context : PassContext)
    (state : d.job.state = .Prerequisites) :
    Asked d context (d.drive_prerequisites_locked context) := by
  unfold drive_prerequisites_locked
  simp only
  split
  · exact .nothing (.refl _) rfl rfl
  · next htoken =>
    have htoken : d.job.active_attempt.valid = true := by simpa using htoken
    split
    · exact asked_idle d context
    · split
      · exact .nothing (.refl _) rfl rfl
      · split
        · split
          · split
            · exact .nothing ⟨rfl, rfl⟩ rfl rfl
            · exact .after_store _ (asked_blocked _ _ _) state
          · exact .after_store _ (asked_await _ context state htoken) state
        · exact asked_await d context state htoken

theorem asked_validated (d : Drive) (context : PassContext) :
    Asked d context (d.drive_validated_locked context) := by
  have hsame : (with_attempt d.ctl (expanded d.ctl d.job) context.now).lease = d.job.lease ∧
      (with_attempt d.ctl (expanded d.ctl d.job) context.now).service_removed =
        d.job.service_removed := by
    unfold with_attempt
    split <;> exact ⟨rfl, rfl⟩
  unfold drive_validated_locked
  split
  · exact asked_blocked _ _ _
  · split
    · exact asked_blocked _ _ _
    · exact asked_onward _ _ _ (.refl _) rfl hsame.1 hsame.2 (by decide)

theorem asked_ready (d : Drive) (context : PassContext) :
    Asked d context (d.drive_ready_locked context) := by
  unfold drive_ready_locked
  simp only
  split
  · exact asked_violation _ _
  · split
    · exact asked_onward _ _ _ (.refl _) rfl rfl rfl (by decide)
    · split
      · exact asked_onward _ _ _ (.refl _) rfl rfl rfl (by decide)
      · exact asked_onward _ _ _ (.refl _) rfl rfl rfl (by decide)

theorem asked_resumed (d : Drive) (context : PassContext) :
    Asked d context (d.drive_blocked_locked context) := by
  have hsame : (with_attempt d.ctl d.job context.now).lease = d.job.lease ∧
      (with_attempt d.ctl d.job context.now).service_removed = d.job.service_removed := by
    unfold with_attempt
    split <;> exact ⟨rfl, rfl⟩
  unfold drive_blocked_locked
  simp only
  split
  · exact asked_idle d context
  · split
    · exact asked_idle d context
    · split
      · exact asked_onward _ _ _ (.refl _) rfl hsame.1 hsame.2 (by decide)
      · exact asked_onward _ _ _ (.refl _) rfl rfl rfl (by decide)

theorem asked_finish_step (d : Drive) (context : PassContext) (complete any_failed : Bool) :
    Asked d context (d.finish_step complete any_failed context.now) := by
  unfold finish_step
  split
  · exact asked_idle d context
  · refine asked_onward _ _ _ (.refl _) rfl ?_ ?_ (by decide)
    · dsimp only
      split <;> rfl
    · dsimp only
      split <;> rfl

theorem asked_in_maintenance (d : Drive) (context : PassContext)
    (state : d.job.state = .InMaintenance) :
    Asked d context (d.drive_in_maintenance_locked context) := by
  unfold drive_in_maintenance_locked
  simp only
  split
  · next hclosed =>
    split
    · next hclose =>
      split
      · next hlate =>
        simp only [Bool.and_eq_true, Bool.not_eq_true', decide_eq_true_eq] at hlate
        refine asked_transition _ _ _ (unmarked_quarantine _ _ _ _ _) rfl rfl rfl (fun _ => rfl) ?_
        intro _ _
        exact .inr (.inl ⟨state, hclosed, hclose, hlate.1, hlate.2⟩)
      · exact asked_finish_step d context _ _
    · split
      · exact .nothing (.refl _) rfl rfl
      · exact asked_finish_step d context _ _
    · split
      · exact .nothing (.refl _) rfl rfl
      · exact asked_finish_step d context _ _
  · exact asked_finish_step d context _ _

theorem asked_verifying (d : Drive) (context : PassContext) (state : d.job.state = .Verifying) :
    Asked d context (d.drive_verifying_locked context) := by
  unfold drive_verifying_locked
  simp only
  split
  · next hgaps =>
    split
    · next hround =>
      split
      · next hlast =>
        refine asked_transition _ _ _ (unmarked_quarantine _ _ _ _ _) rfl rfl rfl (fun _ => rfl) ?_
        intro _ _
        refine .inr (.inr ⟨state, ?_, hround, hlast⟩)
        simpa using hgaps
      · exact .nothing (.refl _) rfl rfl
    · exact .nothing (.refl _) rfl rfl
  · exact asked_onward _ _ _ (.refl _) rfl rfl rfl (by decide)

/-- A restoring job asks for its lease first; once it has none there is nothing to ask for. -/
theorem asked_restoring (d : Drive) (context : PassContext) (state : d.job.state = .Restoring) :
    Asked d context (d.drive_restoring_locked context) := by
  unfold drive_restoring_locked
  simp only
  split
  · next hheld =>
    unfold request_release
    split
    · exact asked_idle d context
    · exact .recalled rfl state hheld rfl rfl rfl
  · next hheld =>
    have hover : ∀ {prepared : Drive} {to_state : JobState} (reason : BlockReason) (detail : Text),
        Unmarked d.ctl prepared.ctl → prepared.actions = d.actions →
        prepared.job.lease = d.job.lease →
        prepared.job.service_removed = d.job.service_removed →
        retirement prepared.job = retirement d.job →
        Asked d context (prepared.transition_locked to_state reason detail context.now) :=
      fun reason detail marks actions lease removed same =>
        asked_transition reason detail _ marks actions lease removed (fun _ => same)
          (fun _ hv => absurd hv hheld)
    split
    · split
      · split
        · exact hover _ _ (unmarked_quarantine _ _ _ _ _) rfl rfl rfl rfl
        · exact .nothing (.refl _) rfl rfl
      · exact .nothing (.refl _) rfl rfl
    · split
      · exact hover _ _ (unmarked_record_restoration _ _ _) rfl rfl rfl rfl
      · exact hover _ _ (unmarked_record_restoration _ _ _) rfl rfl rfl rfl

theorem asked_state (d : Drive) (context : PassContext) :
    Asked d context (d.drive_state context) := by
  unfold drive_state
  split
  · exact asked_validated d context
  · next state => exact asked_prerequisites d context state
  · exact asked_ready d context
  · exact asked_resumed d context
  · next state => exact asked_in_maintenance d context state
  · next state => exact asked_verifying d context state
  · next state => exact asked_restoring d context state
  all_goals exact asked_idle d context

end Drive

/-! ## One drive of a pass -/

namespace Controller

/-- What driving one job has added to the list of the pass. -/
inductive Asks (c : Controller) (id : JobId) (context : PassContext) (actions : List DrainAction) :
    Controller × List DrainAction → Prop where
  | nothing {c' : Controller} (marks : Drive.Unmarked c c') : Asks c id
    context actions (c', actions)
  | retired {c' : Controller} {j : MaintenanceJob} (found : c.store.state.jobs.find id = some j)
      (marks : Drive.Unmarked c c') (held : j.lease.valid = true)
      (cause : j.service_removed = false ∨ Drive.aborts c j context.now ∨
        Drive.exhausts c j context) :
      Asks c id context actions (c', actions ++ [Drive.retirement j])
  | requested {c' : Controller} {j : MaintenanceJob} (found : c.store.state.jobs.find id = some j)
      (state : j.state = .Prerequisites) (token : j.active_attempt.valid = true)
      (unheld : j.lease.valid = false) (idle : j.id ∉ c.drain_inflight)
      (inflight : c'.drain_inflight = c.drain_inflight ++ [j.id])
      (queued : c'.queued_releases = c.queued_releases) :
      Asks c id context actions (c', actions ++ [Drive.demand c.policy j])
  | recalled {c' : Controller} {j : MaintenanceJob} (found : c.store.state.jobs.find id = some j)
      (state : j.state = .Restoring) (held : j.lease.valid = true)
      (inflight : c'.drain_inflight = c.drain_inflight)
      (queued : c'.queued_releases = c.queued_releases ++ [j.lease]) :
      Asks c id context actions (c', actions ++ [Drive.recall_action j])

theorem asks_drive_locked (c : Controller) (id : JobId) (context : PassContext)
    (actions : List DrainAction) :
    Asks c id context actions (c.drive_locked id context actions) := by
  unfold drive_locked
  split
  · exact .nothing (.refl c)
  · next current found =>
    split
    · exact .nothing (.refl c)
    · have hasked := Drive.asked_state { ctl := c, job := current, actions := some actions } context
      simp only
      generalize Drive.drive_state { ctl := c, job := current, actions := some actions } context =
        out at hasked
      -- The commit of the copy leaves the marks alone.
      have hcommit : ∀ d' : Drive, Drive.Unmarked d'.ctl
          (if out.1 = true then (d'.ctl.commit_job_locked d'.job context.now).2 else d'.ctl) := by
        intro d'
        split
        · exact Drive.unmarked_commit _ _ _
        · exact .refl _
      cases hasked with
      | nothing marks added _ =>
        rw [added]
        exact .nothing (marks.trans (hcommit _))
      | retired marks held added _ cause =>
        rw [added]
        exact .retired found (marks.trans (hcommit _)) held cause
      | requested _ state token unheld idle inflight queued added =>
        rw [added]
        exact .requested found state token unheld idle inflight queued
      | recalled _ state held inflight queued added =>
        rw [added]
        exact .recalled found state held inflight queued

theorem unmarked_arbitrate_locked (c : Controller) (context : PassContext) :
    Drive.Unmarked c (c.arbitrate_locked context) := by
  unfold arbitrate_locked
  refine Drive.Unmarked.foldl ?_ _ c
  intro c decision
  unfold apply_decision
  split
  · unfold apply_denial
    split
    · exact .refl c
    · next denied _ =>
      split
      · exact .refl c
      · obtain ⟨hmarks, _⟩ := Drive.transition_asks { ctl := c, job := denied, actions := some [] }
          .Blocked decision.reason decision.detail context.now
        exact hmarks.trans (Drive.unmarked_commit _ _ _)
  · unfold apply_grant
    split
    · split
      · exact ⟨rfl, rfl⟩
      · next store _ =>
        have hinserted : Drive.Unmarked c { c with store } := ⟨rfl, rfl⟩
        exact hinserted.trans (Drive.unmarked_commit _ _ _)
    · exact .refl c
  · exact .refl c

/-! ## Calls of the interface -/

/-- What a call leaves for the next pass. -/
structure Leaves (c c' : Controller) (new : List DrainAction) : Prop where
  inflight : c'.drain_inflight = c.drain_inflight
  queued : c'.queued_releases = push_all_unique c.queued_releases (new.map DrainAction.lease)
  deferred : c'.deferred_releases = c.deferred_releases ++ new
  leases : c'.store.state.leases = c.store.state.leases

theorem leaves_nothing {c c' : Controller} (marks : Drive.Unmarked c c') (frame : Frame c c') :
    Leaves c c' [] :=
  ⟨marks.inflight, marks.queued, by simp [frame.deferred], frame.store.leases⟩

theorem leaves_commit (c : Controller) (job : MaintenanceJob) (now : Nanos) :
    Leaves c (c.commit_job_locked job now).2 [] :=
  leaves_nothing (Drive.unmarked_commit c job now) (c.frame_commit job now)

/-- A call that only writes the store. -/
theorem leaves_store (c : Controller) {store : Store} (h : c.store.Stands store) :
    Leaves c { c with store } [] :=
  ⟨rfl, rfl, (List.append_nil _).symm, h.leases⟩

/-- The lease of a job that had not removed service is the only thing a call asks for. -/
def CallAsks (c c' : Controller) : Prop :=
  Leaves c c' [] ∨ ∃ j, c.store.state.jobs.find j.id = some j ∧ j.service_removed = false ∧
    j.lease.valid = true ∧ Leaves c c' [Drive.retirement j]

/-- The same, of the job the call is about. -/
def CallAsksFor (c : Controller) (job : JobId) (c' : Controller) : Prop :=
  Leaves c c' [] ∨ ∃ j, c.store.state.jobs.find job = some j ∧ j.service_removed = false ∧
    j.lease.valid = true ∧ Leaves c c' [Drive.retirement j]

theorem CallAsksFor.asks {c c' : Controller} {job : JobId} (h : CallAsksFor c job c') :
    CallAsks c c' := by
  refine h.imp_right ?_
  rintro ⟨j, found, hj⟩
  have hid : j.id = job := Table.key_of_find found
  exact ⟨j, hid ▸ found, hj⟩

/-- A job gives its resources back and is committed; only then are its releases queued. -/
theorem call_asks_retired {c : Controller} {current : MaintenanceJob}
    (found : c.store.state.jobs.find current.id = some current)
    (kept : current.service_removed = false) {d : Drive} (marks : Drive.Unmarked c d.ctl)
    (frame : Frame c d.ctl)
    (hactions : d.actions = some [] ∨
      current.lease.valid = true ∧ d.actions = some [Drive.retirement current])
    (job : MaintenanceJob) (now : Nanos) :
    CallAsksFor c current.id (d.ctl.commit_job_locked job now).2 ∧
      CallAsksFor c current.id
        ((d.ctl.commit_job_locked job now).2.defer_releases (d.actions.getD [])) := by
  have hmarks := marks.trans (Drive.unmarked_commit d.ctl job now)
  have hframe := frame.trans (d.ctl.frame_commit job now)
  generalize (d.ctl.commit_job_locked job now).2 = c' at hmarks hframe
  refine ⟨.inl (leaves_nothing hmarks hframe), ?_⟩
  rcases hactions with hnone | ⟨hvalid, hone⟩
  · rw [hnone]
    refine .inl ⟨hmarks.inflight, ?_, ?_, hframe.store.leases⟩
    · simp [defer_releases, push_all_unique, hmarks.queued]
    · simp [defer_releases, hframe.deferred]
  · rw [hone]
    refine .inr ⟨current, found, kept, hvalid, hmarks.inflight, ?_, ?_, hframe.store.leases⟩
    · simp [defer_releases, hmarks.queued]
    · simp [defer_releases, hframe.deferred]

theorem call_asks_rearm (c : Controller) (job : JobId) (actor : Text) (now : Nanos) :
    CallAsksFor c job (c.rearm job actor now).2 := by
  have hrefl : CallAsksFor c job c := .inl (leaves_nothing (.refl c) (.refl c))
  unfold rearm
  split
  · exact hrefl
  · next current found =>
    have hid : current.id = job := Table.key_of_find found
    split
    · exact hrefl
    · next hkept =>
      split
      · exact hrefl
      · have hkept : current.service_removed = false := by simpa using hkept
        have hframe := (Drive.keeps_release_resources
          { ctl := c, job := current, actions := some [] }).frame
        obtain ⟨hmarks, hasks⟩ := Drive.release_resources_asks
          { ctl := c, job := current, actions := some [] }
        simp only
        generalize Drive.release_resources_locked { ctl := c, job := current, actions := some [] } =
          d at hframe hmarks hasks
        -- The job is not in service removal, so all it may have to give back is its drain lease.
        have hactions : d.actions = some [] ∨
            current.lease.valid = true ∧ d.actions = some [Drive.retirement current] := by
          rcases hasks with ⟨_, hactions, _⟩ | ⟨hvalid, hactions, _⟩
          · exact .inl hactions
          · exact .inr ⟨hvalid, hactions⟩
        obtain ⟨hcommitted, hdeferred⟩ :=
          call_asks_retired (hid ▸ found) hkept hmarks hframe hactions
          (c.reentered_job (rearmed_job d.job actor now) now) now
        rw [hid] at hcommitted hdeferred
        split
        · split
          · next heq =>
            rw [heq] at hcommitted
            exact hcommitted
          · next heq =>
            rw [heq] at hdeferred
            exact hdeferred
        · exact .inl (leaves_nothing hmarks hframe)

theorem call_asks_cancel (c : Controller) (job : JobId) (actor reason : Text) (now : Nanos) :
    CallAsksFor c job (c.cancel job actor reason now).2 := by
  have hrefl : CallAsksFor c job c := .inl (leaves_nothing (.refl c) (.refl c))
  unfold cancel
  split
  · exact hrefl
  · next current found =>
    have hid : current.id = job := Table.key_of_find found
    split
    · exact hrefl
    · next hkept =>
      split
      · exact hrefl
      · have hkept : current.service_removed = false := by simpa using hkept
        have hframe := (Drive.keeps_transition { ctl := c, job := current, actions := some [] }
          .Cancelled .None (text "cancelled by " ++ actor ++ text ": " ++ reason) now).frame
        obtain ⟨hmarks, hasks⟩ := Drive.transition_asks
          { ctl := c, job := current, actions := some [] } .Cancelled .None
          (text "cancelled by " ++ actor ++ text ": " ++ reason) now
        generalize Drive.transition_locked
          { ctl := c, job := current, actions := some [] } .Cancelled
          .None (text "cancelled by " ++ actor ++ text ": " ++ reason) now = out
          at hframe hmarks hasks ⊢
        obtain ⟨moved, d⟩ := out
        have hactions : d.actions = some [] ∨
            current.lease.valid = true ∧ d.actions = some [Drive.retirement current] := by
          rcases hasks with ⟨hactions, _⟩ | ⟨_, _, hvalid, hactions, _⟩
          · exact .inl hactions
          · exact .inr ⟨hvalid, hactions⟩
        obtain ⟨hcommitted, hdeferred⟩ :=
          call_asks_retired (hid ▸ found) hkept hmarks hframe hactions
          d.job now
        rw [hid] at hcommitted hdeferred
        -- Whether the move is legal is found out before anything is committed.
        cases moved with
        | false => exact .inl (leaves_nothing hmarks hframe)
        | true =>
          simp only
          split
          · next heq =>
            rw [heq] at hcommitted
            exact hcommitted
          · next heq =>
            rw [heq] at hdeferred
            exact hdeferred

theorem leaves_author_evidence (c : Controller) (kind : EvidenceKind) (target : TargetId)
    (source : SourceId) (now : Nanos) (payload : EvidencePayload) (job : JobId)
    (attempt : AttemptId) :
    Leaves c (c.author_evidence kind target source now payload job attempt).2 [] :=
  leaves_nothing ⟨rfl, rfl⟩ (c.frame_author_evidence _ _ _ _ _ _ _)

theorem Leaves.trans {c c' c'' : Controller} (h : Leaves c c' []) (h' : Leaves c' c'' []) :
    Leaves c c'' [] where
  inflight := h'.inflight.trans h.inflight
  queued := by rw [h'.queued, h.queued]; rfl
  deferred := by rw [h'.deferred, h.deferred, List.append_nil, List.append_nil]
  leases := h'.leases.trans h.leases

theorem leaves_record_completion (job : JobId) (attempt : AttemptId) (succeeded : Bool)
    (now : Nanos) : ∀ (targets : List TargetId) (c : Controller),
      Leaves c (record_completion job attempt succeeded now c targets).2 []
  | [], c => leaves_nothing (.refl c) (.refl c)
  | target :: rest, c => by
      have hone := c.leaves_author_evidence .MaintenanceCompletion target ⟨1⟩ now
        { result := succeeded, health := if succeeded then .Degraded else .Down } job attempt
      unfold record_completion
      split
      · next heq =>
        rw [heq] at hone
        exact hone
      · next heq =>
        rw [heq] at hone
        exact hone.trans (leaves_record_completion job attempt succeeded now rest _)

end Controller

/-- The job whose resources a call takes back. -/
def Label.retracts : Label → Option JobId
  | .rearm job _ _ => some job
  | .cancel job _ _ _ => some job
  | _ => none

namespace Controller

/-- A call asks for nothing, or for the release of the job it retracts. -/
theorem call_asks_for {c c' : Controller} {label : Label} (hcall : c.call label = some c') :
    Leaves c c' [] ∨ ∃ job, label.retracts = some job ∧ CallAsksFor c job c' := by
  have hrefl : Leaves c c [] := leaves_nothing (.refl c) (.refl c)
  -- Only `rearm` and `cancel` release what a job holds; the other calls queue nothing.
  cases label with
  | set_topology topology =>
    cases Option.some.inj hcall
    left
    unfold Controller.set_topology
    split
    · exact hrefl
    · have hstands : (c.store.commit_topology topology).2.state.leases = c.store.state.leases := by
        unfold Store.commit_topology
        split
        · rfl
        · split
          · next h => exact (Store.stands_append_and_flush h).leases
          · next h =>
            have hs := Store.stands_append_and_flush h
            split <;> exact hs.leases
      split <;> next heq =>
        rw [heq] at hstands
        exact ⟨rfl, rfl, (List.append_nil _).symm, hstands⟩
  | set_policy policy =>
    cases Option.some.inj hcall
    left
    unfold Controller.set_policy
    split
    · exact hrefl
    · have hstands : (c.store.commit_policy policy).2.state.leases = c.store.state.leases := by
        unfold Store.commit_policy
        split
        · rfl
        · split
          · next h => exact (Store.stands_append_and_flush h).leases
          · next h =>
            have hs := Store.stands_append_and_flush h
            split <;> exact hs.leases
      split <;> next heq =>
        rw [heq] at hstands
        exact ⟨rfl, rfl, (List.append_nil _).symm, hstands⟩
  | propose request actor clock =>
    cases Option.some.inj hcall
    left
    unfold Controller.propose
    split
    · exact hrefl
    · exact leaves_store c (Store.stands_create_job _ _)
  | approve job actor entry_at commit_at =>
    cases Option.some.inj hcall
    left
    unfold Controller.approve
    split
    · exact hrefl
    · split
      · exact hrefl
      · exact leaves_commit _ _ _
  | rearm job actor clock =>
    cases Option.some.inj hcall
    exact .inr ⟨job, rfl, c.call_asks_rearm job actor clock⟩
  | cancel job actor reason clock =>
    cases Option.some.inj hcall
    exact .inr ⟨job, rfl, c.call_asks_cancel job actor reason clock⟩
  | observe evidence =>
    cases Option.some.inj hcall
    left
    -- What is missing in the evidence is filled in before it is stored.
    have hcompleted : Leaves c (c.completed_evidence evidence).2 [] := by
      unfold completed_evidence
      simp only
      split <;> split <;> exact ⟨rfl, rfl, (List.append_nil _).symm, rfl⟩
    exact hcompleted.trans (leaves_store _ (Store.stands_observe_evidence _ _))
  | report_completion job attempt succeeded detail clock =>
    cases Option.some.inj hcall
    left
    unfold Controller.report_completion
    split
    · exact hrefl
    · next current _ =>
      split
      · exact hrefl
      · split
        · exact hrefl
        · have hrec := leaves_record_completion job attempt succeeded clock current.removal_set c
          split
          · next heq =>
            rw [heq] at hrec
            exact hrec
          · next heq =>
            rw [heq] at hrec
            exact hrec.trans (leaves_commit _ _ _)
  | report_restoration job attempt target restored detail clock =>
    cases Option.some.inj hcall
    left
    unfold Controller.report_restoration
    split
    · exact hrefl
    · split
      · exact hrefl
      · split
        · exact hrefl
        · have hrec := c.leaves_author_evidence .RestorationCheck target ⟨2⟩ clock
            { result := restored, health := if restored then .Healthy else .Down } job attempt
          split
          · next heq =>
            rw [heq] at hrec
            exact hrec
          · next heq =>
            rw [heq] at hrec
            exact hrec.trans (leaves_commit _ _ _)
  | clear_quarantine id actor justification clock =>
    cases Option.some.inj hcall
    left
    unfold Controller.clear_quarantine
    split
    · exact hrefl
    · exact leaves_store c (Store.stands_commit_quarantine _ _ _)
  | _ => cases hcall

/-- Every call of the interface asks for one release at most. -/
theorem call_asks {c c' : Controller} {label : Label} (hcall : c.call label = some c') :
    CallAsks c c' := by
  rcases call_asks_for hcall with hnothing | ⟨_, _, hasks⟩
  · exact .inl hnothing
  · exact hasks.asks

/-! ## Answers of the drain port -/

/-- The lease a response is about. -/
def granted_lease (action : DrainAction) (response : DrainResponse) : DrainLeaseId :=
  if response.lease.id.valid then response.lease.id else action.lease

/-- The release of a lease that was granted to nobody. -/
def refusal (lease : DrainLeaseId) : DrainAction :=
  { kind := .Release, lease, reason := text "drain granted to a fenced attempt" }

/-- What the answer to one action has done to the bookkeeping, whatever the journal said. -/
inductive Answered (c : Controller) (action : DrainAction) (response : DrainResponse)
    (c' : Controller) : Prop where
  /-- A release that did not get through. -/
  | kept (kind : action.kind = .Release) (refused : lease_gone response.status = false)
      (leases : c'.store.state.leases = c.store.state.leases)
      (deferred : c'.deferred_releases = c.deferred_releases)
  /-- The lease is gone; its row too, unless the journal refuses. -/
  | gone (kind : action.kind = .Release) (gone : lease_gone response.status = true)
      (leases : c'.store.state.leases = c.store.state.leases ∨
        c'.store.state.leases = c.store.state.leases.erase (granted_lease action response))
      (deferred : c'.deferred_releases = c.deferred_releases)
  /-- A lease for somebody who does not wait any more. -/
  | stale (kind : action.kind = .Request) (stale : c.drain_stale action = true)
      (leases : c'.store.state.leases = c.store.state.leases)
      (deferred : c'.deferred_releases = c.deferred_releases ++
        if Status.isOk response.status && (granted_lease action response).valid then
          [refusal (granted_lease action response)] else [])
  /-- The job learns that its request failed, or that it brought no lease. -/
  | failed (kind : action.kind = .Request) (current : c.drain_stale action = false)
      (empty : Status.isOk response.status = true → response.lease.id.valid = false)
      (leases : c'.store.state.leases = c.store.state.leases)
      (deferred : c'.deferred_releases = c.deferred_releases)
  /-- The lease is recorded, unless the journal refuses. -/
  | granted (kind : action.kind = .Request) (current : c.drain_stale action = false)
      (ok : Status.isOk response.status = true) (valid : response.lease.id.valid = true)
      (leases : (c.store.commit_lease response.lease).1 = ok_status ∧
          c'.store.state.leases = c.store.state.leases.put response.lease ∨
        (c.store.commit_lease response.lease).1 ≠ ok_status ∧
          c'.store.state.leases = c.store.state.leases)
      (deferred : c'.deferred_releases = c.deferred_releases)

theorem answered_release {c : Controller} {action : DrainAction} (response : DrainResponse)
    (now : Nanos) (kind : action.kind = .Release) :
    Answered c action response (c.apply_release action response
      (granted_lease action response) now) := by
  unfold apply_release
  simp only
  split
  · next hgone =>
    have hforget : ∀ (c : Controller) (lease : DrainLeaseId),
      Leaves c (c.forget_lease lease now) [] := by
      intro c lease
      unfold forget_lease
      split
      · exact leaves_nothing (.refl c) (.refl c)
      · exact leaves_commit _ _ _
    have hleaves := hforget { c with
      queued_releases := c.queued_releases.filter (· ≠ action.lease)
      store := (c.store.commit_lease_erased
        (granted_lease action response)).2 } (granted_lease action response)
    refine .gone kind hgone ?_ (by simpa using hleaves.deferred)
    rw [hleaves.leases]
    rcases c.store.commit_lease_erased_cases (granted_lease action response) with
      ⟨_, hstate⟩ | ⟨_, hstate⟩
    · exact .inr (by rw [hstate])
    · exact .inl (by rw [hstate])
  · next hgone => exact .kept kind (by simpa using hgone) rfl rfl

theorem answered_granted {c : Controller} {action : DrainAction} {response : DrainResponse}
    (current : MaintenanceJob) (now : Nanos) (kind : action.kind = .Request)
    (fresh : c.drain_stale action = false) (ok : Status.isOk response.status = true) :
    Answered c action response (c.apply_granted current response.lease now) := by
  unfold apply_granted
  split
  · next hvalid => exact .failed kind fresh (fun _ => by simpa using hvalid) rfl rfl
  · next hvalid =>
    have hvalid : response.lease.id.valid = true := by simpa using hvalid
    -- The lease is stored before the job names it, and stays stored if the job is not.
    have hcases := c.store.commit_lease_cases response.lease
    split
    · next e store heq =>
      rw [heq] at hcases
      rcases hcases with ⟨hok, _⟩ | ⟨_, hstate⟩
      · cases hok
      · refine .granted kind fresh ok hvalid (.inr ⟨?_, by rw [hstate]⟩) rfl
        rw [heq]
        simp [ok_status]
    · next store heq =>
      rw [heq] at hcases
      rcases hcases with ⟨_, hstate⟩ | ⟨⟨e, he⟩, _⟩
      · simp only
        refine .granted kind fresh ok hvalid (.inl ⟨by rw [heq]; rfl, ?_⟩) ?_
        · rw [(leaves_commit _ _ _).leases]
          split
          · rw [(frame_record_drain _ _ _ _).store.leases]
            show store.state.leases = _
            rw [hstate]
          · show store.state.leases = _
            rw [hstate]
        · rw [(frame_commit _ _ _).deferred]
          split
          · rw [(frame_record_drain _ _ _ _).deferred]
          · rfl
      · cases he

theorem leaves_apply_failure (c : Controller) (current : MaintenanceJob) (e : Error) (now : Nanos) :
    Leaves c (c.apply_failure current e now) [] := by
  unfold apply_failure
  simp only
  generalize ({ current with
    drain_failures := current.drain_failures + 1
    last_detail := text "drain request failed: " ++ format_error e } : MaintenanceJob) = failed
  split
  · obtain ⟨hmarks, _⟩ := Drive.transition_asks { ctl := c, job := failed } .Blocked .DrainFailed
      (text "drain request failed: " ++ format_error e) now
    have hframe := (Drive.keeps_transition { ctl := c, job := failed } .Blocked .DrainFailed
      (text "drain request failed: " ++ format_error e) now).frame
    exact (leaves_nothing hmarks hframe).trans (leaves_commit _ _ _)
  · exact leaves_commit _ _ _

theorem inflight_apply_granted (c : Controller) (current : MaintenanceJob) (lease : DrainLease)
    (now : Nanos) : (c.apply_granted current lease now).drain_inflight = c.drain_inflight := by
  have hdrained : ∀ (c : Controller) (drained : Bool) (job : MaintenanceJob),
      (c.record_drain job drained now).drain_inflight = c.drain_inflight := by
    intro c drained job
    unfold record_drain
    refine (Drive.Unmarked.foldl ?_ _ _).inflight
    intro c target
    exact ⟨rfl, rfl⟩
  unfold apply_granted
  split
  · rfl
  · split
    · rfl
    · simp only
      rw [(Drive.unmarked_commit _ _ _).inflight]
      split
      · rw [hdrained]
      · rfl

/-- The mark of the job an action was about, taken back. -/
def unmark (c : Controller) (action : DrainAction) : Controller :=
  { c with drain_inflight := c.drain_inflight.filter (· ≠ action.job) }

/-- The mark goes first, and nothing after it looks at the marks again. -/
theorem apply_outcome_eq (c : Controller) (action : DrainAction) (response : DrainResponse)
    (now : Nanos) :
    c.apply_outcome action response now =
      match action.kind with
      | .Release => (c.unmark action).apply_release action response
          (granted_lease action response) now
      | .Request =>
          if (c.unmark action).drain_stale action then (c.unmark action).apply_stale response
            (granted_lease action response)
          else
            match (c.unmark action).store.state.jobs.find action.job with
            | none => c.unmark action
            | some current =>
                match response.status with
                | .error e => (c.unmark action).apply_failure current e now
                | .ok _ => (c.unmark action).apply_granted current response.lease now := rfl

/-- Every answer clears the mark of the job its action was about. -/
theorem answered_apply_outcome (c : Controller) (action : DrainAction) (response : DrainResponse)
    (now : Nanos) :
    Answered (c.unmark action) action response (c.apply_outcome action response now) ∧
      (c.apply_outcome action response now).drain_inflight = (c.unmark action).drain_inflight := by
  rw [apply_outcome_eq]
  generalize c.unmark action = c₁
  cases hkind : action.kind with
  | Release =>
    refine ⟨answered_release response now hkind, ?_⟩
    unfold apply_release
    simp only
    split
    · unfold forget_lease
      split
      · rfl
      · exact (Drive.unmarked_commit _ _ _).inflight
    · rfl
  | Request =>
    simp only
    split
    · next hstale =>
      unfold apply_stale
      split
      · next hok => exact ⟨.stale hkind hstale rfl (by rw [if_pos hok]; rfl), rfl⟩
      · next hok => exact ⟨.stale hkind hstale rfl (by rw [if_neg hok, List.append_nil]), rfl⟩
    · next hstale =>
      -- Not stale, so the job is there and still in the attempt that asked.
      have hfresh : c₁.drain_stale action = false := by simpa using hstale
      split
      · next hnone =>
        unfold drain_stale at hfresh
        rw [hnone] at hfresh
        cases hfresh
      · next current _ =>
        split
        · next e he =>
          have hleaves := leaves_apply_failure c₁ current e now
          refine ⟨.failed hkind hfresh ?_ hleaves.leases (by simpa using hleaves.deferred),
            hleaves.inflight⟩
          intro hok
          rw [he] at hok
          cases hok
        · next hok =>
          exact ⟨answered_granted current now hkind hfresh (by rw [hok]; rfl),
            inflight_apply_granted _ _ _ _⟩

/-- What an answer adds to the deferred releases. -/
theorem Answered.added {c c' : Controller} {action : DrainAction} {response : DrainResponse}
    (h : Answered c action response c') {new : List DrainAction}
    (hnew : c'.deferred_releases = c.deferred_releases ++ new) {a : DrainAction} (ha : a ∈ new) :
    action.kind = .Request ∧ c.drain_stale action = true ∧ Status.isOk response.status = true ∧
      (granted_lease action response).valid = true ∧
        a = refusal (granted_lease action response) := by
  have hnone : c'.deferred_releases = c.deferred_releases → False := by
    intro hsame
    rw [hsame, List.self_eq_append_right] at hnew
    rw [hnew] at ha
    cases ha
  cases h with
  | kept _ _ _ deferred => exact (hnone deferred).elim
  | gone _ _ _ deferred => exact (hnone deferred).elim
  | failed _ _ _ _ deferred => exact (hnone deferred).elim
  | granted _ _ _ _ _ deferred => exact (hnone deferred).elim
  | stale kind stale _ deferred =>
    rw [deferred] at hnew
    have heq := List.append_cancel_left hnew
    rw [← heq] at ha
    split at ha
    · next hok =>
      simp only [Bool.and_eq_true] at hok
      exact ⟨kind, stale, hok.1, hok.2, List.mem_singleton.mp ha⟩
    · cases ha

/-! ## Restart -/

/-- The release of a lease whose job had not removed service when the process stopped. -/
def Reclaims (jobs : Table MaintenanceJob.id) (a : DrainAction) : Prop :=
  a.kind = .Release ∧ ∃ j, jobs.find j.id = some j ∧ j.service_removed = false ∧
    j.lease.valid = true ∧ a.lease = j.lease

/-- Between two rounds of the loop only the leases of such jobs have been asked for. -/
structure Reclaiming (c : Controller) (r : Reconciling) : Prop where
  inflight : r.ctl.drain_inflight = c.drain_inflight
  frame : Frame c r.ctl
  releases : ∀ a ∈ r.releases, Reclaims c.store.state.jobs.jobs a

theorem frame_reblocked (c : Controller) (job : MaintenanceJob) (removed : Bool) (now : Nanos) :
    Frame c (c.reblocked job removed now).2.ctl ∧
      (c.reblocked job removed now).2.ctl.drain_inflight = c.drain_inflight := by
  unfold reblocked
  split
  · exact ⟨(Drive.keeps_transition { ctl := c, job } _ _ _ _).frame,
      (Drive.transition_asks { ctl := c, job } _ _ _ _).1.inflight⟩
  · exact ⟨.refl c, rfl⟩

theorem reclaiming_step {c : Controller} {r : Reconciling} (h : Reclaiming c r) {j : MaintenanceJob}
    (now : Nanos) (stored : c.store.state.jobs.jobs.find j.id = some j) :
    Reclaiming c (reconcile_job r j now) := by
  rw [reconcile_job_eq]
  by_cases hneeds : r.ctl.needs_reconciling j = true
  · rw [if_pos hneeds]
    have hcopied : Reclaiming c
        { r with ctl := (r.copied j now).2.1, releases := (r.copied j now).2.2 } := by
      unfold Reconciling.copied
      split
      · refine ⟨?_, h.frame.trans ?_, h.releases⟩
        · simp only [reissue]
          split <;> exact h.inflight
        · simp only [reissue]
          have hstands := Store.stands_reserve_authority r.ctl.store (r.ctl.reissued_reservation
            (r.ctl.new_attempt_locked (r.ctl.fenced_job j now) now) now)
          split <;> next heq =>
            rw [heq] at hstands
            exact ⟨rfl, rfl, rfl, rfl, hstands⟩
      · next hremoved =>
        unfold abandon_lease
        simp only
        split
        · next hvalid =>
          refine ⟨h.inflight, h.frame.trans ⟨rfl, rfl, rfl, rfl, .refl _⟩, ?_⟩
          intro a ha
          rcases List.mem_append.mp ha with ha | ha
          · exact h.releases a ha
          · rw [List.mem_singleton] at ha
            subst ha
            exact ⟨rfl, j, stored, by simpa using hremoved, hvalid, rfl⟩
        · exact ⟨h.inflight, h.frame, h.releases⟩
    -- Blocking the copy asks for nothing more.
    obtain ⟨hframe, hinflight⟩ :=
      frame_reblocked (r.copied j now).2.1 (r.copied j now).1 j.service_removed now
    exact ⟨hinflight.trans hcopied.inflight, hcopied.frame.trans hframe, hcopied.releases⟩
  · rw [if_neg hneeds]
    exact h

theorem reclaiming_loop {c : Controller} (now : Nanos) : ∀ (jobs : List MaintenanceJob)
    (r : Reconciling), Reclaiming c r →
    (∀ j ∈ jobs, c.store.state.jobs.jobs.find j.id = some j) →
    Reclaiming c (jobs.foldl (fun r job => reconcile_job r job now) r)
  | [], _, h, _ => h
  | j :: jobs, _, h, hjobs =>
      reclaiming_loop now jobs _ (reclaiming_step h now (hjobs j List.mem_cons_self))
        (fun i hi => hjobs i (List.mem_cons_of_mem _ hi))

/-- What a restart asks for, and what it leaves standing. -/
structure Restarts (store : Store) (c' : Controller) : Prop where
  inflight : c'.drain_inflight = []
  leases : c'.store.state.leases = store.state.leases
  deferred : ∀ a ∈ c'.deferred_releases, Reclaims store.state.jobs.jobs a

theorem restarts_reconcile_locked (c : Controller) (now : Nanos) (hinflight : c.drain_inflight = [])
    (hdeferred : c.deferred_releases = []) : Restarts c.store (c.reconcile_locked now).2 := by
  have hfence := c.store.stands_fence_authority c.incarnation
  have hjobs : (c.store.fence_authority c.incarnation).state.jobs.jobs =
    c.store.state.jobs.jobs := by
    show (c.store.fence_authority c.incarnation).books.jobs = c.store.books.jobs
    rcases c.store.fence_authority_books c.incarnation with hb | hb <;> rw [hb]
  unfold reconcile_locked
  simp only
  have hloop := reclaiming_loop (c := { c with store := c.store.fence_authority c.incarnation }) now
    (c.store.fence_authority c.incarnation).state.jobs.jobs.rows
    { ctl := { c with store := c.store.fence_authority c.incarnation } }
    ⟨rfl, .refl _, fun _ h => by cases h⟩ (fun j hj => Table.find_iff_mem.mpr hj)
  generalize (c.store.fence_authority c.incarnation).state.jobs.jobs.rows.foldl _ _ = r at hloop ⊢
  have hnone : r.ctl.deferred_releases = [] := hloop.frame.deferred.trans hdeferred
  have hreclaims : ∀ a ∈ r.releases, Reclaims c.store.state.jobs.jobs a := by
    rw [← hjobs]
    exact hloop.releases
  have hleases : r.ctl.store.state.leases = c.store.state.leases :=
    hloop.frame.store.leases.trans hfence.leases
  split
  · refine ⟨hloop.inflight.trans hinflight, hleases, ?_⟩
    simp only [hnone, List.nil_append]
    exact hreclaims
  · have hstands := r.ctl.store.stands_commit_jobs (r.updates.map (r.ctl.stamped now))
    split
    · next heq =>
      rw [heq] at hstands
      refine ⟨hloop.inflight.trans hinflight, hstands.leases.trans hleases, ?_⟩
      simp only [hnone]
      intro a ha
      cases ha
    · next heq =>
      rw [heq] at hstands
      refine ⟨hloop.inflight.trans hinflight, hstands.leases.trans hleases, ?_⟩
      simp only [hnone, List.nil_append]
      exact hreclaims

theorem restarts_open (store : Store) (options : ControllerOptions) (clock : Nanos) (steady : Nat) :
    Restarts store (Controller.open store options clock steady).2 := by
  unfold Controller.open
  simp only
  generalize hrecovered : ({ state := recovered store.state options, verdicts := store.verdicts
                             log := store.log, digests := store.digests } : Store) = found
  have hleases : found.state.leases = store.state.leases := by rw [← hrecovered]; rfl
  have hjobs : found.state.jobs.jobs = store.state.jobs.jobs := by rw [← hrecovered]; rfl
  have hstate := found.begin_incarnation_leases options.controller_id options.nonce steady
  split
  · next heq =>
    rw [heq] at hstate
    exact ⟨rfl, hstate.1.trans hleases, fun _ h => by cases h⟩
  · next incarnation s heq =>
    rw [heq] at hstate
    have hrestarts := restarts_reconcile_locked
      { store := s, incarnation, policy := s.state.policy,
        topology := s.state.topology } clock rfl rfl
    refine ⟨hrestarts.inflight, hrestarts.leases.trans (hstate.1.trans hleases), ?_⟩
    rw [← hjobs, ← hstate.2]
    exact hrestarts.deferred

end Controller

end MaintenanceFabric
