import MaintenanceFabric.Guarantees.Confirmation

/-! # The way back to service

    A job completes out of `Restoring`, and it gets there by a verification
    pass.  The two stages check different things: verification looks at the
    scope and at the restoration checks of the scanned sources, the completing
    drive looks at the scope, the lease and the quarantines.  A negative check
    that verification does not see, or that comes after it, stops nothing.
-/

namespace MaintenanceFabric

open Lib

/-! ## The drives -/

/-- The pass's view shows the target fresh and serving. -/
def ReadinessView.Serving (view : ReadinessView) (t : TargetId) : Prop :=
  view.is_fresh t = true ∧ (view.health_of t).is_serving = true

theorem Drive.serving_of_proven {view : ReadinessView} {t : TargetId}
    (h : Drive.unproven view t = false) : view.Serving t := by
  simpa [Drive.unproven, ReadinessView.Serving] using h

namespace Controller

variable {c : Controller} {id : JobId} {context : PassContext} {actions : List DrainAction}
  {j j' : MaintenanceJob}

/-- A drive that ends in a commit without a transition leaves the state as it was. -/
theorem state_of_touched {d : Controller} {job : MaintenanceJob} {now : Nanos}
    (hj' : (d.commit_job_locked job now).2.world.jobs.find id = some j')
    (hjobs : d.world.jobs = c.world.jobs) (hj : c.world.jobs.find id = some j) (hid : job.id = id)
    (hstate : job.state = j.state) : j'.state = j.state := by
  rcases commit_job_locked_cases d job now with ⟨_, _, hfail⟩ | ⟨_, x, hcore, _, hok⟩
  · rw [hfail, hjobs, hj] at hj'
    cases hj'
    rfl
  · have hx : x.id = id := (congrArg Core.id hcore).trans hid
    rw [hok, ← hx] at hj'
    cases Option.some.inj ((Table.find_put_self _ _).symm.trans hj')
    exact (congrArg Core.state hcore).trans hstate

/-- A drive that ends in a transition leaves the state as it was, or has made the move. -/
theorem state_of_transition {d : Drive} {to_state : JobState} {reason : BlockReason} {detail : Text}
    {now : Nanos} {c' : Controller}
    (hc' : c' = if (d.transition_locked to_state reason detail now).1 then
        ((d.transition_locked to_state reason detail now).2.ctl.commit_job_locked
          (d.transition_locked to_state reason detail now).2.job now).2
      else (d.transition_locked to_state reason detail now).2.ctl)
    (hj' : c'.world.jobs.find id = some j') (hjobs : d.ctl.world.jobs = c.world.jobs)
    (hj : c.world.jobs.find id = some j) (hid : d.job.id = id) :
    j' = j ∨ ∃ a l, j'.core = { d.job.core.move to_state with authority := a, lease := l } := by
  rcases transition_then_commit d to_state reason detail now hc'
    with hsame | ⟨x, a, l, hcore, hput, _⟩
  · rw [hsame, hjobs, hj] at hj'
    cases hj'
    exact .inl rfl
  · have hx : x.id = id := (congrArg Core.id hcore).trans hid
    rw [hput, ← hx] at hj'
    cases Option.some.inj ((Table.find_put_self _ _).symm.trans hj')
    exact .inr ⟨a, l, hcore⟩

/-- The end of a drive writes no evidence. -/
theorem evidence_of_transition {d : Drive} {to_state : JobState} {reason : BlockReason}
    {detail : Text} {now : Nanos} {c' : Controller}
    (hc' : c' = if (d.transition_locked to_state reason detail now).1 then
        ((d.transition_locked to_state reason detail now).2.ctl.commit_job_locked
          (d.transition_locked to_state reason detail now).2.job now).2
      else (d.transition_locked to_state reason detail now).2.ctl) :
    c'.world.evidence = d.ctl.world.evidence := by
  rcases Drive.transition_cases d to_state reason detail now with hno | ⟨_, htrue, hmoved⟩
  · rw [hno] at hc'
    rw [hc']
    rfl
  · rw [htrue, if_pos rfl] at hc'
    have hmid : (d.transition_locked to_state reason detail now).2.ctl.world.evidence =
        d.ctl.world.evidence := by
      rcases hmoved.world with hw | ⟨hw, _⟩ <;> rw [hw]
    rw [hc', ← hmid]
    rcases commit_job_locked_cases (d.transition_locked to_state reason detail now).2.ctl
      (d.transition_locked to_state reason detail now).2.job now with ⟨_, _, hw⟩ | ⟨_, _, _, _, hw⟩
    · rw [hw]
    · rw [hw]

/-- What a drive has found when it takes a job out of verification. -/
theorem drive_verifies (hj : c.world.jobs.find id = some j) (hstate : j.state = .Verifying)
    (hj' : (c.drive_locked id context actions).1.world.jobs.find id = some j')
    (hafter : j'.state = .Restoring) :
    (∀ t ∈ j.removal_set, context.readiness.Serving t) ∧
    (∀ t ∈ j.removal_set, c.restoration_refuted j context.now t = false) ∧
    j'.active_attempt = j.active_attempt ∧ j'.removal_set = j.removal_set := by
  have hid : j.id = id := Table.key_of_find hj
  have hdriven := drive_locked_eq context actions hj (by rw [hstate]; rfl)
  unfold Drive.drive_state at hdriven
  simp only [hstate] at hdriven
  unfold Drive.drive_verifying_locked at hdriven
  simp only at hdriven
  split at hdriven
  · -- A job that is held back does not leave for `Restoring`.
    exfalso
    split at hdriven
    · split at hdriven
      · have hquiet := Drive.quietly_quarantine (L := idle_license) c
          { j with verification_failures := j.verification_failures + 1 } .VerificationFailed
          (text "post-maintenance verification never proved the scope healthy") context.now
        rcases state_of_transition hdriven hj' hquiet.jobs hj hid with rfl | ⟨_, _, hcore⟩
        · rw [hstate] at hafter
          cases hafter
        · cases (congrArg Core.state hcore).symm.trans hafter
      · rw [hdriven, if_pos rfl] at hj'
        have hsame := state_of_touched hj' rfl hj hid rfl
        rw [hafter, hstate] at hsame
        cases hsame
    · rw [hdriven, if_pos rfl] at hj'
      have hsame := state_of_touched hj' rfl hj hid rfl
      rw [hafter, hstate] at hsame
      cases hsame
  -- Nothing is held against the scope: what is read back is each check of the drive.
  · next hclean =>
    simp only [Bool.or_eq_true, not_or, Bool.not_eq_true, Bool.not_eq_false', List.isEmpty_iff,
      List.filter_eq_nil_iff, List.any_eq_false] at hclean
    rcases state_of_transition hdriven hj' rfl hj hid with rfl | ⟨_, _, hcore⟩
    · rw [hstate] at hafter
      cases hafter
    · refine ⟨?_, ?_, congrArg Core.active_attempt hcore, congrArg Core.removal_set hcore⟩
      · intro t ht
        exact Drive.serving_of_proven (hclean.1 t ht)
      · intro t ht
        exact hclean.2 t ht

/-- What a drive has found when it completes a job, and the evidence it leaves. -/
structure Completed (c : Controller) (context : PassContext) (j j' : MaintenanceJob)
    (c' : Controller) : Prop where
  scope : j'.removal_set = j.removal_set
  lease : j.lease.valid = false
  serving : ∀ t ∈ j.removal_set, context.readiness.Serving t
  cleared : ∀ t ∈ j.removal_set, ∀ q ∈ c.store.state.quarantines.records.rows, q.target = t →
    q.cleared = true
  evidence : c'.world.evidence = (Drive.record_restoration c j context).world.evidence

theorem drive_completes (hj : c.world.jobs.find id = some j) (hstate : j.state = .Restoring)
    (hj' : (c.drive_locked id context actions).1.world.jobs.find id = some j')
    (hafter : j'.state = .Complete) :
    Completed c context j j' (c.drive_locked id context actions).1 := by
  have hid : j.id = id := Table.key_of_find hj
  have hdriven := drive_locked_eq context actions hj (by rw [hstate]; rfl)
  unfold Drive.drive_state at hdriven
  simp only [hstate] at hdriven
  unfold Drive.drive_restoring_locked at hdriven
  simp only at hdriven
  split at hdriven
  · -- Waiting for the lease commits nothing.
    exfalso
    have hjobs : (Drive.request_release
        { ctl := c, job := j, actions := some actions }).ctl.world.jobs =
        c.world.jobs := by
      unfold Drive.request_release
      split <;> rfl
    simp only [Bool.false_eq_true, if_false] at hdriven
    rw [hdriven, hjobs, hj] at hj'
    cases hj'
    rw [hstate] at hafter
    cases hafter
  · next hlease =>
    split at hdriven
    -- A target that is not serving counts a failure or quarantines the scope: no completion.
    · exfalso
      split at hdriven
      · split at hdriven
        · have hquiet := Drive.quietly_quarantine (L := idle_license) c
            { j with restoration_failures := j.restoration_failures + 1 } .RestorationFailed
            (text "restoration never proved the scope healthy") context.now
          rcases state_of_transition hdriven hj' hquiet.jobs hj hid with rfl | ⟨_, _, hcore⟩
          · rw [hstate] at hafter
            cases hafter
          · cases (congrArg Core.state hcore).symm.trans hafter
        · rw [hdriven, if_pos rfl] at hj'
          have hsame := state_of_touched hj' rfl hj hid rfl
          rw [hafter, hstate] at hsame
          cases hsame
      · rw [hdriven, if_pos rfl] at hj'
        have hsame := state_of_touched hj' rfl hj hid rfl
        rw [hafter, hstate] at hsame
        cases hsame
    -- Nothing is left to object: every target serves and has no open quarantine.
    · next hclean =>
      simp only [List.filter_eq_nil_iff, Bool.or_eq_true, not_or, Bool.not_eq_true,
        Option.isSome_eq_false_iff, Option.isNone_iff_eq_none] at hclean
      have hjobs : (Drive.record_restoration c j context).world.jobs = c.world.jobs :=
        (Drive.quietly_record_restoration (L := drive_license c id context)
          (fun _ hkind hresult => ⟨hkind, hresult⟩) c j context).jobs
      have hend : j'.removal_set = j.removal_set ∧
        (c.drive_locked id context actions).1.world.evidence =
          (Drive.record_restoration c j context).world.evidence := by
        split at hdriven
        · refine ⟨?_, evidence_of_transition hdriven⟩
          rcases state_of_transition hdriven hj' hjobs hj hid with rfl | ⟨_, _, hcore⟩
          · rfl
          · exact congrArg Core.removal_set hcore
        · refine ⟨?_, evidence_of_transition hdriven⟩
          rcases state_of_transition hdriven hj' hjobs hj hid with rfl | ⟨_, _, hcore⟩
          · rfl
          · exact congrArg Core.removal_set hcore
      refine ⟨hend.1, by simpa using hlease, ?_, ?_, hend.2⟩
      · intro t ht
        exact Drive.serving_of_proven (hclean t ht).2
      · intro t ht
        exact QuarantineTable.cleared_of_find_open_for_target (hclean t ht).1

end Controller

namespace System

variable {s : System} {e : Event} {id : JobId}

/-! ## The steps -/

/-- The job a step leaves behind, in terms of the drive that the step is. -/
theorem job_of_drive {p : Pass} {j j' : MaintenanceJob} (hdriving : s.driving e = some (p, j))
    (hj' : (s.step e).job j.id = some j') (hnew : j' ≠ j) :
    ((under s.ctl e.verdicts).drive_locked j.id (p.context (under s.ctl e.verdicts))
      p.actions).1.world.jobs.find j.id = some j' ∧ s.up = true ∧
    (s.step e).ctl = ((under s.ctl e.verdicts).drive_locked j.id
      (p.context (under s.ctl e.verdicts)) p.actions).1 := by
  obtain ⟨_, _, hj, _⟩ := driving_spec hdriving
  have hctl := step_drive_ctl hdriving
  by_cases up : s.up = true
  · rw [if_pos up] at hctl
    unfold System.job at hj'
    rw [hctl] at hj'
    exact ⟨hj', up, hctl⟩
  · rw [if_neg up] at hctl
    unfold System.job at hj'
    rw [hctl] at hj'
    exact absurd (Option.some.inj (hj'.symm.trans hj)) hnew

/-- A verification pass: the step drives the job out of `Verifying`, has found its whole scope
    fresh and serving, and no negative check under the scanned sources. -/
structure Verifies (s : System) (e : Event) (p : Pass) (j : MaintenanceJob) : Prop where
  driving : s.driving e = some (p, j)
  state : j.state = .Verifying
  serving : ∀ t ∈ j.removal_set, (p.context s.ctl).readiness.Serving t
  unrefuted : ∀ t ∈ j.removal_set, s.ctl.restoration_refuted j p.now t = false

/-- A job that has come to `Restoring` was taken there by a verification pass. -/
theorem restoration_entered {j' : MaintenanceJob}
    (hj' : (s.step e).job id = some j') (hstate' : j'.state = .Restoring)
    (hlic : (s.license e).edits id (.moved .Restoring)) :
    ∃ p j, s.job id = some j ∧ j'.active_attempt = j.active_attempt ∧
      j'.removal_set = j.removal_set ∧ Verifies s e p j := by
  rcases license_edits hlic with ⟨p, j, hdriving, hj, hmay⟩ | hother
  · have hstate : j.state = .Verifying := hmay
    have hid : j.id = id := Table.key_of_find hj
    subst hid
    obtain ⟨hdriven, _, _⟩ := job_of_drive hdriving hj' (by
      intro heq
      rw [heq, hstate] at hstate'
      cases hstate')
    obtain ⟨hserving, hunrefuted, hattempt, hscope⟩ := Controller.drive_verifies
      (c := under s.ctl e.verdicts) hj hstate hdriven hstate'
    exact ⟨p, j, hj, hattempt, hscope, hdriving, hstate, hserving, hunrefuted⟩
  · simp at hother

/-- A job completes by a drive out of `Restoring`. -/
theorem Sound.completion_entered (h : s.Sound) {j' : MaintenanceJob}
    (hj' : (s.step e).job id = some j') (hstate' : j'.state = .Complete)
    (hbefore : ∀ j, s.job id = some j → j.state ≠ .Complete) :
    ∃ p j, s.job id = some j ∧ s.driving e = some (p, j) ∧ j.state = .Restoring ∧
      s.up = true ∧
      Controller.Completed (under s.ctl e.verdicts) (p.context s.ctl) j j' (s.step e).ctl := by
  have hnew : j'.state ≠ .Proposed := by
    rw [hstate']
    decide
  rcases (changes_step h e).entered h.world hj' hnew with ⟨x, hx, hsame⟩ | ⟨k, hlic, henters⟩
  · exact absurd (hsame.trans hstate') (hbefore x hx)
  · rw [hstate'] at henters
    rcases license_edits hlic with ⟨p, j, hdriving, hj, hmay⟩ | hother
    · cases k with
      | moved to_state =>
        have hto : JobState.Complete = to_state := beq_iff_eq.mp henters
        subst hto
        have hstate : j.state = .Restoring := hmay.1
        have hid : j.id = id := Table.key_of_find hj
        subst hid
        obtain ⟨hdriven, up, hctl⟩ := job_of_drive hdriving hj' (by
          intro heq
          rw [heq, hstate] at hstate'
          cases hstate')
        refine ⟨p, j, hj, hdriving, hstate, up, ?_⟩
        rw [hctl]
        exact Controller.drive_completes (c := under s.ctl e.verdicts) hj hstate hdriven hstate'
      | _ => cases henters
    · rcases hother with rfl | rfl | rfl | rfl | rfl | rfl <;> cases henters

/-! ## The run between verification and restoration -/

/-- The job has come to `Restoring` by a verification pass under its attempt and for its scope,
    and has been there since. -/
def Verified (events : List Event) (id : JobId) (j : MaintenanceJob) : Prop :=
  ∃ before v after p k, events = before ++ v :: after ∧ Verifies (initial.run before) v p k ∧
    k.id = id ∧ k.active_attempt = j.active_attempt ∧ k.removal_set = j.removal_set ∧
    ∀ mid, mid <+: after → ∃ m, (initial.run (before ++ v :: mid)).job id = some m ∧
      m.state = .Restoring ∧ m.active_attempt = j.active_attempt

theorem verified_run (events : List Event) (id : JobId) (j : MaintenanceJob)
    (hj : (initial.run events).job id = some j) (hstate : j.state = .Restoring) :
    Verified events id j := by
  induction events using List.reverseRecOn generalizing j with
  | nil => cases hj
  | append_singleton events e ih =>
    have hs := sound_run events
    have hlast := hj
    rw [run_snoc] at hj
    -- The last step enters `Restoring`, or the job was in it already.
    by_cases hlic : ((initial.run events).license e).edits id (.moved .Restoring)
    · obtain ⟨p, k, hk, hattempt, hscope, hverifies⟩ := restoration_entered hj hstate hlic
      refine ⟨events, e, [], p, k, rfl, hverifies, Table.key_of_find hk,
        hattempt.symm, hscope.symm, ?_⟩
      intro mid hmid
      rw [List.prefix_nil.mp hmid]
      exact ⟨j, hlast, hstate, rfl⟩
    · -- The job was there before the step, under the same attempt.
      have horigin := (changes_step hs e).origin
        (R := fun c c' => c'.state = .Restoring → c.state = .Restoring ∧
          c'.active_attempt = c.active_attempt ∧ c'.removal_set = c.removal_set)
        (fun _ hc => ⟨hc, rfl, rfl⟩)
        (fun hab hbc hc => ⟨(hab (hbc hc).1).1, (hbc hc).2.1.trans (hab (hbc hc).1).2.1,
          (hbc hc).2.2.trans (hab (hbc hc).1).2.2⟩)
        (fun hedits _ edit hc => edit.stays (.inr rfl) (fun hk => hlic (hk ▸ hedits)) hc)
        hs.world hj
      rcases horigin with ⟨x, hx, hsame⟩ | ⟨_, c, hfresh, hsame⟩
      · obtain ⟨hbefore, hattempt, hscope⟩ := hsame hstate
        obtain ⟨before, v, after, p, k, hsplit, hverifies, hid, hka, hks, hsince⟩ := ih x hx hbefore
        have hattempt : j.active_attempt = x.active_attempt := hattempt
        have hscope : j.removal_set = x.removal_set := hscope
        rw [← hattempt] at hka hsince
        refine ⟨before, v, after ++ [e], p, k, ?_, hverifies, hid, hka, hks.trans hscope.symm, ?_⟩
        · rw [hsplit, List.append_assoc, List.cons_append]
        · intro mid hmid
          rcases List.prefix_concat_iff.mp hmid with rfl | hmid
          · refine ⟨j, ?_, hstate, rfl⟩
            rw [hsplit, List.append_assoc, List.cons_append] at hlast
            exact hlast
          · exact hsince mid hmid
      · rw [hfresh.1] at hsame
        cases (hsame hstate).1

/-! ## Negative checks -/

/-- The record says, of the job and under its attempt, that the scope is not restored. -/
def Against (j : MaintenanceJob) (r : EvidenceRecord) : Prop :=
  r.refutes = true ∧ r.job = j.id ∧ r.attempt = j.active_attempt

instance (j : MaintenanceJob) (r : EvidenceRecord) : Decidable (Against j r) :=
  inferInstanceAs (Decidable (_ ∧ _))

/-- A step that reports nothing against the job leaves no record against it that was not there. -/
theorem Sound.against_step (h : s.Sound) {j : MaintenanceJob}
    {r : EvidenceRecord} (hr : Against j r)
    (hsilent : e.label.refuting ≠ some (j.id, j.active_attempt))
    (hfind : (s.step e).ctl.world.evidence.find r.key = some r) :
    s.ctl.world.evidence.find r.key = some r := by
  refine (changes_step h e).preserves (P := fun w => w.evidence.find r.key = some r →
    s.ctl.world.evidence.find r.key = some r) ?_ id hfind
  intro a b ha hchange
  -- A record that has just come in would have been reported.
  have hnew : ∀ {x : EvidenceRecord} {evidence : EvidenceStore},
      ((s.license e).writes x ∨ (s.license e).observes x) → a.evidence.observe x = .ok evidence →
      evidence.find r.key = some r → s.ctl.world.evidence.find r.key = some r := by
    intro x evidence licensed hok hstored
    obtain ⟨_, _, _, _, horigin⟩ := EvidenceStore.observe_ok hok
    rcases horigin r.key r hstored with ⟨_, rfl⟩ | ⟨_, hold⟩
    · have hreported := license_refuting licensed hr.1
      rw [hr.2.1, hr.2.2] at hreported
      exact absurd hreported hsilent
    · exact ha hold
  cases hchange with
  | authored _ licensed answered =>
    cases answered with
    | accepted hok => exact hnew (.inl licensed) hok
    | refused _ => exact ha
  | observed licensed accepted => exact hnew (.inr licensed) accepted
  | _ => exact ha

/-- Over a run that reports nothing against the job, too. -/
theorem Sound.against_run (h : s.Sound) {j : MaintenanceJob} {r : EvidenceRecord} (hr : Against j r)
    {events : List Event}
    (hsilent : Along System.step (fun _ e => e.label.refuting ≠ some (j.id, j.active_attempt)) s
      events)
    (hfind : (s.run events).ctl.world.evidence.find r.key = some r) :
    s.ctl.world.evidence.find r.key = some r := by
  induction events generalizing s with
  | nil => exact hfind
  | cons e events ih => exact h.against_step hr hsilent.1 (ih (h.step e) hsilent.2 hfind)

/-- A verification of the job in this pass sees the record unless it has expired: it is about the
    scope, from a scanned source, not from the future and not of a fenced incarnation. -/
def InEarshot (s : System) (p : Pass) (j : MaintenanceJob) (r : EvidenceRecord) : Prop :=
  r.key.source ∈ PreconditionContext.scanned_sources ∧
    (∃ t ∈ j.removal_set, r.key.subject = EvidenceSubject.of t) ∧
    r.observed_at - p.now ≤ limits.kMaxClockSkewNanos ∧
    ¬ (r.klass = .Volatile ∧ is_fenced_by r.observed_by s.ctl.incarnation = true)

instance (s : System) (p : Pass) (j : MaintenanceJob) (r : EvidenceRecord) :
    Decidable (InEarshot s p j r) := inferInstanceAs (Decidable (_ ∧ _))

/-- Whatever stands against a job when it is verified is in earshot, and nobody reports against a
    job that has passed verification. -/
def Heard (s : System) (e : Event) : Prop :=
  (∀ d ∈ s.driving e, d.2.state = .Verifying →
    ∀ r ∈ s.ctl.store.state.evidence.records.rows, Against d.2 r → InEarshot s d.1 d.2 r) ∧
  ∀ b ∈ e.label.refuting, ∀ j ∈ s.job b.1, j.active_attempt = b.2 → j.state ≠ .Restoring

instance (s : System) (e : Event) : Decidable (Heard s e) := inferInstanceAs (Decidable (_ ∧ _))

/-- The instants at which the run drives the job. -/
def drive_times (id : JobId) : System → List Event → List Nanos
  | _, [] => []
  | s, e :: events =>
      ((s.driving e).filter (fun d => decide (d.2.id = id))).toList.map (fun d => d.1.now) ++
        drive_times id (s.step e) events

theorem drive_times_append (id : JobId) (s : System) (events more : List Event) :
    drive_times id s (events ++ more) =
      drive_times id s events ++ drive_times id (s.run events) more := by
  induction events generalizing s with
  | nil => rfl
  | cons e events ih =>
    rw [List.cons_append, drive_times, ih, drive_times, List.append_assoc]
    rfl

theorem drive_times_cons {p : Pass} {j : MaintenanceJob} (h : s.driving e = some (p, j))
    (events : List Event) :
    drive_times j.id s (e :: events) = p.now :: drive_times j.id (s.step e) events := by
  rw [drive_times, h, Option.filter_some, if_pos (decide_eq_true rfl)]
  rfl

/-- A verification that could see a check did not find it current. -/
theorem Verifies.not_current {p : Pass} {j : MaintenanceJob} (h : Verifies s e p j)
    (hheard : Heard s e) {r : EvidenceRecord} (hr : Against j r)
    (hfind : s.ctl.world.evidence.find r.key = some r) {incarnation : ControllerIncarnation}
    {now : Nanos} (hnow : p.now ≤ now) : ¬ EvidenceStore.Current r incarnation now := by
  intro hcurrent
  obtain ⟨hsource, ⟨t, ht, hsubject⟩, hskew, hfence⟩ :=
    hheard.1 (p, j) h.driving h.state r (Table.mem_of_find hfind) hr
  obtain ⟨hrefutes, hjob, hattempt⟩ := hr
  simp only [EvidenceRecord.refutes, Bool.and_eq_true, decide_eq_true_eq,
    Bool.not_eq_true'] at hrefutes
  have hkey : r.key = { kind := .RestorationCheck, subject := EvidenceSubject.of t
                        source := r.key.source } :=
    EvidenceKey.ext hrefutes.1 hsubject rfl
  have hstored : s.ctl.store.state.evidence.find
      { kind := .RestorationCheck, subject := EvidenceSubject.of t, source := r.key.source } =
        some r := by
    rw [← hkey]
    exact hfind
  have hfresh : (s.ctl.store.state.evidence.evaluate
      { key := { kind := .RestorationCheck, subject := EvidenceSubject.of t,
                 source := r.key.source }
        current := s.ctl.incarnation, now := p.now, job := j.id
        attempt := j.active_attempt }).fresh = true := by
    rw [EvidenceStore.evaluate_fresh hstored, EvidenceStore.judge_fresh]
    exact ⟨fun _ _ => hjob, fun _ _ => hattempt, hskew, hfence, hnow.trans hcurrent.2.2⟩
  -- The scan comes across the key of the record.
  have hscan := List.any_eq_false.mp (h.unrefuted t ht) r.key.source hsource
  simp only [hstored] at hscan
  rw [hfresh, hrefutes.2] at hscan
  exact hscan rfl

/-! ## The gate -/

/-- What the state a completion was decided in must look like. -/
structure Restored (s : System) (p : Pass) (j : MaintenanceJob) : Prop where
  serving : ∀ t ∈ j.removal_set, (p.context s.ctl).readiness.Serving t
  cleared : ∀ t ∈ j.removal_set, ∀ q ∈ s.ctl.store.state.quarantines.records.rows, q.target = t →
    q.cleared = true
  lease : j.lease.valid = false

/-- Every job that completes has been verified under its attempt and is back in service; and along
    a run in which verification hears every check and the job is driven forward in time, no current
    record says otherwise. -/
theorem restoration_gate (events : List Event) (e : Event) (id : JobId) (j' : MaintenanceJob)
    (hj' : (initial.run (events ++ [e])).job id = some j') (hafter : j'.state = .Complete)
    (hbefore : ∀ j, (initial.run events).job id = some j → j.state ≠ .Complete) :
    ∃ p j, (initial.run events).driving e = some (p, j) ∧ (initial.run events).job id = some j ∧
      j.state = .Restoring ∧ Verified events id j ∧ Restored (initial.run events) p j ∧
      (Along step Heard initial (events ++ [e]) →
        (drive_times id initial (events ++ [e])).Pairwise (· ≤ ·) →
        ∀ r, Against j r →
          (initial.run events).ctl.world.evidence.find r.key = some r ∨
            (initial.run (events ++ [e])).ctl.world.evidence.find r.key = some r →
          ¬ EvidenceStore.Current r (initial.run events).ctl.incarnation p.now) := by
  have hs := sound_run events
  have hstep := hj'
  rw [run_snoc] at hstep
  obtain ⟨p, j, hj, hdriving, hstate, _, hcompleted⟩ := hs.completion_entered hstep hafter hbefore
  have hid : j.id = id := Table.key_of_find hj
  have hverified := verified_run events id j hj hstate
  refine ⟨p, j, hdriving, hj, hstate, hverified, ⟨hcompleted.serving, hcompleted.cleared,
    hcompleted.lease⟩, ?_⟩
  intro hheard htimes r hr hstored
  obtain ⟨before, v, after, q, k, hsplit, hverifies, hkid, hattempt, _, hsince⟩ := hverified
  have hrk : Against k r := ⟨hr.1, hr.2.1.trans (hid.trans hkid.symm), hr.2.2.trans hattempt.symm⟩
  -- The completing drive reports nothing.
  have hstored : (initial.run events).ctl.world.evidence.find r.key = some r := by
    rcases hstored with hstored | hstored
    · exact hstored
    · rw [run_snoc] at hstored
      refine hs.against_step hr ?_ hstored
      rw [(driving_spec hdriving).1]
      simp [Label.refuting]
  -- Neither does anything since verification.
  have hsilent : Along step (fun _ e => e.label.refuting ≠ some (k.id, k.active_attempt))
      (initial.run before) (v :: after) := by
    refine ⟨?_, ?_⟩
    · show v.label.refuting ≠ _
      rw [(driving_spec hverifies.driving).1]
      simp [Label.refuting]
    · rw [Along.iff_forall]
      intro mid x rest hmid hreported
      obtain ⟨m, hm, hmstate, hmattempt⟩ := hsince mid ⟨x :: rest, hmid.symm⟩
      have hplace : events ++ [e] = (before ++ v :: mid) ++ x :: (rest ++ [e]) := by
        rw [hsplit, hmid]
        simp
      have hx := (Along.iff_forall.mp hheard _ _ _ hplace).2 _ hreported m (hkid ▸ hm)
        (hmattempt.trans hattempt.symm)
      exact hx hmstate
  have hearlier : (initial.run before).ctl.world.evidence.find r.key = some r := by
    refine (sound_run before).against_run hrk hsilent ?_
    rw [← run_append, ← hsplit]
    exact hstored
  have hplace : events ++ [e] = before ++ v :: (after ++ [e]) := by
    rw [hsplit]
    simp
  have hnow : q.now ≤ p.now := by
    rw [hplace, drive_times_append, ← hkid, drive_times_cons hverifies.driving] at htimes
    apply List.rel_of_pairwise_cons (List.pairwise_append.mp htimes).2.1
    rw [drive_times_append]
    refine List.mem_append_right _ ?_
    have hrun : ((initial.run before).step v).run after = initial.run events := by
      rw [hsplit, run_append]
      rfl
    rw [hrun, hkid, ← hid, drive_times_cons hdriving]
    exact List.mem_cons_self
  exact hverifies.not_current (Along.iff_forall.mp hheard _ _ _ hplace) hrk hearlier hnow

end System

namespace Drill

/-- Job 1 is reported done and has passed verification. -/
def restoring : List Event :=
  started ++ [report 1 true (ms 210)] ++ tick (ms 300) 1 ++ tick (ms 400) 1

/-- Up to the drive that completes it. -/
def returning : List Event := restoring ++ [call (.tick 0 (ms 500)), call (.begin_pass 0)]

/-- The same, but the switch is reported as not restored after verification. -/
def refuted : List Event :=
  restoring ++ [call (.report_restoration ⟨1⟩ (first 1) switch false [] (ms 450)),
    call (.tick 0 (ms 500)), call (.begin_pass 0)]

end Drill

namespace System

/-- The drill that nobody disturbs completes with nothing against it. -/
theorem restoration_gate_drill :
    ∃ p j, (initial.run Drill.returning).driving (Drill.call .pass_step) = some (p, j) ∧
      Verified Drill.returning ⟨1⟩ j ∧ Restored (initial.run Drill.returning) p j ∧
      ∀ r, Against j r → (initial.run Drill.returning).ctl.world.evidence.find r.key = some r →
        ¬ EvidenceStore.Current r (initial.run Drill.returning).ctl.incarnation p.now := by
  obtain ⟨j', hj', hafter⟩ := job_of_field
    (initial.run (Drill.returning ++ [Drill.call .pass_step])) ⟨1⟩ MaintenanceJob.state
    (a := .Complete) (by decide +kernel)
  obtain ⟨x, hx, hrestoring⟩ := job_of_field (initial.run Drill.returning) ⟨1⟩ MaintenanceJob.state
    (a := .Restoring) (by decide +kernel)
  obtain ⟨p, j, hdriving, _, _, hverified, hrestored, hunrefuted⟩ :=
    restoration_gate Drill.returning (Drill.call .pass_step) ⟨1⟩ j' hj' hafter (by
      intro y hy
      cases Option.some.inj (hx.symm.trans hy)
      rw [hrestoring]
      decide)
  refine ⟨p, j, hdriving, hverified, hrestored, ?_⟩
  intro r hr hstored
  exact hunrefuted (by decide +kernel) (by decide +kernel) r hr (.inl hstored)

/-- A report against the job that comes after verification is on record, current, and does not
    keep the job from completing. -/
theorem refuted_job_completes :
    ∃ p j r, (initial.run Drill.refuted).driving (Drill.call .pass_step) = some (p, j) ∧
      ((initial.run (Drill.refuted ++ [Drill.call .pass_step])).job j.id).map MaintenanceJob.state =
        some .Complete ∧
      j.state = .Restoring ∧ Against j r ∧
      (initial.run Drill.refuted).ctl.world.evidence.find r.key = some r ∧
      (initial.run (Drill.refuted ++ [Drill.call .pass_step])).ctl.world.evidence.find r.key =
        some r ∧
      EvidenceStore.Current r (initial.run Drill.refuted).ctl.incarnation p.now := by
  have hshown : ((initial.run Drill.refuted).driving (Drill.call .pass_step)).bind (fun d =>
      ((initial.run Drill.refuted).ctl.store.state.evidence.find
        { kind := .RestorationCheck, subject := EvidenceSubject.of Drill.switch
          source := ⟨2⟩ }).map (fun r =>
            decide (d.2.id = ⟨1⟩ ∧ d.2.state = .Restoring ∧ Against d.2 r ∧
        (initial.run (Drill.refuted ++
          [Drill.call .pass_step])).ctl.store.state.evidence.find r.key =
          some r ∧
        EvidenceStore.Current r (initial.run Drill.refuted).ctl.incarnation d.1.now))) =
        some true := by
    decide +kernel
  have hcomplete : ((initial.run (Drill.refuted ++ [Drill.call .pass_step])).job ⟨1⟩).map
      MaintenanceJob.state = some .Complete := by
    decide +kernel
  generalize initial.run (Drill.refuted ++ [Drill.call .pass_step]) = s' at *
  generalize initial.run Drill.refuted = s at *
  obtain ⟨⟨p, j⟩, hdriving, hmap⟩ := Option.bind_eq_some_iff.mp hshown
  obtain ⟨r, hfind, hfacts⟩ := Option.map_eq_some_iff.mp hmap
  obtain ⟨hid, hstate, hagainst, hkept, hcurrent⟩ := of_decide_eq_true hfacts
  have hkey : r.key = _ := Table.key_of_find hfind
  rw [← hkey] at hfind
  exact ⟨p, j, r, hdriving, hid ▸ hcomplete, hstate, hagainst, hfind, hkept, hcurrent⟩

end System

end MaintenanceFabric
