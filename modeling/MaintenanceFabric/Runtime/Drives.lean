import MaintenanceFabric.Runtime.Effects

/-! # Driving a job

    One drive of a pass, as a sequence of changes.  The license of a drive
    names the one job it may edit and, for each kind of edit, what the drive
    had established in the state it found.
-/

namespace MaintenanceFabric

open Lib

/-- What a drive of `j` must have found before it makes an edit of each kind. -/
def drive_may (c : Controller) (j : MaintenanceJob) (context : PassContext) : EditKind → Prop
  | .touched | .minted | .expanded => True
  | .moved .InMaintenance =>
      j.state = .Ready ∧
        (c.evaluate_locked j context.readiness true true context.now).violated = 0 ∧
        (c.evaluate_locked j context.readiness true true context.now).pending = 0
  | .moved .Restoring => j.state = .Verifying
  | .moved .Complete => j.state = .Restoring ∧ j.maintenance_failed = false
  | .moved .Cancelled | .moved .Verifying => False
  | .moved .Blocked => j.state ≠ .InMaintenance
  | .moved _ => True
  | .confirmed failed =>
      j.state = .InMaintenance ∧ c.completion_confirmed_locked j context.now = (true, failed)
  | .resumed => j.state = .Blocked
  | .approved | .rearmed | .reconciled => False

def drive_license (c : Controller) (id : JobId) (context : PassContext) : License where
  edits i k := i = id ∧ ∃ j, c.world.jobs.find id = some j ∧ drive_may c j context k
  writes r := r.key.kind = .RestorationCheck ∧ r.payload.result = true
  observes _ := False
  expires _ := False
  restarts := False
  faulty := ∃ j, c.world.jobs.find id = some j ∧ j.service_removed = true ∧
    (¬ c.Calm ∨ ¬ Recordable j)

namespace Drive

/-- The outcome of a drive function: quiet changes, then possibly one edit of the job, which
    may come with the release of its authority. -/
def Drove (L : License) (d : Drive) (out : Bool × Drive) : Prop :=
  ∃ mid : Controller, Controller.Quietly L d.ctl mid ∧
    (out.1 = false ∧ out.2.ctl.world = mid.world ∨
     out.1 = true ∧ ∃ k, Edit k d.job.core out.2.job.core ∧ L.edits d.job.id k ∧
      (out.2.job.authority = d.job.authority ∨ out.2.job.authority = ⟨0⟩) ∧
      (mid.Calm → out.2.ctl.Calm) ∧
      (out.2.ctl.world = mid.world ∨
        (Recordable d.job → Recordable out.2.job) ∧
        out.2.ctl.world = { mid.world with ledger := mid.world.ledger.without d.job.authority } ∧
        (out.2.job.state.is_terminal = true ∨ out.2.job.service_removed = false)))

variable {L : License} {d : Drive}

/-- Resources are given back by a job that ends, or that has removed no service. -/
theorem gives_back_over {c : Core} {to_state : JobState}
    (h : gives_back to_state c.service_removed = true) :
    to_state.is_terminal = true ∨ (c.move to_state).service_removed = false := by
  simp only [gives_back, Bool.or_eq_true, Bool.and_eq_true, beq_iff_eq, Bool.not_eq_true'] at h
  rcases h with h | ⟨rfl, h⟩
  · exact .inl h
  · exact .inr (by simp [Core.move, h])

/-- Nothing to commit. -/
theorem drove_idle {d' : Drive} (h : Controller.Quietly L d.ctl d'.ctl) : Drove L d (false, d') :=
  ⟨d'.ctl, h, .inl ⟨rfl, rfl⟩⟩

/-- Fields outside the lifecycle changed. -/
theorem drove_touched {d' : Drive} (h : Controller.Quietly L d.ctl d'.ctl)
    (hcore : ∃ a, d'.job.core = { d.job.core with authority := a, lease := d.job.lease } ∧
      (a = d.job.authority ∨ a = ⟨0⟩))
    (alive : d.job.state.is_terminal = false) (licensed : L.edits d.job.id .touched) :
    Drove L d (true, d') := by
  obtain ⟨a, hcore, ha⟩ := hcore
  refine ⟨d'.ctl, h, .inr ⟨rfl, .touched, ?_, licensed, ?_, id, .inl rfl⟩⟩
  · rw [hcore]
    exact .touched a d.job.lease alive
  · rw [show d'.job.authority = a from congrArg Core.authority hcore]
    exact ha

/-- A transition at the end of a drive, out of a job copy that was prepared for it. -/
theorem drove_transition {prepared : Drive} {to_state : JobState} {k : EditKind}
    (reason : BlockReason) (detail : Text) (now : Nanos)
    (h : Controller.Quietly L d.ctl prepared.ctl)
    (hauth : prepared.job.authority = d.job.authority)
    (hremoved : prepared.job.service_removed = d.job.service_removed)
    (hrec : gives_back to_state d.job.service_removed = true → Recordable d.job →
      Recordable prepared.job)
    (edit : ∀ a l,
      (check_transition prepared.job.state to_state d.job.service_removed).allowed = true →
      Edit k d.job.core { prepared.job.core.move to_state with authority := a, lease := l })
    (licensed : L.edits d.job.id k) :
    Drove L d (prepared.transition_locked to_state reason detail now) := by
  rcases transition_cases prepared to_state reason detail now with hno | ⟨hallowed, htrue, hmoved⟩
  · rw [hno]
    exact drove_idle h
  · obtain ⟨a, l, hcore, ha⟩ := hmoved.core
    rw [hauth] at ha
    rw [hremoved] at hallowed
    have hauth' : (prepared.transition_locked to_state reason detail now).2.job.authority = a :=
      congrArg Core.authority hcore
    have hstate : (prepared.transition_locked to_state reason detail now).2.job.state = to_state :=
      congrArg Core.state hcore
    have hsr : (prepared.transition_locked to_state reason detail now).2.job.service_removed =
        (prepared.job.core.move to_state).service_removed := congrArg Core.service_removed hcore
    refine ⟨prepared.ctl, h, .inr ⟨htrue, k, ?_, licensed, ?_, hmoved.calm, ?_⟩⟩
    · rw [hcore]
      exact edit a l hallowed
    · rw [hauth']
      exact ha
    · refine hmoved.world.imp_right (fun hw => ?_)
      refine ⟨fun hr => hmoved.recordable (hrec (hremoved ▸ hw.2.1) hr), hauth ▸ hw.1, ?_⟩
      rw [hstate, hsr]
      exact gives_back_over hw.2.1

/-- The common case: nothing but the state changes. -/
theorem drove_moved {prepared : Drive} {to_state : JobState} (reason : BlockReason) (detail : Text)
    (now : Nanos) (h : Controller.Quietly L d.ctl prepared.ctl)
    (hcore : prepared.job.core = d.job.core) (hrec : Recordable d.job → Recordable prepared.job)
    (onward : to_state ≠ .Validated ∧ to_state ≠ .Verifying ∧
      (to_state = .Restoring → d.job.state = .Verifying))
    (licensed : L.edits d.job.id (.moved to_state)) :
    Drove L d (prepared.transition_locked to_state reason detail now) := by
  refine drove_transition reason detail now h (congrArg Core.authority hcore)
    (congrArg Core.service_removed hcore) (fun _ => hrec) ?_ licensed
  intro a l hallowed
  rw [hcore]
  rw [show prepared.job.state = d.job.state from congrArg Core.state hcore] at hallowed
  exact .moved to_state a l hallowed onward

/-! ## Quiet parts -/

/-- Waiting for the drain only moves bookkeeping outside the books. -/
theorem quietly_request_drain (prepared : Drive) :
    Controller.Quietly L prepared.ctl prepared.request_drain.ctl := by
  unfold request_drain
  split
  · exact .refl _
  · exact .of_world_eq rfl id

theorem quietly_quarantine (c : Controller) (job : MaintenanceJob) (reason : BlockReason)
    (detail : Text) (now : Nanos) :
    Controller.Quietly L c (c.quarantine_targets_locked job reason detail now) := by
  unfold Controller.quarantine_targets_locked
  apply Controller.Quietly.foldl
  intro c target
  refine .of_world_eq ?_ (fun h => Store.verdicts_quarantine_target h _ _ _ _ _ _ _)
  exact Controller.world_of_books (Store.books_quarantine_target _ _ _ _ _ _ _ _)

theorem quietly_record_restoration
    (writes : ∀ r : EvidenceRecord, r.key.kind = .RestorationCheck → r.payload.result = true →
      L.writes r) (c : Controller) (job : MaintenanceJob) (context : PassContext) :
    Controller.Quietly L c (record_restoration c job context) := by
  unfold record_restoration
  apply Controller.Quietly.foldl
  intro c target
  apply Controller.quietly_author_evidence
  intro r hkey _ _ hpayload
  exact writes r (by rw [hkey]) (by rw [hpayload])

/-! ## The seven drive functions -/

section Functions

variable {context : PassContext}
  (may : ∀ k, drive_may d.ctl d.job context k → L.edits d.job.id k)

include may

theorem drove_blocked (reason : BlockReason) (detail : Text) {prepared : Drive}
    (h : Controller.Quietly L d.ctl prepared.ctl) (hcore : prepared.job.core = d.job.core)
    (hrec : Recordable d.job → Recordable prepared.job) (waiting : d.job.state ≠ .InMaintenance) :
    Drove L d (prepared.transition_locked .Blocked reason detail context.now) :=
  drove_moved reason detail context.now h hcore hrec (by simp) (may (.moved .Blocked) waiting)

theorem drove_violation {prepared : Drive} (evaluation : PreconditionSet)
    (h : Controller.Quietly L d.ctl prepared.ctl) (hjob : prepared.job = d.job)
    (waiting : d.job.state ≠ .InMaintenance) :
    Drove L d (prepared.block_on_violation evaluation context.now) := by
  unfold block_on_violation
  split <;> exact drove_blocked may _ _ h (by rw [hjob]) (by rw [hjob]; exact id) waiting

theorem drove_validated (state : d.job.state = .Validated) :
    Drove L d (d.drive_validated_locked context) := by
  have waiting : d.job.state ≠ .InMaintenance := by simp [state]
  unfold drive_validated_locked
  split
  · exact drove_blocked may _ _ (.refl _) rfl id waiting
  · split
    · exact drove_blocked may _ _ (.refl _) rfl id waiting
    · simp only
      have hcore : (with_attempt d.ctl (expanded d.ctl d.job) context.now).core =
          ({ d.job.core with
            removal_set := d.ctl.topology.removal_set d.job.targets }).with_attempt :=
        core_with_attempt _ _ _
      have hkeep : ∀ c : Core, c.with_attempt.authority = c.authority ∧
          c.with_attempt.service_removed = c.service_removed := by
        intro c
        unfold Core.with_attempt
        split <;> exact ⟨rfl, rfl⟩
      refine drove_transition _ _ _ (.refl _) ?_ ?_ ?_ ?_ (may .expanded trivial)
      · exact (congrArg Core.authority hcore).trans (hkeep _).1
      · exact (congrArg Core.service_removed hcore).trans (hkeep _).2
      · -- Entering `Prerequisites` gives nothing back.
        intro hg
        simp [gives_back, JobState.is_terminal] at hg
      · intro a l _
        simp only [hcore]
        exact .expanded _ a l state

theorem drove_await {prepared : Drive} (h : Controller.Quietly L d.ctl prepared.ctl)
    (hjob : prepared.job = d.job) (state : d.job.state = .Prerequisites) :
    Drove L d (prepared.await_prerequisites context) := by
  have waiting : d.job.state ≠ .InMaintenance := by simp [state]
  unfold await_prerequisites
  simp only
  split
  · split
    · exact drove_blocked may _ _ h (by rw [hjob]) (by rw [hjob]; exact id) waiting
    · exact drove_idle (h.trans (quietly_request_drain prepared))
  · split
    · exact drove_violation may _ h hjob waiting
    · split
      · refine drove_touched h ⟨d.job.authority, ?_, .inl rfl⟩ ?_ (may .touched trivial)
        · rw [← hjob]
          rfl
        · simp [state, JobState.is_terminal]
      · refine drove_moved _ _ _ h ?_ ?_ (by simp) (may (.moved .Ready) trivial)
        · rw [← hjob]
          rfl
        · rw [← hjob]
          exact id

theorem drove_prerequisites (state : d.job.state = .Prerequisites) :
    Drove L d (d.drive_prerequisites_locked context) := by
  have alive : d.job.state.is_terminal = false := by simp [state, JobState.is_terminal]
  unfold drive_prerequisites_locked
  simp only
  split
  · next hidle =>
    refine ⟨d.ctl, .refl _, .inr ⟨rfl, .minted, ?_, may .minted trivial, .inl rfl, id, .inl rfl⟩⟩
    rw [core_new_attempt_locked]
    exact .minted state (show d.job.active_attempt.valid = false by simpa using hidle)
  · split
    · exact drove_idle (.refl _)
    · split
      · exact drove_touched (.refl _) ⟨⟨0⟩, rfl, .inr rfl⟩ alive (may .touched trivial)
      · split
        · -- The renewal is a change of its own, whatever the job does next.
          generalize hr : d.ctl.store.renew_authority d.job.authority d.job.active_attempt
            d.ctl.incarnation (renewal_margin d.ctl.policy) context.now = renewed
          have hq : Controller.Quietly L d.ctl { d.ctl with store := renewed.2 } := by
            have hb := Store.renew_authority_books d.ctl.store d.job.authority
              d.job.active_attempt d.ctl.incarnation (renewal_margin d.ctl.policy) context.now
            rw [hr] at hb
            have hc : d.ctl.Calm → renewed.2.verdicts = [] := by
              intro h
              rw [← hr]
              exact Store.verdicts_renew_authority h _ _ _ _ _
            rcases hb with hb | ⟨r, e, v, hmem, hle, hb⟩
            · exact .of_world_eq (Controller.world_of_books hb) hc
            · refine ⟨Changes.single ?_, ?_, hc⟩
              · convert Change.renewed (w := d.ctl.world) e v hmem hle using 1
                simp [Controller.world, hb]
              · simp [Controller.world, hb]
          split
          · split
            · exact drove_touched hq ⟨⟨0⟩, rfl, .inr rfl⟩ alive (may .touched trivial)
            · exact drove_blocked may _ _ hq rfl id (by simp [state])
          · exact drove_await may hq rfl state
        · exact drove_await may (.refl _) rfl state

theorem drove_ready (state : d.job.state = .Ready) : Drove L d (d.drive_ready_locked context) := by
  unfold drive_ready_locked
  simp only
  split
  · exact drove_violation may _ (.refl _) rfl (by simp [state])
  · next hviolated =>
    split
    · exact drove_moved _ _ _ (.refl _) rfl id (by simp) (may (.moved .Prerequisites) trivial)
    · next hpending =>
      split
      · exact drove_moved _ _ _ (.refl _) rfl id (by simp) (may (.moved .Prerequisites) trivial)
      · refine drove_moved _ _ _ (.refl _) rfl id (by simp) (may (.moved .InMaintenance) ?_)
        exact ⟨state, by omega, by omega⟩

theorem drove_resuming (state : d.job.state = .Blocked) :
    Drove L d (d.drive_blocked_locked context) := by
  unfold drive_blocked_locked
  simp only
  split
  · exact drove_idle (.refl _)
  · split
    · exact drove_idle (.refl _)
    · split
      · next hremoved =>
        have hcore := core_with_attempt d.ctl d.job context.now
        have hkeep : d.job.core.with_attempt.authority = d.job.authority ∧
            d.job.core.with_attempt.service_removed = d.job.service_removed := by
          unfold Core.with_attempt
          split <;> exact ⟨rfl, rfl⟩
        refine drove_transition _ _ _ (.refl _) ?_ ?_ ?_ ?_ (may .resumed state)
        · exact (congrArg Core.authority hcore).trans hkeep.1
        · exact (congrArg Core.service_removed hcore).trans hkeep.2
        · intro hg
          simp [gives_back, JobState.is_terminal] at hg
        · intro a l _
          simp only [hcore]
          exact .resumed a l state hremoved
      · exact drove_moved _ _ _ (.refl _) rfl id (by simp) (may (.moved .Prerequisites) trivial)

theorem drove_finish_step (state : d.job.state = .InMaintenance) {complete any_failed : Bool}
    (found : d.ctl.completion_confirmed_locked d.job context.now = (complete, any_failed)) :
    Drove L d (d.finish_step complete any_failed context.now) := by
  unfold finish_step
  split
  · exact drove_idle (.refl _)
  · next hcomplete =>
    have hcomplete : complete = true := by simpa using hcomplete
    subst hcomplete
    refine drove_transition _ _ _ (.refl _) ?_ ?_ ?_ ?_ (may (.confirmed any_failed) ⟨state, found⟩)
    · cases any_failed <;> rfl
    · cases any_failed <;> rfl
    · intro hg
      simp [gives_back, JobState.is_terminal] at hg
    · intro a l _
      have hcore : (if any_failed then { d.job with maintenance_failed := true } else d.job).core =
          { d.job.core with
            maintenance_failed := d.job.core.maintenance_failed || any_failed } := by
        cases any_failed
        · simp
        · simp [MaintenanceJob.core]
      simp only [hcore]
      exact .confirmed any_failed a l state

theorem drove_in_maintenance (state : d.job.state = .InMaintenance) :
    Drove L d (d.drive_in_maintenance_locked context) := by
  have alive : d.job.state.is_terminal = false := by simp [state, JobState.is_terminal]
  unfold drive_in_maintenance_locked
  have hfinish := drove_finish_step may state
    (show d.ctl.completion_confirmed_locked d.job context.now = (_, _) from rfl)
  simp only
  split
  · split
    · split
      · exact drove_moved _ _ _ (quietly_quarantine _ _ _ _ _) rfl id (by simp)
          (may (.moved .Failed) trivial)
      · exact hfinish
    · split
      · exact drove_touched (.refl _) ⟨_, rfl, .inl rfl⟩ alive (may .touched trivial)
      · exact hfinish
    · split
      · exact drove_touched (.refl _) ⟨_, rfl, .inl rfl⟩ alive (may .touched trivial)
      · exact hfinish
  · exact hfinish

theorem drove_verifying (state : d.job.state = .Verifying) :
    Drove L d (d.drive_verifying_locked context) := by
  have alive : d.job.state.is_terminal = false := by simp [state, JobState.is_terminal]
  unfold drive_verifying_locked
  simp only
  split
  · split
    · split
      · exact drove_moved _ _ _ (quietly_quarantine _ _ _ _ _) rfl id (by simp)
          (may (.moved .Failed) trivial)
      · exact drove_touched (.refl _) ⟨_, rfl, .inl rfl⟩ alive (may .touched trivial)
    · exact drove_touched (.refl _) ⟨_, rfl, .inl rfl⟩ alive (may .touched trivial)
  · exact drove_moved _ _ _ (.refl _) rfl id (by simp [state]) (may (.moved .Restoring) state)

theorem drove_restoring
    (writes : ∀ r : EvidenceRecord, r.key.kind = .RestorationCheck → r.payload.result = true →
      L.writes r)
    (state : d.job.state = .Restoring) : Drove L d (d.drive_restoring_locked context) := by
  have alive : d.job.state.is_terminal = false := by simp [state, JobState.is_terminal]
  unfold drive_restoring_locked
  simp only
  split
  · refine drove_idle ?_
    unfold request_release
    split
    · exact .refl _
    · exact .of_world_eq rfl id
  · split
    · split
      · split
        · exact drove_moved _ _ _ (quietly_quarantine _ _ _ _ _) rfl id (by simp)
            (may (.moved .Failed) trivial)
        · exact drove_touched (.refl _) ⟨_, rfl, .inl rfl⟩ alive (may .touched trivial)
      · exact drove_touched (.refl _) ⟨_, rfl, .inl rfl⟩ alive (may .touched trivial)
    · -- The verdict is recorded before the job leaves for a terminal state.
      have hq := quietly_record_restoration writes d.ctl d.job context
      split
      · exact drove_moved _ _ _ hq rfl id (by simp) (may (.moved .Failed) trivial)
      · next hfailed =>
        exact drove_moved _ _ _ hq rfl id (by simp)
          (may (.moved .Complete) ⟨state, by simpa using hfailed⟩)

theorem drove_state
    (writes : ∀ r : EvidenceRecord, r.key.kind = .RestorationCheck → r.payload.result = true →
      L.writes r) :
    Drove L d (d.drive_state context) := by
  unfold drive_state
  split
  · next h => exact drove_validated may h
  · next h => exact drove_prerequisites may h
  · next h => exact drove_ready may h
  · next h => exact drove_resuming may h
  · next h => exact drove_in_maintenance may h
  · next h => exact drove_verifying may h
  · next h => exact drove_restoring may writes h
  all_goals exact drove_idle (.refl _)

end Functions

end Drive

/-! ## The drive as a whole -/

/-- A drive and the commit of its job copy are changes under the drive's license. -/
theorem changes_drive_locked (c : Controller) (id : JobId) (context : PassContext)
    (actions : List DrainAction) :
    Changes (drive_license c id context) c.world (c.drive_locked id context actions).1.world := by
  unfold Controller.drive_locked
  split
  · exact Changes.refl _
  · next j hfind =>
    split
    · exact Changes.refl _
    · have hfind : c.world.jobs.find id = some j := hfind
      have hid : j.id = id := Table.key_of_find hfind
      have may : ∀ k, drive_may c j context k → (drive_license c id context).edits j.id k :=
        fun k hk => ⟨hid, j, hfind, hk⟩
      have hdrove := Drive.drove_state (d := { ctl := c, job := j, actions := some actions })
        may (fun _ hkind hresult => ⟨hkind, hresult⟩)
      simp only
      generalize Drive.drive_state { ctl := c, job := j, actions := some actions } context = out
        at hdrove ⊢
      -- What a drive does before its transition only adds evidence and quarantines.
      obtain ⟨mid, hquiet, ⟨hfalse, hw⟩ | ⟨htrue, k, edit, licensed, hauth, hcalm, hw⟩⟩ := hdrove
      · rw [hfalse]
        exact hquiet.changes.trans (Changes.of_eq hw)
      · rw [htrue, if_pos rfl]
        have hjobs : mid.world.jobs = c.world.jobs := hquiet.jobs
        have hstored : mid.world.jobs.find j.id = some j := by rw [hjobs, hid]; exact hfind
        have hjid : out.2.job.id = j.id := edit.id_eq
        refine hquiet.changes.trans ?_
        rcases hw with hw | ⟨hrec, hw, hover⟩
        · rw [← hw] at hstored ⊢
          exact Controller.changes_commit hstored edit licensed (hauth.imp_right .inl)
        · -- The release and the commit are one change, unless the commit fails.
          -- The authority is gone without the job moving on only where the journal failed.
          rcases Controller.commit_job_locked_cases out.2.ctl out.2.job context.now with
            ⟨e, he, hfail⟩ | ⟨_, j', hcore, hrec', hok⟩
          · rw [hfail, hw]
            refine Changes.single (.dropped hstored ?_)
            by_contra hno
            obtain ⟨hremoved, hfaultless⟩ := not_or.mp hno
            have hclean : ¬ (¬ c.Calm ∨ ¬ Recordable j) := fun hbad =>
              hfaultless ⟨j, hfind, Bool.of_not_eq_false hremoved, hbad⟩
            obtain ⟨hc, hj⟩ := not_or.mp hclean
            have hc : c.Calm := not_not.mp hc
            have hj : Recordable j := not_not.mp hj
            have hfound : out.2.ctl.world.jobs.find out.2.job.id = some j := by
              rw [hw, hjid]
              exact hstored
            have hok : (out.2.ctl.commit_job_locked out.2.job context.now).1 = ok_status :=
              Controller.commit_job_locked_ok (hcalm (hquiet.calm hc)) hfound (hrec hj)
            rw [he] at hok
            cases hok
          · rw [hok, hw]
            have ha : j'.authority = out.2.job.authority := congrArg Core.authority hcore
            have hs : j'.state = out.2.job.state := congrArg Core.state hcore
            have hr : j'.service_removed = out.2.job.service_removed :=
              congrArg Core.service_removed hcore
            refine Changes.single (.retired hstored (hcore ▸ edit) licensed (ha ▸ hauth) hrec' ?_)
            rw [hs, hr]
            exact hover

end MaintenanceFabric
