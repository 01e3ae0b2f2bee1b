import MaintenanceFabric.Runtime.Drives

/-! # Calls as changes

    Every call of the interface and every answer of the drain port, in the
    vocabulary of changes, with the license each of them needs.
-/

namespace MaintenanceFabric

open Lib

/-! ## Licenses -/

/-- What an interface call may do. -/
def call_license (c : Controller) (label : Label) : License where
  edits _ k := k = .touched ∨ k = .approved ∨ k = .rearmed ∨ k = .moved .Cancelled
  writes r := r.attempt.valid = true ∧ (c.world.jobs.find r.job).isSome = true ∧
    (r.refutes = true → label.refuting = some (r.job, r.attempt))
  observes r := ∃ e, label = .observe e ∧ r.key = e.key ∧ r.job = e.job ∧ r.attempt = e.attempt ∧
    r.payload = e.payload
  expires _ := False
  restarts := False
  faulty := False

/-- What an answer of the drain port may do: a request edits only the job whose attempt asked. -/
def outcome_license (c : Controller) (action : DrainAction)
    (response : DrainResponse) : License where
  edits i k :=
    k = .touched ∨
    k = .moved .Blocked ∧ i = action.job ∧ action.kind = .Request ∧
      Status.isOk response.status = false ∧
      ∃ j, c.world.jobs.find i = some j ∧ j.active_attempt = action.attempt
  writes r := r.key.kind = .DrainLeaseState ∧ action.kind = .Request ∧ r.attempt = action.attempt ∧
    r.job = action.job ∧ (c.world.jobs.find r.job).isSome = true
  observes _ := False
  expires _ := False
  restarts := False
  faulty := False

namespace Controller

variable {L : License}

/-- Committing an edit after a release that belongs to it. -/
theorem changes_commit_released {c c₁ : Controller} {j job : MaintenanceJob} {k : EditKind}
    {now : Nanos} (stored : c.world.jobs.find j.id = some j) (edit : Edit k j.core job.core)
    (licensed : L.edits j.id k)
    (authority : job.authority = j.authority ∨ job.authority = ⟨0⟩)
    (hw : c₁.world = c.world ∨
      c₁.world = { c.world with ledger := c.world.ledger.without j.authority } ∧
        j.service_removed = false ∧
        (job.state.is_terminal = true ∨ job.service_removed = false)) :
    Changes L c.world (c₁.commit_job_locked job now).2.world := by
  rcases hw with hw | ⟨hw, kept, spent⟩
  · rw [← hw]
    exact changes_commit (hw ▸ stored) edit licensed (authority.imp_right .inl)
  · rcases commit_job_locked_cases c₁ job now with ⟨e, _, hfail⟩ | ⟨_, j', hcore, hrec, hok⟩
    · rw [hfail, hw]
      exact Changes.single (.dropped stored (.inl kept))
    · have ha : j'.authority = job.authority := congrArg Core.authority hcore
      have hs : j'.state = job.state := congrArg Core.state hcore
      have hr : j'.service_removed = job.service_removed := congrArg Core.service_removed hcore
      rw [hok, hw]
      refine Changes.single (.retired stored (hcore ▸ edit) licensed (ha ▸ authority) hrec ?_)
      rw [hs, hr]
      exact spent

/-- The commit that follows a transition out of a stored job. -/
theorem changes_moved {c : Controller} {j : MaintenanceJob} {d d' : Drive} {to_state : JobState}
    {k : EditKind} {now : Nanos} (stored : c.world.jobs.find j.id = some j)
    (hctl : d.ctl = c) (hcore : d.job.core = j.core) (moved : Drive.Moved d to_state d')
    (kept : Drive.gives_back to_state j.service_removed = true → j.service_removed = false)
    (edit : ∀ a l, Edit k j.core { j.core.move to_state with authority := a, lease := l })
    (licensed : L.edits j.id k) :
    Changes L c.world (d'.ctl.commit_job_locked d'.job now).2.world := by
  obtain ⟨a, l, hcore', ha⟩ := moved.core
  have hauth : d.job.authority = j.authority := congrArg Core.authority hcore
  have hremoved : d.job.service_removed = j.service_removed := congrArg Core.service_removed hcore
  rw [hcore] at hcore'
  rw [hauth] at ha
  refine changes_commit_released stored (hcore' ▸ edit a l) licensed ?_ ?_
  · rw [show d'.job.authority = a from congrArg Core.authority hcore']
    exact ha
  · refine (hctl ▸ moved.world).imp_right (fun h => ?_)
    obtain ⟨hw, hg, -⟩ := h
    rw [hauth] at hw
    rw [hremoved] at hg
    refine ⟨hw, kept hg, ?_⟩
    rw [show d'.job.state = to_state from congrArg Core.state hcore',
      show d'.job.service_removed = (j.core.move to_state).service_removed from
        congrArg Core.service_removed hcore']
    exact Drive.gives_back_over hg

/-! ## Drain outcomes -/

/-- An edit that leaves the core alone but for the lease. -/
theorem changes_lease {c : Controller} {j job : MaintenanceJob} {now : Nanos}
    (stored : c.world.jobs.find j.id = some j) (alive : j.state.is_terminal = false)
    (lease : DrainLeaseId) (hcore : job.core = { j.core with lease })
    (touch : L.edits j.id .touched) :
    Changes L c.world (c.commit_job_locked job now).2.world := by
  refine changes_commit (k := .touched) stored ?_ touch (.inl (congrArg Core.authority hcore))
  rw [hcore]
  exact .touched j.authority lease alive

theorem changes_forget_lease (c : Controller) (lease : DrainLeaseId) (now : Nanos)
    (touch : ∀ i, L.edits i .touched) :
    Changes L c.world (c.forget_lease lease now).world := by
  unfold forget_lease
  split
  · exact Changes.refl _
  · next candidate hfind =>
    have hmem : candidate ∈ c.world.jobs.rows := List.mem_of_find?_eq_some hfind
    have halive : candidate.is_terminal = false := by
      have := List.find?_some hfind
      simp only [Bool.and_eq_true, Bool.not_eq_true'] at this
      exact this.2
    exact changes_lease (Table.find_iff_mem.mpr hmem) halive ⟨0⟩ rfl (touch _)

theorem changes_apply_failure {c : Controller} {j : MaintenanceJob} (e : Error) (now : Nanos)
    (stored : c.world.jobs.find j.id = some j) (alive : j.state.is_terminal = false)
    (touch : L.edits j.id .touched) (block : L.edits j.id (.moved .Blocked)) :
    Changes L c.world (c.apply_failure j e now).world := by
  unfold apply_failure
  simp only
  split
  · -- Too many failures: the job is blocked, unless it already is.
    rcases Drive.transition_cases
        { ctl := c
          job := { j with
            drain_failures := j.drain_failures + 1
            last_detail := text "drain request failed: " ++ format_error e } }
        .Blocked .DrainFailed (text "drain request failed: " ++ format_error e) now with
      hno | ⟨hallowed, _, hmoved⟩
    · rw [hno]
      exact changes_lease stored alive j.lease rfl touch
    · refine changes_moved stored rfl rfl hmoved ?_ ?_ block
      · intro hg
        simpa [Drive.gives_back, JobState.is_terminal] using hg
      · intro a l
        exact .moved .Blocked a l hallowed (by simp)
  · exact changes_lease stored alive j.lease rfl touch

theorem quietly_record_drain (c : Controller) (job : MaintenanceJob) (drained : Bool) (now : Nanos)
    (writes : ∀ r : EvidenceRecord, r.key.kind = .DrainLeaseState → r.job = job.id →
      r.attempt = job.active_attempt → L.writes r) :
    Quietly L c (c.record_drain job drained now) := by
  unfold record_drain
  apply Quietly.foldl
  intro c target
  apply quietly_author_evidence
  intro r hkey hjob hattempt _
  exact writes r (by rw [hkey]) hjob hattempt

theorem changes_apply_granted {c : Controller} {j : MaintenanceJob} (lease : DrainLease)
    (now : Nanos) (stored : c.world.jobs.find j.id = some j) (alive : j.state.is_terminal = false)
    (touch : L.edits j.id .touched)
    (writes : ∀ r : EvidenceRecord, r.key.kind = .DrainLeaseState → r.job = j.id →
      r.attempt = j.active_attempt → L.writes r) :
    Changes L c.world (c.apply_granted j lease now).world := by
  unfold apply_granted
  split
  · exact Changes.refl _
  · have hb := Store.books_commit_lease c.store lease
    split
    · next heq =>
      rw [heq] at hb
      exact Changes.of_eq (world_of_books hb)
    · next store heq =>
      rw [heq] at hb
      have hw : ({ c with store } : Controller).world = c.world := world_of_books hb
      simp only
      -- The evidence, if any, is written before the job learns its lease.
      have hquiet : ∀ c₁ : Controller, Quietly L { c with store } c₁ →
          Changes L c.world (c₁.commit_job_locked { j with
            lease := lease.id
            last_detail := text "drain lease " ++ lease.id.to_string ++
              text " granted in state " ++ lease.state.to_string } now).2.world := by
        intro c₁ hq
        rw [← hw]
        refine hq.changes.trans (changes_lease ?_ alive lease.id rfl touch)
        rw [hq.jobs, hw]
        exact stored
      split
      · exact hquiet _ (quietly_record_drain _ _ _ _ writes)
      · exact hquiet _ (.refl _)

theorem world_apply_stale (c : Controller) (response : DrainResponse) (lease : DrainLeaseId) :
    (c.apply_stale response lease).world = c.world := by
  unfold apply_stale
  split <;> rfl

/-- One answer of the drain port. -/
theorem changes_apply_outcome (c : Controller) (action : DrainAction) (response : DrainResponse)
    (now : Nanos) (alive : ∀ j, c.world.jobs.find action.job = some j →
      action.kind = .Request → c.drain_stale action = false → j.state.is_terminal = false) :
    Changes (outcome_license c action response) c.world
      (c.apply_outcome action response now).world := by
  unfold apply_outcome
  simp only
  generalize hc₁ : ({ c with drain_inflight := c.drain_inflight.filter (· ≠ action.job) } :
    Controller) = c₁
  have hw : c₁.world = c.world := by rw [← hc₁]; rfl
  have hstale : c₁.drain_stale action = c.drain_stale action := by rw [← hc₁]; rfl
  cases hkind : action.kind with
  | Release =>
    simp only [apply_release]
    split
    -- A settled release: the lease is erased first, then the jobs that name it forget it.
    · have hforget := changes_forget_lease
        ({ c₁ with
          queued_releases := c₁.queued_releases.filter (· ≠ action.lease)
          store := (c₁.store.commit_lease_erased
            (if response.lease.id.valid then response.lease.id else action.lease)).2 } : Controller)
        (if response.lease.id.valid then response.lease.id else action.lease) now
        (L := outcome_license c action response) (fun _ => .inl rfl)
      refine Changes.trans (Changes.of_eq ?_) hforget
      rw [← hw]
      exact world_of_books (c := { c₁ with
        queued_releases := c₁.queued_releases.filter (· ≠ action.lease) })
        (Store.books_commit_lease_erased _ _)
    · exact Changes.of_eq hw
  | Request =>
    simp only
    split
    -- A request whose attempt has passed changes no job: the lease is sent back.
    · exact Changes.of_eq ((world_apply_stale _ _ _).trans hw)
    · next hfresh =>
      have hfresh : c₁.drain_stale action = false := by simpa using hfresh
      split
      · exact Changes.of_eq hw
      · next j hfind =>
        have hfind : c.world.jobs.find action.job = some j := hfind
        have hid : j.id = action.job := Table.key_of_find hfind
        have stored : c₁.world.jobs.find j.id = some j := by rw [hw, hid]; exact hfind
        -- The action is not stale, so the job is still in the attempt that asked.
        have hattempt : j.active_attempt = action.attempt := by
          rw [hstale] at hfresh
          simp only [drain_stale] at hfresh
          rw [show c.store.state.jobs.find action.job = some j from hfind] at hfresh
          simpa using (Bool.or_eq_false_iff.mp hfresh).2
        have halive := alive j hfind hkind (hstale ▸ hfresh)
        rw [← hw]
        split
        · next e herr =>
          refine changes_apply_failure e now stored halive (.inl rfl)
            (.inr ⟨rfl, hid, hkind, ?_, ?_⟩)
          · simp [herr, Status.isOk]
          · exact ⟨j, by rw [hid]; exact hfind, hattempt⟩
        · refine changes_apply_granted response.lease now stored halive (.inl rfl) ?_
          intro r hrkind hjob hratt
          refine ⟨hrkind, hkind, by rw [hratt, hattempt], by rw [hjob, hid], ?_⟩
          rw [hjob, hid, hfind]
          rfl

/-! ## Operator calls -/

theorem world_set_topology (c : Controller) (topology : Topology) :
    (c.set_topology topology).2.world = c.world := by
  have hb := Store.books_commit_topology c.store topology
  unfold set_topology
  split
  · rfl
  · split
    · next heq =>
      rw [heq] at hb
      exact world_of_books hb
    · next heq =>
      rw [heq] at hb
      exact world_of_books hb

theorem world_set_policy (c : Controller) (policy : Policy) :
    (c.set_policy policy).2.world = c.world := by
  have hb := Store.books_commit_policy c.store policy
  unfold set_policy
  split
  · rfl
  · split
    · next heq =>
      rw [heq] at hb
      exact world_of_books hb
    · next heq =>
      rw [heq] at hb
      exact world_of_books hb

theorem world_clear_quarantine (c : Controller) (id : QuarantineId) (actor justification : Text)
    (now : Nanos) : (c.clear_quarantine id actor justification now).2.world = c.world := by
  unfold clear_quarantine
  split
  · rfl
  · exact world_of_books (Store.books_commit_quarantine _ _ _)

theorem changes_propose (c : Controller) (request : MaintenanceRequest) (actor : Text)
    (clock : Nanos) : Changes L c.world (c.propose request actor clock).2.world := by
  unfold propose
  split
  · exact Changes.refl _
  · simp only
    rcases Store.create_job_cases c.store (c.proposed_job request actor clock) with
      hb | ⟨id, hnone, hcheck, hb⟩
    · exact Changes.of_eq (world_of_books hb)
    · refine Changes.single ?_
      have hcreated := Change.created (L := L) (w := c.world)
        (j := clipped_job { c.proposed_job request actor clock with id, revision := ⟨1⟩ })
        hnone ?_ ?_
      · convert hcreated using 1
        simp [world, hb]
      · rw [core_clipped_job]
        exact ⟨rfl, rfl, rfl, rfl, rfl, rfl, rfl, rfl, rfl, rfl, rfl⟩
      · unfold Recordable
        rw [check_job_record_clipped]
        exact hcheck

theorem core_approved {j : MaintenanceJob} (c : Controller) (actor : Text) (entry_at : Nanos)
    (hstate : j.state = .Proposed) :
    (c.approved_job j actor entry_at).core = j.core.move .Validated := by
  unfold approved_job
  rw [core_push_history]
  simp [MaintenanceJob.core, Core.move, HistoryEntry.transition, hstate, JobState.is_terminal]

theorem changes_approve (c : Controller) (job : JobId) (actor : Text) (entry_at commit_at : Nanos)
    (licensed : ∀ i, L.edits i .approved) :
    Changes L c.world (c.approve job actor entry_at commit_at).2.world := by
  unfold approve
  split
  · exact Changes.refl _
  · next j hfind =>
    split
    · exact Changes.refl _
    · next hstate =>
      have hstate : j.state = .Proposed := not_not.mp hstate
      have hid : j.id = job := Table.key_of_find hfind
      have hcore := c.core_approved actor entry_at hstate
      refine changes_commit (j := j) (k := .approved) (hid ▸ hfind) ?_ (licensed _)
        (.inl (congrArg Core.authority hcore))
      rw [hcore]
      exact .approved hstate

/-- The copy a re-arm works on, once resources have been released. -/
theorem core_reentered (c : Controller) (j : MaintenanceJob) (actor : Text) (now : Nanos)
    (a : AuthorityId) (l : DrainLeaseId) :
    (c.reentered_job (rearmed_job { j with authority := a, lease := l } actor now) now).core =
      j.core.rearm a l := by
  unfold reentered_job
  rw [core_push_history]
  simp only [MaintenanceJob.core, Core.rearm, Core.move, HistoryEntry.transition, rearmed_job]
  cases j.state <;> simp [rearm_state]

theorem changes_rearm (c : Controller) (job : JobId) (actor : Text) (now : Nanos)
    (licensed : ∀ i, L.edits i .rearmed) :
    Changes L c.world (c.rearm job actor now).2.world := by
  unfold rearm
  split
  · exact Changes.refl _
  · next j hfind =>
    have hid : j.id = job := Table.key_of_find hfind
    have stored : c.world.jobs.find j.id = some j := by rw [hid]; exact hfind
    split
    · exact Changes.refl _
    · next hkept =>
      have hkept : j.service_removed = false := by simpa using hkept
      split
      · exact Changes.refl _
      · next halive =>
        have halive : j.state.is_terminal = false := by
          simpa [MaintenanceJob.is_terminal] using halive
        obtain ⟨a, l, hjob, ha, -, hw⟩ :=
          Drive.release_resources_spec { ctl := c, job := j, actions := some [] }
        simp only
        generalize Drive.release_resources_locked { ctl := c, job := j, actions := some [] } = d
          at hjob hw ⊢
        rw [hjob]
        have hw' : d.ctl.world = c.world ∨
            d.ctl.world = { c.world with ledger := c.world.ledger.without j.authority } :=
          hw.imp_right And.left
        split
        · next hlegal =>
          have hcore := c.core_reentered j actor now a l
          generalize c.reentered_job
            (rearmed_job { j with authority := a, lease := l } actor now) now
            = updated at hcore ⊢
          -- The release and the new stage reach the store as one change.
          have hchanges : Changes L c.world (d.ctl.commit_job_locked updated now).2.world := by
            refine changes_commit_released (j := j) (k := .rearmed) stored ?_ (licensed _) ?_ ?_
            · rw [hcore]
              exact .rearmed a l halive hkept hlegal
            · rw [show updated.authority = a from congrArg Core.authority hcore]
              exact ha
            · refine hw'.imp_right (fun h => ⟨h, hkept, .inr ?_⟩)
              refine (congrArg Core.service_removed hcore).trans ?_
              show (j.service_removed || rearm_state j.state == .InMaintenance) = false
              rw [hkept]
              cases j.state <;> rfl
          split
          · next heq =>
            rw [heq] at hchanges
            exact hchanges
          · next heq =>
            rw [heq] at hchanges
            exact hchanges
        · -- Refused after the release: the job stays, its reservation does not.
          rcases hw' with hw | hw
          · exact Changes.of_eq hw
          · show Changes L c.world d.ctl.world
            rw [hw]
            exact Changes.single (.dropped stored (.inl hkept))

theorem changes_cancel (c : Controller) (job : JobId) (actor reason : Text) (now : Nanos)
    (licensed : ∀ i, L.edits i (.moved .Cancelled)) :
    Changes L c.world (c.cancel job actor reason now).2.world := by
  unfold cancel
  split
  · exact Changes.refl _
  · next j hfind =>
    have hid : j.id = job := Table.key_of_find hfind
    have stored : c.world.jobs.find j.id = some j := by rw [hid]; exact hfind
    split
    · exact Changes.refl _
    · next hkept =>
      have hkept : j.service_removed = false := by simpa using hkept
      split
      · exact Changes.refl _
      · have hcases := Drive.transition_cases { ctl := c, job := j, actions := some [] } .Cancelled
          .None (text "cancelled by " ++ actor ++ text ": " ++ reason) now
        generalize Drive.transition_locked { ctl := c, job := j, actions := some [] } .Cancelled
          .None (text "cancelled by " ++ actor ++ text ": " ++ reason) now = out at hcases ⊢
        obtain ⟨moved, d⟩ := out
        -- A move that is not legal leaves the controller as it was.
        rcases hcases with hno | ⟨hallowed, htrue, hmoved⟩
        · cases hno
          exact Changes.refl _
        · cases htrue
          have hchanges : Changes L c.world (d.ctl.commit_job_locked d.job now).2.world :=
            changes_moved (k := .moved .Cancelled) stored rfl rfl hmoved (fun _ => hkept)
              (fun a l => .moved .Cancelled a l hallowed (by simp)) (licensed _)
          simp only
          split
          · next heq =>
            rw [heq] at hchanges
            exact hchanges
          · next heq =>
            rw [heq] at hchanges
            exact hchanges

/-! ## Reports -/

theorem completed_evidence_spec (c : Controller) (e : EvidenceRecord) :
    (c.completed_evidence e).1.key = e.key ∧ (c.completed_evidence e).1.job = e.job ∧
      (c.completed_evidence e).1.attempt = e.attempt ∧
      (c.completed_evidence e).1.payload = e.payload ∧
      (c.completed_evidence e).2.world = c.world := by
  unfold completed_evidence
  simp only
  split <;> split <;> split <;> exact ⟨rfl, rfl, rfl, rfl, rfl⟩

theorem changes_observe (c : Controller) (e : EvidenceRecord)
    (licensed : ∀ r : EvidenceRecord, r.key = e.key → r.job = e.job → r.attempt = e.attempt →
      r.payload = e.payload → L.observes r) : Changes L c.world (c.observe e).2.world := by
  obtain ⟨hkey, hjob, hattempt, hpayload, hw⟩ := c.completed_evidence_spec e
  unfold observe
  simp only
  generalize c.completed_evidence e = completed at hkey hjob hattempt hpayload hw ⊢
  rw [← hw]
  rcases Store.observe_evidence_cases completed.2.store completed.1 with
    ⟨_, _, hb, _⟩ | ⟨staging, hok, _, hb⟩
  · exact Changes.of_eq (world_of_books hb)
  · refine Changes.single ?_
    convert Change.observed (w := completed.2.world) (licensed _ hkey hjob hattempt hpayload) hok
      using 1
    simp [world, hb]

theorem check_token_ok {what : Text} {j : MaintenanceJob} {attempt : AttemptId} {u : Unit}
    (h : check_token what j attempt = .ok u) :
    attempt = j.active_attempt ∧ j.active_attempt.valid = true ∧
      attempt.generation = j.generation := by
  simp only [check_token, Result.bind_eq_ok, refuse_if_eq_ok] at h
  obtain ⟨_, hgen, hattempt⟩ := h
  simp only [Bool.or_eq_false_iff, Bool.not_eq_false', decide_eq_false_iff_not,
    not_not] at hgen hattempt
  exact ⟨hattempt.2, hattempt.1, hgen⟩

theorem quietly_record_completion (job : JobId) (attempt : AttemptId) (succeeded : Bool)
    (now : Nanos)
    (licensed : ∀ r : EvidenceRecord, r.key.kind = .MaintenanceCompletion → r.job = job →
      r.attempt = attempt → L.writes r) :
    ∀ (targets : List TargetId) (c : Controller),
      Quietly L c (record_completion job attempt succeeded now c targets).2
  | [], c => .refl c
  | target :: rest, c => by
      have hq : Quietly L c (c.author_evidence .MaintenanceCompletion target ⟨1⟩ now
          { result := succeeded, health := if succeeded then .Degraded else .Down }
            job attempt).2 :=
        quietly_author_evidence c _ _ _ _ _ _ _
          (fun r hkey hjob hattempt _ => licensed r (by rw [hkey]) hjob hattempt)
      unfold record_completion
      split
      · next heq =>
        rw [heq] at hq
        exact hq
      · next heq =>
        rw [heq] at hq
        exact hq.trans (quietly_record_completion job attempt succeeded now licensed rest _)

/-- The commit that ends a report. -/
theorem changes_reported {c c₁ : Controller} {j job : MaintenanceJob} {now : Nanos}
    (stored : c.world.jobs.find j.id = some j) (hq : Quietly L c c₁) (hcore : job.core = j.core)
    (alive : j.state.is_terminal = false) (touch : L.edits j.id .touched) :
    Changes L c.world (c₁.commit_job_locked job now).2.world := by
  refine hq.changes.trans (changes_lease ?_ alive j.lease hcore touch)
  rw [hq.jobs]
  exact stored

theorem changes_report_completion (c : Controller) (job : JobId) (attempt : AttemptId)
    (succeeded : Bool) (detail : Text) (now : Nanos) (touch : ∀ i, L.edits i .touched)
    (licensed : ∀ r : EvidenceRecord, r.attempt.valid = true →
      (c.world.jobs.find r.job).isSome = true → r.key.kind = .MaintenanceCompletion → L.writes r) :
    Changes L c.world (c.report_completion job attempt succeeded detail now).2.world := by
  unfold report_completion
  split
  · exact Changes.refl _
  · next j hfind =>
    have hid : j.id = job := Table.key_of_find hfind
    have stored : c.world.jobs.find j.id = some j := by rw [hid]; exact hfind
    split
    · exact Changes.refl _
    · next htoken =>
      obtain ⟨hattempt, hvalid, -⟩ := check_token_ok htoken
      split
      · exact Changes.refl _
      · next hstate =>
        have hstate : j.state = .InMaintenance := not_not.mp hstate
        have hq : Quietly L c (record_completion job attempt succeeded now c j.removal_set).2 := by
          apply quietly_record_completion
          intro r hkind hjob hr
          refine licensed r (by rw [hr, hattempt]; exact hvalid) ?_ hkind
          rw [hjob, ← hid, stored]
          rfl
        split
        · next heq =>
          rw [heq] at hq
          exact hq.changes
        · next heq =>
          rw [heq] at hq
          exact changes_reported stored hq rfl (by rw [hstate]; rfl) (touch _)

theorem changes_report_restoration (c : Controller) (job : JobId) (attempt : AttemptId)
    (target : TargetId) (restored : Bool) (detail : Text) (now : Nanos)
    (touch : ∀ i, L.edits i .touched)
    (licensed : ∀ r : EvidenceRecord, r.attempt.valid = true →
      (c.world.jobs.find r.job).isSome = true → r.job = job → r.attempt = attempt →
      r.payload.result = restored → L.writes r)
    (alive : ∀ j, c.world.jobs.find job = some j → j.active_attempt.valid = true →
      j.state.is_terminal = false) :
    Changes L c.world (c.report_restoration job attempt target restored detail now).2.world := by
  unfold report_restoration
  split
  · exact Changes.refl _
  · next j hfind =>
    have hid : j.id = job := Table.key_of_find hfind
    have stored : c.world.jobs.find j.id = some j := by rw [hid]; exact hfind
    split
    · exact Changes.refl _
    · next htoken =>
      -- The report is let through for the active attempt only, so the job is alive.
      obtain ⟨hattempt, hvalid, -⟩ := check_token_ok htoken
      split
      · exact Changes.refl _
      · have hq : Quietly L c (c.author_evidence .RestorationCheck target ⟨2⟩ now
            { result := restored, health := if restored then .Healthy else .Down } job
            attempt).2 := by
          apply quietly_author_evidence
          intro r _ hjob hr hpayload
          refine licensed r (by rw [hr, hattempt]; exact hvalid) ?_ hjob hr (by rw [hpayload])
          rw [hjob, ← hid, stored]
          rfl
        split
        · next heq =>
          rw [heq] at hq
          exact hq.changes
        · next heq =>
          rw [heq] at hq
          exact changes_reported stored hq rfl (alive j hfind hvalid) (touch _)

/-- Any call of the interface. A report must not find a terminal job with an attempt. -/
theorem changes_call (c : Controller) (label : Label) {c' : Controller} (h : c.call label = some c')
    (alive : ∀ i j, c.world.jobs.find i = some j → j.active_attempt.valid = true →
      j.state.is_terminal = false) :
    Changes (call_license c label) c.world c'.world := by
  have touch : ∀ i, (call_license c label).edits i .touched := fun _ => .inl rfl
  -- The cases are the calls in the order of `call`.
  unfold call at h
  split at h
  case h_1 => cases h; exact Changes.of_eq (world_set_topology _ _)
  case h_2 => cases h; exact Changes.of_eq (world_set_policy _ _)
  case h_3 => cases h; exact changes_propose _ _ _ _
  case h_4 => cases h; exact changes_approve _ _ _ _ _ (fun _ => .inr (.inl rfl))
  case h_5 => cases h; exact changes_rearm _ _ _ _ (fun _ => .inr (.inr (.inl rfl)))
  case h_6 => cases h; exact changes_cancel _ _ _ _ _ (fun _ => .inr (.inr (.inr rfl)))
  case h_7 =>
    cases h
    exact changes_observe _ _
      (fun r hkey hjob hattempt hpayload => ⟨_, rfl, hkey, hjob, hattempt, hpayload⟩)
  case h_8 =>
    cases h
    refine changes_report_completion _ _ _ _ _ _ touch ?_
    intro r hvalid hsome hkind
    refine ⟨hvalid, hsome, ?_⟩
    intro hrefutes
    simp [EvidenceRecord.refutes, hkind] at hrefutes
  case h_9 =>
    cases h
    refine changes_report_restoration _ _ _ _ _ _ _ touch ?_ (alive _)
    intro r hvalid hsome hjob hattempt hresult
    refine ⟨hvalid, hsome, ?_⟩
    intro hrefutes
    have hno : r.payload.result = false := by
      simp only [EvidenceRecord.refutes, Bool.and_eq_true, Bool.not_eq_true'] at hrefutes
      exact hrefutes.2
    rw [hno] at hresult
    rw [← hresult, hjob, hattempt]
    rfl
  case h_10 => cases h; exact Changes.of_eq (world_clear_quarantine _ _ _ _ _)
  case h_11 => cases h

end Controller

end MaintenanceFabric
