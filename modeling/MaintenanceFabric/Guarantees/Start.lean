import MaintenanceFabric.Engine.Gate
import MaintenanceFabric.Guarantees.Lifecycle
import Mathlib.Data.List.Induction

/-! # The start of maintenance

    A job enters `InMaintenance` in exactly one place, and only through the
    gate.  This module pins that place down: which step it is, what the step
    found, and what it leaves behind.
-/

namespace MaintenanceFabric

open Lib

/-! ## The step that starts a job -/

namespace Controller

/-- The end of a drive: a transition, and the commit if there was one. -/
theorem transition_then_commit (d : Drive) (to_state : JobState) (reason : BlockReason)
    (detail : Text) (now : Nanos) {c' : Controller}
    (hc' : c' = if (d.transition_locked to_state reason detail now).1 then
        ((d.transition_locked to_state reason detail now).2.ctl.commit_job_locked
          (d.transition_locked to_state reason detail now).2.job now).2
      else (d.transition_locked to_state reason detail now).2.ctl) :
    c'.world.jobs = d.ctl.world.jobs ∨
    ∃ j' a l, j'.core = { d.job.core.move to_state with authority := a, lease := l } ∧
      c'.world.jobs = d.ctl.world.jobs.put j' ∧
      (Drive.gives_back to_state d.job.service_removed = false →
        c'.world = { d.ctl.world with jobs := d.ctl.world.jobs.put j' }) := by
  rcases Drive.transition_cases d to_state reason detail now with hno | ⟨_, htrue, hmoved⟩
  · rw [hno] at hc'
    rw [hc']
    exact .inl rfl
  · rw [htrue, if_pos rfl] at hc'
    generalize (d.transition_locked to_state reason detail now).2 = d' at hmoved hc'
    have hjobs : d'.ctl.world.jobs = d.ctl.world.jobs := by
      rcases hmoved.world with hw | ⟨hw, _⟩ <;> rw [hw]
    rcases commit_job_locked_cases d'.ctl d'.job now with ⟨_, _, hfail⟩ | ⟨_, j', hcore, _, hok⟩
    · rw [hc', hfail]
      exact .inl hjobs
    · obtain ⟨a, l, hmove, _⟩ := hmoved.core
      refine .inr ⟨j', a, l, hcore.trans hmove, ?_, ?_⟩
      · rw [hc', hok, hjobs]
      · intro hkeeps
        rw [hc', hok]
        rcases hmoved.world with hw | ⟨_, hg, _⟩
        · rw [hw]
        · rw [hkeeps] at hg
          cases hg

/-- A drive of a job that is not over: its state's function, and the commit if that asks for one. -/
theorem drive_locked_eq {c : Controller} {id : JobId} (context : PassContext)
    (actions : List DrainAction) {j : MaintenanceJob} (hj : c.world.jobs.find id = some j)
    (halive : j.state.is_terminal = false) :
    (c.drive_locked id context actions).1 =
      let out := Drive.drive_state { ctl := c, job := j, actions := some actions } context
      if out.1 then (out.2.ctl.commit_job_locked out.2.job context.now).2 else out.2.ctl := by
  have halive : j.is_terminal = false := halive
  unfold drive_locked JobTable.find
  rw [show c.store.state.jobs.jobs.find id = some j from hj]
  simp only [halive, Bool.false_eq_true, if_false]

/-- The job a drive has started, and the state it was started from. -/
structure Started (c : Controller) (context : PassContext) (j j' : MaintenanceJob)
    (c' : Controller) : Prop where
  ready : j.state = .Ready
  gate : Gate (c.precondition_context j context.readiness true true context.now)
  core : ∃ a l, j'.core = { j.core.move .InMaintenance with authority := a, lease := l }
  world : c'.world = { c.world with jobs := c.world.jobs.put j' }

theorem drive_starts {c : Controller} (hc : c.world.Sound) {id : JobId} {context : PassContext}
    {actions : List DrainAction} {j j' : MaintenanceJob} (hj : c.world.jobs.find id = some j)
    (hbefore : j.service_removed = false)
    (hj' : (c.drive_locked id context actions).1.world.jobs.find id = some j')
    (hafter : j'.service_removed = true) :
    Started c context j j' (c.drive_locked id context actions).1 := by
  -- The license says what the drive must have found.
  have hmay : drive_may c j context (.moved .InMaintenance) := by
    rcases (changes_drive_locked c id context actions).removal hc hj' hafter with
      ⟨x, hx, hremoved⟩ | ⟨_, x, hx, hmay⟩
    · rw [hj] at hx
      cases hx
      rw [hbefore] at hremoved
      cases hremoved
    · rw [hj] at hx
      cases hx
      exact hmay
  obtain ⟨hready, hviolated, hpending⟩ := hmay
  have hid : j.id = id := Table.key_of_find hj
  -- Now the drive itself: of its branches only one enters `InMaintenance`.
  have hend : ∀ (d : Drive) (to_state : JobState) (reason : BlockReason) (detail : Text),
      d.ctl = c → d.job.core = j.core →
      (c.drive_locked id context actions).1 =
        (if (d.transition_locked to_state reason detail context.now).1 then
          ((d.transition_locked to_state reason detail context.now).2.ctl.commit_job_locked
            (d.transition_locked to_state reason detail context.now).2.job context.now).2
        else (d.transition_locked to_state reason detail context.now).2.ctl) →
      to_state = .InMaintenance ∧
      (∃ a l, j'.core = { j.core.move to_state with authority := a, lease := l }) ∧
      (Drive.gives_back to_state j.service_removed = false →
        (c.drive_locked id context actions).1.world =
          { c.world with jobs := c.world.jobs.put j' }) := by
    intro d to_state reason detail hctl hcore hdriven
    rcases transition_then_commit d to_state reason detail context.now hdriven with
      hsame | ⟨x, a, l, hx, hput, hworld⟩
    · rw [hsame, hctl, hj] at hj'
      cases hj'
      rw [hbefore] at hafter
      cases hafter
    · have hxid : x.id = id := by
        rw [← hid]
        exact (congrArg Core.id hx).trans (congrArg Core.id hcore)
      rw [hput, hctl, ← hxid, Table.find_put_self] at hj'
      cases hj'
      rw [hcore] at hx
      refine ⟨?_, ⟨a, l, hx⟩, ?_⟩
      · have hflag : j'.service_removed = (j.service_removed || to_state == .InMaintenance) :=
          congrArg Core.service_removed hx
        rw [hafter, hbefore, Bool.false_or] at hflag
        exact beq_iff_eq.mp hflag.symm
      · rw [show d.job.service_removed = j.service_removed from congrArg Core.service_removed hcore,
          hctl] at hworld
        exact hworld
  have hdriven := drive_locked_eq context actions hj (by rw [hready]; rfl)
  unfold Drive.drive_state at hdriven
  simp only [hready] at hdriven
  unfold Drive.drive_ready_locked at hdriven
  simp only [hviolated, hpending, gt_iff_lt, lt_self_iff_false, if_false] at hdriven
  split at hdriven
  · exact absurd (hend _ _ _ _ rfl rfl hdriven).1 (by decide)
  · obtain ⟨_, hcore, hworld⟩ := hend _ _ _ _ rfl rfl hdriven
    exact ⟨hready, gate_of_clean hviolated hpending, hcore, hworld rfl⟩

end Controller

namespace System

variable {s : System} {e : Event} {id : JobId} {j' : MaintenanceJob}

theorem step_drive_ctl {p : Pass} {j : MaintenanceJob} (hdriving : s.driving e = some (p, j)) :
    (s.step e).ctl = if s.up then
      ((under s.ctl e.verdicts).drive_locked j.id (p.context (under s.ctl e.verdicts)) p.actions).1
      else under s.ctl e.verdicts := by
  obtain ⟨label, pass, _, rest, remaining⟩ := driving_spec hdriving
  unfold step
  simp only [label, pass]
  split
  · unfold pass_step
    simp only [remaining]
  · rfl

/-- A job that has removed service after a step and had not before was started by that step,
    which was a drive of it. -/
theorem Sound.started (h : s.Sound) (hj' : (s.step e).job id = some j')
    (hafter : j'.service_removed = true)
    (hbefore : ∀ j, s.job id = some j → j.service_removed = false) :
    ∃ p j, s.driving e = some (p, j) ∧ s.job id = some j ∧
      Controller.Started (under s.ctl e.verdicts) (p.context (under s.ctl e.verdicts)) j j'
        (s.step e).ctl := by
  rcases (changes_step h e).removal h.world hj' hafter with ⟨j, hj, hremoved⟩ | hlicensed
  · rw [show j.service_removed = false from hbefore j hj] at hremoved
    cases hremoved
  · rcases license_edits hlicensed with ⟨p, j, hdriving, hj, _⟩ | hother
    · refine ⟨p, j, hdriving, hj, ?_⟩
      have hid : j.id = id := Table.key_of_find hj
      have hctl := step_drive_ctl hdriving
      rw [hid] at hctl
      by_cases up : s.up = true
      · rw [if_pos up] at hctl
        unfold System.job at hj'
        rw [hctl] at hj' ⊢
        exact Controller.drive_starts (c := under s.ctl e.verdicts) h.world hj
          (hbefore j hj) hj' hafter
      · rw [if_neg up] at hctl
        unfold System.job at hj'
        rw [hctl] at hj'
        rw [hbefore j' hj'] at hafter
        cases hafter
    · rcases hother with hk | hk | hk | hk | hk | hk <;> cases hk

/-- A job that enters `InMaintenance` serves until then, and the step starts it. -/
theorem Sound.entered_maintenance (h : s.Sound) (hj' : (s.step e).job id = some j')
    (hafter : j'.state = .InMaintenance)
    (hbefore : ∀ j, s.job id = some j → j.state ≠ .InMaintenance) :
    ∃ p j, s.driving e = some (p, j) ∧ s.job id = some j ∧ j.service_removed = false ∧
      Controller.Started (under s.ctl e.verdicts) (p.context (under s.ctl e.verdicts)) j j'
        (s.step e).ctl := by
  have hremoved : j'.service_removed = true := by
    have hfits := ((h.step e).world.job hj').fits
    rw [show j'.core.state = .InMaintenance from hafter] at hfits
    exact hfits
  -- Only a job that was ready can have been started, and such a job serves.
  have hkept : ∀ j, s.job id = some j → j.service_removed = false := by
    intro j hj
    rcases (changes_step h e).entered h.world hj' (by rw [hafter]; decide) with
      ⟨x, hx, hsame⟩ | ⟨k, hlicensed, henters⟩
    · exact absurd (hsame.trans hafter) (hbefore x hx)
    · rw [hafter] at henters
      rcases license_edits hlicensed with ⟨_, x, _, hx, hmay⟩ | hother
      · cases k <;> simp only [EditKind.enters, beq_iff_eq, reduceCtorEq] at henters
        · cases hmay
        · subst henters
          cases Option.some.inj (hj.symm.trans hx)
          have hfits : j.state.fits j.service_removed = true := (h.world.job hj).fits
          exact fits_kept hfits (by rw [hmay.1]; decide)
      · rcases hother with rfl | rfl | rfl | rfl | rfl | rfl <;> cases henters
  obtain ⟨p, j, hdriving, hj, started⟩ := h.started hj' hremoved hkept
  exact ⟨p, j, hdriving, hj, hkept j hj, started⟩

/-! ## The beginning of the pass -/

theorem evidence_expire_authority (store : Store) (now : Nanos) :
    (store.expire_authority now).state.evidence = store.state.evidence := by
  rcases Store.expire_authority_books store now with hb | hb
  · exact congrArg Books.evidence hb
  · exact congrArg Books.evidence hb

/-- The pass that holds the lock began earlier in the run, at the instant of its thread, and
    carries the evidence store of that moment. -/
theorem pass_began (events : List Event) {p : Pass} (hp : (initial.run events).pass = some p) :
    ∃ before e after t, events = before ++ e :: after ∧ e.label = .begin_pass p.thread ∧
      (initial.run before).threads.find p.thread = some t ∧ t.now = p.now ∧
      (initial.run before).ctl.store.state.evidence = p.evidence := by
  induction events using List.reverseRecOn generalizing p with
  | nil => cases hp
  | append_singleton events e ih =>
    rw [run_snoc] at hp
    have hdid := (initial.run events).step_did e
    generalize (initial.run events).step e = s' at hdid hp
    -- A pass that was already there carries its origin along.
    have hearlier : ∀ q, (initial.run events).pass = some q → q.thread = p.thread →
        q.now = p.now → q.evidence = p.evidence →
        ∃ before e' after t, events ++ [e] = before ++ e' :: after ∧
          e'.label = .begin_pass p.thread ∧ (initial.run before).threads.find p.thread = some t ∧
          t.now = p.now ∧ (initial.run before).ctl.store.state.evidence = p.evidence := by
      intro q hq hthread hnow hevidence
      obtain ⟨before, e', after, t, hsplit, hlabel, hfind, ht, hev⟩ := ih hq
      rw [hthread] at hlabel hfind
      refine ⟨before, e', after ++ [e], t, ?_, hlabel, hfind, ht.trans hnow, hev.trans hevidence⟩
      rw [hsplit, List.append_assoc, List.cons_append]
    cases hdid with
    | nothing => exact hearlier p hp rfl rfl rfl
    | restarted _ => cases hp
    | drove _ _ pass _ =>
      cases hp
      exact hearlier _ pass rfl rfl rfl
    | closed _ _ _ _ => cases hp
    | @began thread t label _ _ found _ =>
      cases hp
      have hev := evidence_expire_authority (under (initial.run events).ctl e.verdicts).store t.now
      exact ⟨events, e, [], t, rfl, label, found, rfl, hev.symm⟩
    | ticked _ _ pass _ => exact hearlier p hp rfl rfl rfl
    | marked _ _ pass _ _ => exact hearlier p hp rfl rfl rfl
    | answered _ _ pass _ _ => exact hearlier p hp rfl rfl rfl
    | finished _ _ pass _ _ => exact hearlier p hp rfl rfl rfl
    | called _ pass _ => exact hearlier p hp rfl rfl rfl

/-! ## The gate -/

/-- A record under one of the scanned keys that is fresh now and positive. -/
def Attested (evidence : EvidenceStore) (kind : EvidenceKind) (subject : EvidenceSubject)
    (current : ControllerIncarnation) (now : Nanos) (bound : EvidenceRecord → Prop) : Prop :=
  ∃ (source : SourceId) (r : EvidenceRecord), 1 ≤ source.value ∧ source.value ≤ 16 ∧
    evidence.find { kind, subject, source } = some r ∧
    (evidence.evaluate { key := { kind, subject, source }, current, now }).fresh = true ∧
    r.payload.result = true ∧ bound r

/-- What the state a start was decided in must look like. -/
structure ClearedToStart (s : System) (p : Pass) (j : MaintenanceJob) : Prop where
  authority : ∃ r ∈ s.ctl.store.state.ledger.reservations.rows, r.job = j.id ∧
    r.generation = j.generation ∧ r.live_at p.now = true ∧ r.attempt = j.active_attempt ∧
    ∀ t ∈ j.removal_set, t ∈ r.targets
  scope : j.removal_set ≠ []
  health : ∀ t ∈ j.removal_set, s.ctl.policy.min_evidence_sources ≤
    (p.evidence.fresh_sources .TargetHealth (EvidenceSubject.of t) s.ctl.incarnation p.now).length
  dependencies : ∀ d ∈ j.depends_on, ∃ other, s.job d = some other ∧ other.state = .Complete
  window : (evaluate_window s.ctl.policy.windows j.targets p.now
    s.ctl.policy.require_window).allows_start = true
  quorum : (∃ t ∈ j.removal_set, t.kind = .ControlPlane) →
    Attested s.ctl.store.state.evidence .ControlPlaneQuorum { kind := .Global } s.ctl.incarnation
      p.now (fun _ => True)
  drain : j.requires_drain = true → j.lease.valid = true ∧ ∀ t ∈ j.removal_set,
    Attested s.ctl.store.state.evidence .DrainLeaseState (EvidenceSubject.of t) s.ctl.incarnation
      p.now (fun r => (r.job.valid = true → r.job = j.id) ∧
        (r.attempt.valid = true → r.attempt = j.active_attempt))
  other_jobs : ∀ id o, s.job id = some o → id ≠ j.id → o.state.stage_removes_service = true →
    ∀ t ∈ o.removal_set, t ∉ j.removal_set
  other_reservations : ∀ r ∈ s.ctl.store.state.ledger.reservations.rows, r.job ≠ j.id →
    r.live_at p.now = true → ∀ t ∈ r.targets, t ∉ j.removal_set
  declared : ∀ t ∈ j.targets, ∃ r, s.ctl.topology.target t = some r ∧ r.maintainable = true

theorem scanned_source {source : SourceId} (h : source ∈ PreconditionContext.scanned_sources) :
    1 ≤ source.value ∧ source.value ≤ 16 := by
  simp only [PreconditionContext.scanned_sources, List.mem_map, List.mem_range] at h
  obtain ⟨i, hi, rfl⟩ := h
  have hi : i < 16 := hi
  exact ⟨Nat.le_add_left 1 i, hi⟩

theorem find_for_job_spec {l : AuthorityLedger} {job : JobId} {generation : GenerationId}
    {r : AuthorityReservation} (h : l.find_for_job job generation = some r) :
    r ∈ l.reservations.rows ∧ r.job = job ∧ r.generation = generation := by
  have hp := List.find?_some h
  simp only [decide_eq_true_eq] at hp
  exact ⟨List.mem_of_find?_eq_some h, hp.1, hp.2⟩

/-- A reservation of a job's own generation is for exactly the job's scope. -/
theorem Sound.held_scope (h : s.Sound) {j : MaintenanceJob} (hj : s.job id = some j)
    {r : AuthorityReservation} (hr : r ∈ s.ctl.store.state.ledger.reservations.rows)
    (hjob : r.job = j.id) (hgen : r.generation = j.generation) (t : TargetId) :
    t ∈ r.targets ↔ t ∈ j.removal_set := by
  obtain ⟨_, _, _, k, hk, _, _, hscope⟩ := h.world.holds r hr
  have hid : j.id = id := Table.key_of_find hj
  have hkj : k = j := by
    rw [hjob] at hk
    exact Option.some.inj (hk.symm.trans (hid ▸ hj))
  subst hkj
  exact hscope hgen t

/-- The gate of the engine, read in terms of the system. -/
theorem Sound.cleared (h : s.Sound) {p : Pass} {j : MaintenanceJob} (hj : s.job id = some j)
    {verdicts : List (Option JournalFault)}
    (gate : Gate ((under s.ctl verdicts).precondition_context j
      (p.context (under s.ctl verdicts)).readiness true true p.now)) : ClearedToStart s p j := by
  obtain ⟨r, hfind, hlive, hattempt⟩ := gate.authority
  obtain ⟨hmem, hrjob, hrgen⟩ := find_for_job_spec hfind
  obtain ⟨hvalid, hne, _⟩ := h.world.holds r hmem
  -- The reservation is held for the scope of the job, not for a larger or smaller one.
  have hcover : ∀ t, t ∈ r.targets ↔ t ∈ j.removal_set := h.held_scope hj hmem hrjob hrgen
  have hjid : j.id.valid = true :=
    (check_job_record_valid (h.world.jobs j (Table.mem_of_find hj)).2).1
  refine ⟨?_, ?_, ?_, gate.dependencies, gate.window, ?_, ?_, ?_, gate.reservations, gate.declared⟩
  · exact ⟨r, hmem, hrjob, hrgen, hlive, hattempt, fun t ht => (hcover t).mpr ht⟩
  · intro hempty
    obtain ⟨t, ht⟩ := List.exists_mem_of_ne_nil _ hne
    have := (hcover t).mp ht
    rw [hempty] at this
    cases this
  · intro t ht
    exact (ReadinessView.is_fresh_build.mp (gate.evidence t ht)).2
  · intro hcp
    obtain ⟨source, hsource, record, hfind, hfresh, hresult⟩ := gate.quorum hcp
    obtain ⟨h1, h16⟩ := scanned_source hsource
    exact ⟨source, record, h1, h16, hfind, hfresh, hresult, trivial⟩
  · intro hdrain
    obtain ⟨hlease, htargets⟩ := gate.drain hdrain
    refine ⟨hlease, ?_⟩
    intro t ht
    obtain ⟨source, hsource, record, hrecord, hfresh, hresult⟩ := htargets t ht
    obtain ⟨h1, h16⟩ := scanned_source hsource
    rw [EvidenceStore.evaluate_fresh hrecord, EvidenceStore.judge_fresh] at hfresh
    refine ⟨source, record, h1, h16, hrecord, ?_, hresult, hfresh.1 hjid, ?_⟩
    · have hkey : s.ctl.store.state.evidence.find
          { kind := .DrainLeaseState, subject := EvidenceSubject.of t, source } = some record :=
            hrecord
      rw [EvidenceStore.evaluate_fresh hkey, EvidenceStore.judge_fresh]
      exact ⟨fun hq => (by cases hq), fun hq => (by cases hq), hfresh.2.2⟩
    · exact hfresh.2.1 (by rw [← hattempt]; exact hvalid)
  · intro i o ho hne hstage t ht
    have hoid : o.id = i := Table.key_of_find ho
    refine gate.jobs o (Table.mem_of_find ho) (by rw [hoid]; exact hne) ?_ t ht
    unfold PreconditionContext.committed
    rw [hstage, Bool.true_or]

/-- Every start in every run has come through the gate. -/
theorem start_gate (events : List Event) (e : Event) (id : JobId) (j' : MaintenanceJob)
    (hj' : (initial.run (events ++ [e])).job id = some j') (hafter : j'.state = .InMaintenance)
    (hbefore : ∀ j, (initial.run events).job id = some j → j.state ≠ .InMaintenance) :
    ∃ p j, (initial.run events).pass = some p ∧ (initial.run events).job id = some j ∧
      j.state = .Ready ∧ j'.removal_set = j.removal_set ∧ j'.generation = j.generation ∧
      j'.active_attempt = j.active_attempt ∧
      ClearedToStart (initial.run events) p j ∧
      ∃ before b after t, events = before ++ b :: after ∧ b.label = .begin_pass p.thread ∧
        (initial.run before).threads.find p.thread = some t ∧ t.now = p.now ∧
        (initial.run before).ctl.store.state.evidence = p.evidence := by
  have hs := sound_run events
  rw [run_snoc] at hj'
  generalize hrun : initial.run events = s at *
  obtain ⟨p, j, hdriving, hj, _, started⟩ := hs.entered_maintenance hj' hafter hbefore
  obtain ⟨_, pass, _, _⟩ := driving_spec hdriving
  obtain ⟨a, l, hcore⟩ := started.core
  have hbegan := pass_began events (hrun.symm ▸ pass)
  exact ⟨p, j, pass, hj, started.ready, congrArg Core.removal_set hcore,
    congrArg Core.generation hcore, congrArg Core.active_attempt hcore,
    hs.cleared hj started.gate, hbegan⟩

theorem start_gate_drill :
    ∃ p j, (initial.run Drill.ready).pass = some p ∧ (initial.run Drill.ready).job ⟨1⟩ = some j ∧
      ClearedToStart (initial.run Drill.ready) p j := by
  obtain ⟨j', hj', hafter⟩ := job_of_field
    (initial.run (Drill.ready ++ [Drill.call .pass_step])) ⟨1⟩
    MaintenanceJob.state (a := .InMaintenance) (by decide +kernel)
  obtain ⟨j, hj, hready⟩ := job_of_field (initial.run Drill.ready) ⟨1⟩
    MaintenanceJob.state (a := .Ready) (by decide +kernel)
  obtain ⟨p, j₁, hp, hj₁, _, _, _, _, hcleared, _⟩ :=
    start_gate Drill.ready (Drill.call .pass_step) ⟨1⟩ j' hj' hafter (by
      intro x hx
      rw [hj] at hx
      cases hx
      rw [hready]
      decide)
  exact ⟨p, j₁, hp, hj₁, hcleared⟩

end System

end MaintenanceFabric
