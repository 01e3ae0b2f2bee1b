import MaintenanceFabric.Guarantees.Start

/-! # Confirmations and the attempts they belong to

    A job leaves maintenance on completion records, and a job that needs a
    drain enters it on drain records.  Both are looked up with the job and its
    active attempt, but the lookup compares a binding only where the record has
    one: a record without job or attempt confirms everybody's.  As long as
    nobody hands in such a record, every confirmation is the job's own.
-/

namespace MaintenanceFabric

open Lib

/-- The kinds of evidence that confirm something about one attempt. -/
def EvidenceKind.confirms (k : EvidenceKind) : Bool :=
  k == .MaintenanceCompletion || k == .DrainLeaseState

/-- The record names a job and an attempt. -/
def EvidenceRecord.Tied (r : EvidenceRecord) : Prop := r.job.valid = true ∧ r.attempt.valid = true

instance (r : EvidenceRecord) : Decidable r.Tied := inferInstanceAs (Decidable (_ ∧ _))

/-! ## Stored confirmations -/

/-- Every stored confirmation names its job and attempt. -/
def World.Tied (w : World) : Prop :=
  ∀ key r, w.evidence.find key = some r → r.key.kind.confirms = true → r.Tied

section Changes

variable {L : License} {w w' : World}

theorem World.Tied.observe (h : w.Tied) {r : EvidenceRecord} {evidence : EvidenceStore}
    (hr : r.key.kind.confirms = true → r.Tied) (accepted : w.evidence.observe r = .ok evidence) :
    ({ w with evidence } : World).Tied := by
  obtain ⟨_, _, _, _, hfind⟩ := EvidenceStore.observe_ok accepted
  intro key x hx hkind
  rcases hfind key x hx with ⟨_, rfl⟩ | ⟨_, hold⟩
  · exact hr hkind
  · exact h key x hold hkind

theorem World.Tied.change (h : w.Tied) (hchange : Change L w w')
    (hwrites : ∀ r, L.writes r → r.key.kind.confirms = true → r.Tied)
    (hobserves : ∀ r, L.observes r → r.key.kind.confirms = true → r.Tied) : w'.Tied := by
  cases hchange with
  | authored _ licensed answered =>
    cases answered with
    | accepted hok => exact h.observe (hwrites _ licensed) hok
    | refused _ => exact h
  | observed licensed accepted => exact h.observe (hobserves _ licensed) accepted
  | _ => exact h

/-- A job stays in maintenance, or in restoration, under one attempt and with one scope, and none
    gets there but by the edit that moves it there. -/
theorem Edit.stays {k : EditKind} {c c' : Core} (h : Edit k c c') {state : JobState}
    (hstage : state = .InMaintenance ∨ state = .Restoring) (hk : k ≠ .moved state)
    (hstate : c'.state = state) :
    c.state = state ∧ c'.active_attempt = c.active_attempt ∧ c'.removal_set = c.removal_set := by
  -- Neither stage is one that these edits lead out of, or into.
  have hother : state ≠ .Proposed ∧ state ≠ .Validated ∧ state ≠ .Prerequisites ∧
      state ≠ .Blocked ∧ state ≠ .Verifying := by
    rcases hstage with rfl | rfl <;> decide
  rcases h.enters with hsame | henters
  · rw [hstate] at hsame
    cases h with
    | touched _ _ _ => exact ⟨hsame.symm, rfl, rfl⟩
    | minted at_ _ => exact absurd (hsame.trans at_) hother.2.2.1
    | approved at_ => exact absurd (hsame.trans at_) hother.1
    | rearmed _ _ _ _ _ =>
      exfalso
      have hto : Controller.rearm_state c.state = state := hstate
      unfold Controller.rearm_state at hto
      split at hto
      · exact hother.2.1 hto.symm
      · exact hother.2.2.1 hto.symm
    | expanded _ _ _ at_ => exact absurd (hsame.trans at_) hother.2.1
    | moved to_state _ _ _ _ =>
      have hto : to_state = state := hstate
      exact absurd (hto ▸ rfl) hk
    | confirmed _ _ _ _ => exact absurd hstate.symm hother.2.2.2.2
    | resumed _ _ at_ _ => exact absurd (hsame.trans at_) hother.2.2.2.1
    | reconciled _ _ _ _ =>
      exfalso
      unfold Core.reconcile at hstate
      simp only at hstate
      split at hstate
      · next hblocked => exact hother.2.2.2.1 (hsame.trans hblocked)
      · exact hother.2.2.2.1 hstate.symm
  · rw [hstate] at henters
    cases k with
    | moved to_state =>
      have hto : state = to_state := beq_iff_eq.mp henters
      exact absurd (hto ▸ rfl) hk
    | approved => exact absurd (beq_iff_eq.mp henters) hother.2.1
    | rearmed =>
      exfalso
      rcases hstage with rfl | rfl <;> cases henters
    | expanded => exact absurd (beq_iff_eq.mp henters) hother.2.2.1
    | confirmed _ => exact absurd (beq_iff_eq.mp henters) hother.2.2.2.2
    | resumed => exact absurd (beq_iff_eq.mp henters) hother.2.2.2.2
    | reconciled => exact absurd (beq_iff_eq.mp henters) hother.2.2.2.1
    | _ => cases henters

end Changes

/-- What the scan for a completion record has found. -/
theorem Controller.completion_for_spec {c : Controller} {j : MaintenanceJob} {now : Nanos}
    {t : TargetId} {result : Bool} (h : c.completion_for j now t = some result) :
    ∃ source r, c.store.state.evidence.find
        { kind := .MaintenanceCompletion, subject := EvidenceSubject.of t, source } = some r ∧
      (c.store.state.evidence.evaluate
        { key := { kind := .MaintenanceCompletion, subject := EvidenceSubject.of t, source }
          current := c.incarnation, now, job := j.id, attempt := j.active_attempt }).fresh = true ∧
      r.payload.result = result := by
  obtain ⟨source, _, hsource⟩ := List.exists_of_findSome?_eq_some h
  simp only at hsource
  split at hsource
  · cases hsource
  · next r hfind =>
    split at hsource
    · next hfresh => exact ⟨source, r, hfind, hfresh, Option.some.inj hsource⟩
    · cases hsource

namespace System

variable {s : System} {e : Event}

/-- A confirmation that is handed in names its job and attempt. -/
def Tying (_ : System) (e : Event) : Prop :=
  ∀ record ∈ e.observed, record.key.kind.confirms = true → record.Tied

instance (s : System) (e : Event) : Decidable (Tying s e) :=
  inferInstanceAs (Decidable (∀ record ∈ e.observed, _))

/-- What the controller writes itself names its job and attempt. -/
theorem Sound.license_writes_tied (h : s.Sound) {r : EvidenceRecord}
    (hwrites : (s.license e).writes r)
    (hkind : r.key.kind.confirms = true) : r.Tied := by
  have hlicensed := s.licensed e
  generalize s.license e = L at hwrites hlicensed
  -- A job that exists has a valid identity.
  have hvalid : (s.ctl.world.jobs.find r.job).isSome = true → r.job.valid = true := by
    intro hsome
    obtain ⟨j, hj⟩ := Option.isSome_iff_exists.mp hsome
    rw [← show j.id = r.job from Table.key_of_find hj]
    exact (check_job_record_valid (h.world.jobs j (Table.mem_of_find hj)).2).1
  cases hlicensed with
  | drive _ _ _ =>
    rw [show r.key.kind = .RestorationCheck from hwrites.1] at hkind
    cases hkind
  | outcome _ found actions =>
    obtain ⟨_, hrequest, hattempt, _, hsome⟩ := hwrites
    refine ⟨hvalid hsome, ?_⟩
    rw [hattempt]
    exact h.threads _ (Table.mem_of_find found) _ (actions ▸ List.mem_cons_self) hrequest
  | call => exact ⟨hvalid hwrites.2.1, hwrites.1⟩
  | _ => exact hwrites.elim

theorem Sound.tied_step (h : s.Sound) (htied : s.ctl.world.Tied) (hcond : Tying s e) :
    (s.step e).ctl.world.Tied := by
  refine (changes_step h e).preserves (P := World.Tied) ?_ htied
  intro a b ha hchange
  refine ha.change hchange (fun r hr hkind => h.license_writes_tied hr hkind) ?_
  intro r hr hkind
  obtain ⟨record, hrecord, hkey, hjob, hattempt, _⟩ := license_observes hr
  rw [hkey] at hkind
  obtain ⟨hj, ha⟩ := hcond record hrecord hkind
  exact ⟨hjob ▸ hj, hattempt ▸ ha⟩

/-- A job in maintenance has an active attempt. -/
def Armed (s : System) : Prop :=
  ∀ id j, s.job id = some j → j.state = .InMaintenance → j.active_attempt.valid = true

theorem Sound.armed_step (h : s.Sound) (harmed : s.Armed) (e : Event) : (s.step e).Armed := by
  intro id j' hj' hstate
  by_cases hlic : (s.license e).edits id (.moved .InMaintenance)
  · -- The step has started the job, on a reservation for its attempt.
    rcases license_edits hlic with ⟨p, j, _, hj, hready, _⟩ | hother
    · have hkept : ∀ x, s.job id = some x → x.service_removed = false := by
        intro x hx
        cases Option.some.inj (hj.symm.trans hx)
        have hfits : j.state.fits j.service_removed = true := (h.world.job hj).fits
        exact fits_kept hfits (by rw [hready]; decide)
      have hremoved : j'.service_removed = true := by
        have hfits : j'.state.fits j'.service_removed = true := ((h.step e).world.job hj').fits
        rw [hstate] at hfits
        exact hfits
      obtain ⟨p, j, _, hj, started⟩ := h.started hj' hremoved hkept
      obtain ⟨a, l, hcore⟩ := started.core
      obtain ⟨r, hfind, _, hattempt⟩ := started.gate.authority
      obtain ⟨hmem, _, _⟩ := find_for_job_spec hfind
      rw [show j'.active_attempt = j.active_attempt from congrArg Core.active_attempt hcore]
      have hvalid := (h.world.holds r hmem).attempt
      rw [hattempt] at hvalid
      exact hvalid
    · simp at hother
  -- The job was in maintenance before the step: no edit touches its attempt there.
  · have horigin := (changes_step h e).origin
      (R := fun c c' => c'.state = .InMaintenance → c.state = .InMaintenance ∧
        c'.active_attempt = c.active_attempt)
      (fun _ hs => ⟨hs, rfl⟩)
      (fun hab hbc hs => ⟨(hab (hbc hs).1).1, (hbc hs).2.trans (hab (hbc hs).1).2⟩)
      (fun hedits _ edit hs =>
        have hstays := edit.stays (.inl rfl) (fun hk => hlic (hk ▸ hedits)) hs
        ⟨hstays.1, hstays.2.1⟩)
      h.world hj'
    rcases horigin with ⟨j, hj, hsame⟩ | ⟨_, c, hfresh, hsame⟩
    · obtain ⟨hbefore, hattempt⟩ := hsame hstate
      rw [show j'.active_attempt = j.active_attempt from hattempt]
      exact harmed id j hj hbefore
    · rw [hfresh.1] at hsame
      cases (hsame hstate).1

theorem armed_run (events : List Event) : (initial.run events).Armed := by
  have hboth : (initial.run events).Sound ∧ (initial.run events).Armed := by
    refine run_invariant (I := fun s : System => s.Sound ∧ s.Armed) ?_ events ⟨sound_initial, ?_⟩
    · intro s e hs
      exact ⟨hs.1.step e, hs.1.armed_step hs.2 e⟩
    · intro id j hj
      cases hj
  exact hboth.2

/-! ## Confirmations of one's own -/

/-- A fresh record about the target, bound to exactly this job and its active attempt. -/
structure Confirms (s : System) (kind : EvidenceKind) (j : MaintenanceJob) (now : Nanos)
    (t : TargetId) (r : EvidenceRecord) : Prop where
  stored : ∃ source, s.ctl.store.state.evidence.find
    { kind, subject := EvidenceSubject.of t, source } = some r
  current : EvidenceStore.Current r s.ctl.incarnation now
  job : r.job = j.id
  attempt : r.attempt = j.active_attempt

/-- A fresh answer to a query for a job and a valid attempt is the job's own, if it is tied. -/
theorem confirms_of_fresh {kind : EvidenceKind} {j : MaintenanceJob} {now : Nanos} {t : TargetId}
    {source : SourceId} {r : EvidenceRecord} (htied : s.ctl.world.Tied) (hid : j.id.valid = true)
    (hattempt : j.active_attempt.valid = true) (hkind : kind.confirms = true)
    (hfind : s.ctl.store.state.evidence.find { kind, subject := EvidenceSubject.of t, source } =
      some r)
    (hfresh : (s.ctl.store.state.evidence.evaluate
      { key := { kind, subject := EvidenceSubject.of t, source }, current := s.ctl.incarnation, now
        job := j.id, attempt := j.active_attempt }).fresh = true) : Confirms s kind j now t r := by
  rw [EvidenceStore.evaluate_fresh hfind] at hfresh
  obtain ⟨hjob, hatt, hcurrent⟩ := EvidenceStore.judge_fresh.mp hfresh
  have hkey : r.key = { kind, subject := EvidenceSubject.of t, source } := Table.key_of_find hfind
  obtain ⟨hrjob, hratt⟩ := htied _ r hfind (by rw [hkey]; exact hkind)
  exact ⟨⟨source, hfind⟩, hcurrent, hjob hid hrjob, hatt hattempt hratt⟩

/-- A job that has gone from maintenance to verification was driven there on completion records
    for its whole scope. -/
theorem Sound.verification_entered (h : s.Sound) {id : JobId} {j j' : MaintenanceJob}
    (hj : s.job id = some j) (hstate : j.state = .InMaintenance)
    (hj' : (s.step e).job id = some j') (hstate' : j'.state = .Verifying) :
    ∃ p failed, s.driving e = some (p, j) ∧
      (under s.ctl e.verdicts).completion_confirmed_locked j p.now = (true, failed) := by
  have hnew : j'.state ≠ .Proposed := by
    rw [hstate']
    decide
  rcases (changes_step h e).entered h.world hj' hnew with ⟨x, hx, hsame⟩ | ⟨k, hlic, henters⟩
  · cases Option.some.inj (hj.symm.trans hx)
    rw [hstate, hstate'] at hsame
    cases hsame
  · rw [hstate'] at henters
    rcases license_edits hlic with ⟨p, x, hdriving, hx, hmay⟩ | hother
    · cases Option.some.inj (hj.symm.trans hx)
      cases k with
      | confirmed failed => exact ⟨p, failed, hdriving, hmay.2⟩
      | resumed =>
        have hblocked : j.state = .Blocked := hmay
        rw [hstate] at hblocked
        cases hblocked
      | moved to_state =>
        have hto : JobState.Verifying = to_state := beq_iff_eq.mp henters
        subst hto
        exact hmay.elim
      | _ => cases henters
    · rcases hother with rfl | rfl | rfl | rfl | rfl | rfl <;> cases henters

theorem tied_run {events : List Event} (hcond : Along step Tying initial events) :
    (initial.run events).ctl.world.Tied := by
  have hboth : (initial.run events).Sound ∧ (initial.run events).ctl.world.Tied := by
    refine hcond.invariant (I := fun s => s.Sound ∧ s.ctl.world.Tied) ?_ ⟨sound_initial, ?_⟩
    · intro s e hc hs
      exact ⟨hs.1.step e, hs.1.tied_step hs.2 hc⟩
    · intro key r hr
      cases hr
  exact hboth.2

theorem Sound.valid_id (h : s.Sound) {id : JobId} {j : MaintenanceJob} (hj : s.job id = some j) :
    j.id.valid = true :=
  (check_job_record_valid (h.world.jobs j (Table.mem_of_find hj)).2).1

/-- Along a run in which every confirmation handed in names its job and attempt, maintenance ends
    on completion records of the job's own attempt, and a job that needs a drain starts on drain
    records of its own attempt. -/
theorem confirmations_attempt_bound (events : List Event) (e : Event) (id : JobId)
    (j j' : MaintenanceJob) (hcond : Along step Tying initial (events ++ [e]))
    (hj : (initial.run events).job id = some j)
    (hj' : (initial.run (events ++ [e])).job id = some j') :
    (j.state = .InMaintenance → j'.state = .Verifying →
      ∃ p, (initial.run events).pass = some p ∧ ∀ t ∈ j.removal_set, ∃ r,
        Confirms (initial.run events) .MaintenanceCompletion j p.now t r) ∧
    (j.state = .Ready → j.requires_drain = true → j'.state = .InMaintenance →
      ∃ p, (initial.run events).pass = some p ∧ ∀ t ∈ j.removal_set, ∃ r,
        Confirms (initial.run events) .DrainLeaseState j p.now t r ∧ r.payload.result = true) := by
  have hs := sound_run events
  have htied := tied_run (Along.append.mp hcond).1
  have harmed := armed_run events
  have hs' := sound_run (events ++ [e])
  rw [run_snoc] at hj' hs'
  generalize initial.run events = s at *
  have hid := hs.valid_id hj
  refine ⟨?_, ?_⟩
  -- The first half: the drive that ended maintenance found a fresh completion for every target.
  · intro hstate hstate'
    obtain ⟨p, failed, hdriving, hconfirmed⟩ := hs.verification_entered hj hstate hj' hstate'
    obtain ⟨_, pass, _⟩ := driving_spec hdriving
    refine ⟨p, pass, ?_⟩
    intro t ht
    have hall : j.removal_set.all
        (fun t => ((under s.ctl e.verdicts).completion_for j p.now t).isSome) = true :=
      congrArg Prod.fst hconfirmed
    obtain ⟨result, hresult⟩ := Option.isSome_iff_exists.mp (List.all_eq_true.mp hall t ht)
    obtain ⟨source, r, hfind, hfresh, _⟩ := Controller.completion_for_spec hresult
    exact ⟨r, confirms_of_fresh htied hid (harmed id j hj hstate) rfl hfind hfresh⟩
  -- The second half: service was taken out in this step, so its gate was evaluated in it.
  · intro hready hdrain hstate'
    have hkept : ∀ x, s.job id = some x → x.service_removed = false := by
      intro x hx
      cases Option.some.inj (hj.symm.trans hx)
      have hfits : j.state.fits j.service_removed = true := (hs.world.job hj).fits
      exact fits_kept hfits (by rw [hready]; decide)
    have hremoved : j'.service_removed = true := by
      have hfits : j'.state.fits j'.service_removed = true := (hs'.world.job hj').fits
      rw [hstate'] at hfits
      exact hfits
    obtain ⟨p, x, hdriving, hx, started⟩ := hs.started hj' hremoved hkept
    cases Option.some.inj (hj.symm.trans hx)
    obtain ⟨_, pass, _⟩ := driving_spec hdriving
    refine ⟨p, pass, ?_⟩
    intro t ht
    obtain ⟨row, hrow, _, hattempt⟩ := started.gate.authority
    have hvalid : j.active_attempt.valid = true := by
      have hheld := (hs.world.holds row (find_for_job_spec hrow).1).attempt
      rw [hattempt] at hheld
      exact hheld
    obtain ⟨source, _, r, hfind, hfresh, hresult⟩ := (started.gate.drain hdrain).2 t ht
    exact ⟨r, confirms_of_fresh htied hid hvalid rfl hfind hfresh, hresult⟩

end System

namespace Drill

/-- Job 1 is reported done; the next drive finds the report. -/
def reported : List Event :=
  started ++ [report 1 true (ms 210), call (.tick 0 (ms 300)), call (.begin_pass 0)]

/-- Somebody hands in a completion record that names neither job nor attempt. -/
def anonymous : List Event :=
  started ++
    [call (.observe { key := { kind := .MaintenanceCompletion, subject := EvidenceSubject.of switch
                               source := ⟨2⟩ }
                      revision := ⟨1⟩, observed_at := ms 210
                      payload := { result := true, health := .Degraded } }),
      call (.tick 0 (ms 300)), call (.begin_pass 0)]

end Drill

namespace System

/-- The drill that reports under the active attempt ends maintenance on that report. -/
theorem confirmation_in_reported_drill :
    ∃ j p, (initial.run Drill.reported).job ⟨1⟩ = some j ∧
      (initial.run Drill.reported).pass = some p ∧
      ∀ t ∈ j.removal_set, ∃ r,
        Confirms (initial.run Drill.reported) .MaintenanceCompletion j p.now t r := by
  obtain ⟨j, hj, hstate⟩ := job_of_field (initial.run Drill.reported) ⟨1⟩ MaintenanceJob.state
    (a := .InMaintenance) (by decide +kernel)
  obtain ⟨j', hj', hstate'⟩ :=
    job_of_field (initial.run (Drill.reported ++ [Drill.call .pass_step])) ⟨1⟩
    MaintenanceJob.state (a := .Verifying) (by decide +kernel)
  obtain ⟨p, hp, hconfirmed⟩ :=
    (confirmations_attempt_bound Drill.reported (Drill.call .pass_step) ⟨1⟩
    j j' (by decide +kernel) hj hj').1 hstate hstate'
  exact ⟨j, p, hj, hp, hconfirmed⟩

/-- The anonymous record ends maintenance as well, and nothing in the store is bound to the job. -/
theorem anonymous_record_confirms :
    ∃ j j' p, (initial.run Drill.anonymous).job ⟨1⟩ = some j ∧ j.state = .InMaintenance ∧
      (initial.run (Drill.anonymous ++ [Drill.call .pass_step])).job ⟨1⟩ = some j' ∧
      j'.state = .Verifying ∧ (initial.run Drill.anonymous).pass = some p ∧
      ¬ ∀ t ∈ j.removal_set, ∃ r,
        Confirms (initial.run Drill.anonymous) .MaintenanceCompletion j p.now t r := by
  obtain ⟨j, hj, hf⟩ := job_of_field (initial.run Drill.anonymous) ⟨1⟩
    (fun j => (j.state, j.removal_set)) (a := (.InMaintenance, [Drill.switch])) (by decide +kernel)
  obtain ⟨hstate, hscope⟩ := Prod.mk.inj hf
  obtain ⟨j', hj', hstate'⟩ := job_of_field
    (initial.run (Drill.anonymous ++ [Drill.call .pass_step])) ⟨1⟩ MaintenanceJob.state
    (a := .Verifying) (by decide +kernel)
  obtain ⟨p, hp⟩ : ∃ p, (initial.run Drill.anonymous).pass = some p :=
    Option.isSome_iff_exists.mp (by decide +kernel)
  have hnobody : ∀ r ∈ (initial.run Drill.anonymous).ctl.store.state.evidence.records.rows,
      r.key.kind = .MaintenanceCompletion → r.job = ⟨0⟩ := by
    decide +kernel
  refine ⟨j, j', p, hj, hstate, hj', hstate', hp, ?_⟩
  generalize initial.run Drill.anonymous = s at *
  intro hconfirmed
  obtain ⟨r, ⟨⟨source, hfind⟩, _, hjob, _⟩⟩ :=
    hconfirmed Drill.switch (hscope ▸ List.mem_singleton_self _)
  have hkey : r.key = { kind := .MaintenanceCompletion, subject := EvidenceSubject.of Drill.switch
                        source } := Table.key_of_find hfind
  rw [hnobody r (Table.mem_of_find hfind) (by rw [hkey]), show j.id = ⟨1⟩ from Table.key_of_find hj]
    at hjob
  cases hjob

end System

end MaintenanceFabric
