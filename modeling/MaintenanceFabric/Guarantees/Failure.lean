import MaintenanceFabric.Guarantees.Confirmation

/-! # Reported failures

    A failure that is reported for a job in maintenance is evidence first; the
    job remembers it only when a drive finds the record.  Until then it is lost
    by whatever takes the job out of maintenance on another way, or replaces
    the record.  Along a run in which nothing of the kind happens, the job never
    completes.
-/

namespace MaintenanceFabric

open Lib

/-! ## A failure on the way -/

/-- The failure is still to be found, has been found, or has ended the job. -/
def Core.Unforgotten (c : Core) : Prop :=
  c.service_removed = true ∧ c.state ≠ .Complete ∧
    (c.state = .InMaintenance ∨ c.maintenance_failed = true ∨ c.state = .Failed)

theorem Core.with_attempt_failed (c : Core) :
    c.with_attempt.maintenance_failed = c.maintenance_failed := by
  unfold with_attempt
  split <;> rfl

theorem Core.reconcile_fields (c : Core) (a : AuthorityId) (l : DrainLeaseId) :
    (c.reconcile a l).service_removed = c.service_removed ∧
    (c.reconcile a l).state = .Blocked ∧
    (c.reconcile a l).maintenance_failed = c.maintenance_failed := by
  unfold reconcile
  simp only
  split
  · next hblocked => split <;> exact ⟨rfl, hblocked, rfl⟩
  · split <;> exact ⟨by simp [move, mint], rfl, rfl⟩

/-- Nothing takes a job out of maintenance but its end, a confirmation and a pause. -/
theorem Core.leaves_maintenance {c : Core} {to_state : JobState} (hstate : c.state = .InMaintenance)
    (hremoved : c.service_removed = true)
    (legal : (check_transition c.state to_state c.service_removed).allowed = true) :
    to_state = .Verifying ∨ to_state = .Blocked ∨ to_state = .Failed := by
  rw [hstate, hremoved] at legal
  revert legal
  cases to_state <;> decide

/-- An edit keeps the failure in sight unless it completes the job, or takes one whose failure has
    not been found out of maintenance. -/
theorem Edit.unforgotten {k : EditKind} {c c' : Core} (h : Edit k c c') (hs : c.Sound)
    (hc : c.Unforgotten) (hcomplete : k ≠ .moved .Complete)
    (hpause : c.maintenance_failed = false →
      k ≠ .confirmed false ∧ k ≠ .moved .Blocked ∧ k ≠ .reconciled) :
    c'.Unforgotten ∧ (c.maintenance_failed = true → c'.maintenance_failed = true) := by
  obtain ⟨hremoved, hnot, hcase⟩ := hc
  have halive := h.alive
  -- The job is not over, so it is in maintenance or its failure has been found.
  have hcase : c.state = .InMaintenance ∨ c.maintenance_failed = true := by
    rcases hcase with hstate | hfailed | hfailed
    · exact .inl hstate
    · exact .inr hfailed
    · rw [hfailed] at halive
      cases halive
  have hfits : c.state.fits true = true := by
    have hfits := hs.fits
    rw [hremoved] at hfits
    exact hfits
  cases h with
  | touched _ _ _ => exact ⟨⟨hremoved, hnot, hcase.imp_right .inl⟩, id⟩
  | minted _ _ => exact ⟨⟨hremoved, hnot, hcase.imp_right .inl⟩, id⟩
  | approved state =>
    rw [state] at hfits
    cases hfits
  | rearmed _ _ _ kept _ =>
    rw [hremoved] at kept
    cases kept
  | expanded _ _ _ state =>
    rw [state] at hfits
    cases hfits
  | moved to_state _ _ legal onward =>
    have hto : to_state ≠ .Complete := fun heq => hcomplete (by rw [heq])
    refine ⟨⟨by simp [Core.move, hremoved], hto, ?_⟩, id⟩
    cases hfailed : c.maintenance_failed with
    | true => exact .inr (.inl hfailed)
    | false =>
      have hstate : c.state = .InMaintenance := by
        rw [hfailed] at hcase
        exact hcase.resolve_right (by decide)
      rcases Core.leaves_maintenance hstate hremoved legal with heq | heq | heq
      · exact absurd heq onward.2.1
      · exact absurd (by rw [heq]) (hpause hfailed).2.1
      · exact .inr (.inr heq)
  | confirmed failed _ _ _ =>
    have hfound : (c.maintenance_failed || failed) = true := by
      cases hfailed : c.maintenance_failed with
      | true => rfl
      | false =>
        cases failed with
        | true => rfl
        | false => exact absurd rfl (hpause hfailed).1
    exact ⟨⟨by simp [Core.move, hremoved], by simp [Core.move], .inr (.inl hfound)⟩,
      fun _ => hfound⟩
  | resumed _ _ state _ =>
    have hf := c.with_attempt_failed
    have hfound : c.maintenance_failed = true := by
      refine hcase.resolve_left ?_
      rw [state]
      decide
    refine ⟨⟨?_, by simp [Core.move], .inr (.inl (hf.trans hfound))⟩, fun _ => hf.trans hfound⟩
    simp [Core.move, hremoved]
  | reconciled a l _ _ =>
    obtain ⟨hr, hb, hf⟩ := c.reconcile_fields a l
    have hfound : c.maintenance_failed = true := by
      by_contra hno
      exact (hpause (Bool.not_eq_true _ ▸ hno)).2.2 rfl
    refine ⟨⟨hr.trans hremoved, ?_, .inr (.inl (hf.trans hfound))⟩, fun _ => hf.trans hfound⟩
    rw [hb]
    decide

namespace System

variable {s : System} {e : Event} {job : JobId} {j : MaintenanceJob}

/-! ## What keeps a failure in sight -/

/-- The drain request whose failure a step delivers. -/
def failing (s : System) (e : Event) : Option DrainAction :=
  match e.label with
  | .outcome thread answer =>
      (s.threads.find thread).bind (fun t => t.actions.head?.filter (fun a =>
        decide (a.kind = .Request) && !Status.isOk (Controller.perform_action a answer).status))
  | _ => none

/-- As long as the job is in maintenance: no restart, no failed answer to a drain request of its
    attempt, and at every drive some target whose first fresh completion record is no success. -/
def FailureInSight (job : JobId) (s : System) (e : Event) : Prop :=
  ∀ j ∈ s.job job, j.state = .InMaintenance →
    e.restarts = false ∧
    (∀ a ∈ s.failing e, ¬ (a.job = job ∧ a.attempt = j.active_attempt)) ∧
    ∀ d ∈ s.driving e, d.2.id = job →
      ∃ t ∈ j.removal_set, s.ctl.completion_for j d.1.now t ≠ some true

instance (job : JobId) (s : System) (e : Event) : Decidable (FailureInSight job s e) :=
  inferInstanceAs (Decidable (∀ j ∈ s.job job, _))

/-- What a step may not do to a job whose failure has been reported. -/
theorem license_in_sight (hj : s.job job = some j) (hcond : FailureInSight job s e) {k : EditKind}
    (hlic : (s.license e).edits job k) :
    ((j.state = .InMaintenance ∨ j.maintenance_failed = true) → k ≠ .moved .Complete) ∧
    (j.state = .InMaintenance → k ≠ .confirmed false ∧ k ≠ .moved .Blocked ∧ k ≠ .reconciled) := by
  have hlicensed := s.licensed e
  generalize s.license e = L at hlic hlicensed
  cases hlicensed with
  -- The condition keeps a job in maintenance from being reconciled at a restart.
  | restart label =>
    have hk : k = .reconciled := hlic
    subst hk
    refine ⟨fun _ => by simp, ?_⟩
    intro hstate
    have hno := (hcond j hj hstate).1
    unfold Event.restarts at hno
    rw [label] at hno
    cases hno
  | @drive p id rest label pass remaining =>
    obtain ⟨rfl, x, hx, hmay⟩ := hlic
    cases Option.some.inj (hj.symm.trans hx)
    refine ⟨?_, ?_⟩
    -- A job completes out of restoration, and only without a failure on record.
    · intro hcase hk
      subst hk
      obtain ⟨hrestoring, hunfailed⟩ := hmay
      rcases hcase with hstate | hfailed
      · rw [hstate] at hrestoring
        cases hrestoring
      · rw [hfailed] at hunfailed
        cases hunfailed
    · intro hstate
      refine ⟨?_, ?_, ?_⟩
      · -- A confirmation without a failure has found success for every target.
        intro hk
        subst hk
        obtain ⟨_, hconfirmed⟩ := hmay
        obtain ⟨t, ht, hunproven⟩ := (hcond j hj hstate).2.2 (p, j)
          (driving_eq label pass remaining hj) (Table.key_of_find hj)
        have hall : j.removal_set.all
            (fun t => ((under s.ctl e.verdicts).completion_for j p.now t).isSome) = true :=
          congrArg Prod.fst hconfirmed
        have hany : j.removal_set.any
            (fun t => (under s.ctl e.verdicts).completion_for j p.now t == some false) = false :=
          congrArg Prod.snd hconfirmed
        obtain ⟨result, hresult⟩ := Option.isSome_iff_exists.mp (List.all_eq_true.mp hall t ht)
        have hnever := List.any_eq_false.mp hany t ht
        cases result with
        | true => exact hunproven hresult
        | false => exact hnever (beq_iff_eq.mpr hresult)
      · intro hk
        subst hk
        exact hmay hstate
      · intro hk
        subst hk
        exact hmay
  | arbitration _ _ _ =>
    rcases hlic with rfl | ⟨rfl, x, hx, hwaits⟩
    · exact ⟨fun _ => by simp, fun _ => by simp⟩
    · refine ⟨fun _ => by simp, ?_⟩
      intro hstate
      cases Option.some.inj (hj.symm.trans hx)
      rw [hstate] at hwaits
      cases hwaits
  | expiry _ _ => exact hlic.elim
  -- A failed drain blocks the job it was sent for, which the condition rules out.
  | @outcome thread answer t action rest label found actions =>
    rcases hlic with rfl | ⟨rfl, hjob, hrequest, hrefused, x, hx, hattempt⟩
    · exact ⟨fun _ => by simp, fun _ => by simp⟩
    · refine ⟨fun _ => by simp, ?_⟩
      intro hstate
      cases Option.some.inj (hj.symm.trans hx)
      have hfailing : s.failing e = some action := by
        unfold failing
        rw [label]
        simp [found, actions, hrequest, hrefused]
      exact absurd ⟨hjob.symm, hattempt.symm⟩ ((hcond j hj hstate).2.1 action hfailing)
  | idle => exact hlic.elim
  | call => rcases hlic with rfl | rfl | rfl | rfl <;> exact ⟨fun _ => by simp, fun _ => by simp⟩

/-- A reported failure stays in sight across a step. -/
theorem Sound.unforgotten_step (h : s.Sound) (hcond : FailureInSight job s e)
    (hj : s.job job = some j) (hu : j.core.Unforgotten) :
    ∃ j', (s.step e).job job = some j' ∧ j'.core.Unforgotten := by
  cases hterm : j.state.is_terminal with
  | true => exact ⟨j, (changes_step h e).terminal hj hterm, hu⟩
  | false =>
    have hcase : j.state = .InMaintenance ∨ j.maintenance_failed = true := by
      rcases hu.2.2 with hstate | hfailed | hfailed
      · exact .inl hstate
      · exact .inr hfailed
      · rw [show j.state = .Failed from hfailed] at hterm
        cases hterm
    obtain ⟨j', hj', hkept⟩ := (changes_step h e).job
      (R := fun c c' => c.Unforgotten ∧
        (j.maintenance_failed = true → c.maintenance_failed = true) →
        c'.Unforgotten ∧ (j.maintenance_failed = true → c'.maintenance_failed = true))
      (fun _ hc => hc) (fun hab hbc hc => hbc (hab hc)) (by
        intro k c c' hlic hsound edit hc
        obtain ⟨hcomplete, hpause⟩ := license_in_sight hj hcond hlic
        obtain ⟨hu', hfailed⟩ := edit.unforgotten hsound hc.1 (hcomplete hcase) (by
          intro hnot
          refine hpause (hcase.resolve_right ?_)
          intro hfound
          rw [hc.2 hfound] at hnot
          cases hnot)
        exact ⟨hu', fun hfound => hfailed (hc.2 hfound)⟩) h.world hj
    exact ⟨j', hj', (hkept ⟨hu, id⟩).1⟩

end System

/-- Only a job in maintenance takes a completion report. -/
theorem Controller.report_completion_ok {c : Controller} {job : JobId} {attempt : AttemptId}
    {succeeded : Bool} {detail : Text} {now : Nanos}
    (h : (c.report_completion job attempt succeeded detail now).1 = ok_status) :
    ∃ j, c.store.state.jobs.find job = some j ∧ j.state = .InMaintenance := by
  unfold report_completion at h
  split at h
  · cases h
  · next j hj =>
    refine ⟨j, hj, ?_⟩
    split at h
    · cases h
    · split at h
      · cases h
      · next hstate => exact not_not.mp hstate

namespace System

/-- Along a run that keeps a reported failure in sight, the job never completes: if it ends, it
    ends as failed. -/
theorem reported_failure_never_completes (before : List Event) (report : Event) (job : JobId)
    (attempt : AttemptId) (detail : Text) (clock : Nanos) (after : List Event)
    (hlabel : report.label = .report_completion job attempt false detail clock)
    (hok : ((under (initial.run before).ctl report.verdicts).report_completion
      job attempt false detail
      clock).1 = ok_status)
    (hcond : Along step (FailureInSight job) (initial.run (before ++ [report])) after) :
    ∃ j, (initial.run (before ++ [report] ++ after)).job job = some j ∧ j.state ≠ .Complete ∧
      (j.state.is_terminal = true → j.state = .Failed) := by
  have hs := sound_run before
  obtain ⟨j, hj, hstate⟩ := Controller.report_completion_ok hok
  have hfits : j.state.fits j.service_removed = true := (hs.world.job hj).fits
  have hremoved : j.service_removed = true := by
    rw [hstate] at hfits
    exact hfits
  -- The report itself disturbs nothing.
  have hreport : FailureInSight job (initial.run before) report := by
    intro x hx hxs
    unfold Event.restarts failing driving
    rw [hlabel]
    exact ⟨rfl, fun _ ha => (by cases ha), fun _ hd => (by cases hd)⟩
  have hu : j.core.Unforgotten := by
    refine ⟨hremoved, ?_, .inl hstate⟩
    rw [show j.core.state = .InMaintenance from hstate]
    decide
  have hfirst := hs.unforgotten_step hreport hj hu
  rw [run_append]
  rw [← run_snoc] at hfirst
  have hboth : ((initial.run (before ++ [report])).run after).Sound ∧
      ∃ j, ((initial.run (before ++ [report])).run after).job job = some j ∧
        j.core.Unforgotten := by
    refine hcond.invariant (I := fun s => s.Sound ∧ ∃ j, s.job job = some j ∧ j.core.Unforgotten) ?_
      ⟨sound_run _, hfirst⟩
    intro s e hc hs
    obtain ⟨hs, j, hj, hu⟩ := hs
    exact ⟨hs.step e, hs.unforgotten_step hc hj hu⟩
  obtain ⟨hs', j', hj', hu'⟩ := hboth
  refine ⟨j', hj', hu'.2.1, ?_⟩
  intro hterm
  have hfits' : j'.state.fits j'.service_removed = true := (hs'.world.job hj').fits
  rw [show j'.service_removed = true from hu'.1] at hfits'
  have hnot : j'.state ≠ .Complete := hu'.2.1
  revert hterm hfits' hnot
  cases j'.state <;> decide

end System

namespace Drill

/-- Three ticks, with room for verification and restoration. -/
def aftermath : List Event := tick (ms 1300) 1 ++ tick (ms 1400) 1 ++ tick (ms 1500) 1

end Drill

namespace System

/-- Left alone, the job of the drill ends as failed after its failure has been reported. -/
theorem failure_ends_in_failed :
    ∃ j, (initial.run (Drill.started ++
      [Drill.report 1 false (Drill.ms 210)] ++ Drill.aftermath)).job
      ⟨1⟩ = some j ∧ j.state = .Failed := by
  obtain ⟨j, hj, _, hfailed⟩ := reported_failure_never_completes Drill.started
    (Drill.report 1 false (Drill.ms 210)) ⟨1⟩ (Drill.first 1) [] (Drill.ms 210) Drill.aftermath rfl
    (by decide +kernel) (by decide +kernel)
  obtain ⟨x, hx, hover⟩ := job_of_field
    (initial.run (Drill.started ++ [Drill.report 1 false (Drill.ms 210)] ++ Drill.aftermath)) ⟨1⟩
    (fun j => j.state.is_terminal) (a := true) (by decide +kernel)
  cases Option.some.inj (hj.symm.trans hx)
  exact ⟨j, hj, hfailed hover⟩

/-- A restart before the next drive, and the job completes although its failure was reported and
    nothing was reported after it. -/
theorem failure_forgotten_by_restart :
    ((initial.run Drill.started).ctl.report_completion ⟨1⟩ (Drill.first 1) false
      [] (Drill.ms 210)).1 =
        ok_status ∧
      ((initial.run (Drill.started ++ [Drill.report 1 false (Drill.ms 210)] ++
        ([Drill.boot (Drill.ms 300), Drill.health 2 (Drill.ms 300)] ++
          Drill.aftermath))).job ⟨1⟩).map
        MaintenanceJob.state = some .Complete := by
  constructor <;> decide +kernel

end System

end MaintenanceFabric
