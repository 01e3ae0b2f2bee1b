import MaintenanceFabric.Guarantees.Start

/-! # Mutual exclusion over removed service

    Two jobs that have both taken service out must not share a target.  A job
    in a removal stage is seen by everybody else's gate; a job that sits in
    `Blocked` with its service removed is protected only by its reservation,
    and reservations run out.  So the guarantee holds along every run in which
    no start is decided while such a reservation has lapsed.
-/

namespace MaintenanceFabric

open Lib

namespace System

/-! ## Exclusion -/

/-- Out of service and not over. -/
def OutOfService (j : MaintenanceJob) : Prop :=
  j.state.is_terminal = false ∧ j.service_removed = true

instance (j : MaintenanceJob) : Decidable (OutOfService j) := inferInstanceAs (Decidable (_ ∧ _))

/-- No two jobs that are out of service share a target. -/
def Exclusive (s : System) : Prop :=
  ∀ a b j k, s.job a = some j → s.job b = some k → a ≠ b → OutOfService j → OutOfService k →
    ∀ t ∈ j.removal_set, t ∉ k.removal_set

/-- The job's reservation has not run out. -/
def Reserved (s : System) (o : MaintenanceJob) (now : Nanos) : Prop :=
  (s.ctl.store.state.ledger.find_for_job o.id o.generation).any (fun r => r.live_at now) = true

/-- When a ready job is driven, every other job that is blocked with its service removed and
    wants a target of the same scope still holds a live reservation. -/
def RivalsReserved (s : System) (e : Event) : Prop :=
  ∀ d ∈ s.driving e, d.2.state = .Ready →
    ∀ o ∈ s.ctl.store.state.jobs.jobs.rows, o.id ≠ d.2.id → o.state = .Blocked →
      o.service_removed = true → (∃ t ∈ o.removal_set, t ∈ d.2.removal_set) → Reserved s o d.1.now

instance (s : System) (o : MaintenanceJob) (now : Nanos) : Decidable (Reserved s o now) :=
  inferInstanceAs (Decidable (_ = true))

instance (s : System) (e : Event) : Decidable (RivalsReserved s e) :=
  inferInstanceAs (Decidable (∀ d ∈ s.driving e, _ → ∀ o ∈ s.ctl.store.state.jobs.jobs.rows, _))

variable {s : System} {e : Event}

/-- A job that is out of service is in a removal stage or blocked. -/
theorem Sound.out_of_service_state (h : s.Sound) {id : JobId} {j : MaintenanceJob}
    (hj : s.job id = some j) (hout : OutOfService j) :
    j.state.stage_removes_service = true ∨ j.state = .Blocked := by
  have hfits : j.state.fits j.service_removed = true := (h.world.job hj).fits
  obtain ⟨halive, hremoved⟩ := hout
  rw [hremoved] at hfits
  revert halive hfits
  cases j.state <;> decide

/-- A job that was out of service before the step and is so after it has kept its scope. -/
theorem Sound.kept_scope (h : s.Sound) {id : JobId} {j j' : MaintenanceJob}
    (hj : s.job id = some j) (hj' : (s.step e).job id = some j')
    (hremoved : j.service_removed = true)
    (hout : OutOfService j') : OutOfService j ∧ j'.removal_set = j.removal_set := by
  obtain ⟨k, hk, hadvance⟩ := (changes_step h e).advance h.world hj
  cases Option.some.inj (hk.symm.trans hj')
  have hsettled : j.core.Settled := by
    have hfits : j.state.fits j.service_removed = true := (h.world.job hj).fits
    rw [hremoved] at hfits
    refine ⟨?_, ?_⟩
    · intro hstate
      rw [show j.state = .Proposed from hstate] at hfits
      cases hfits
    · intro hstate
      rw [show j.state = .Validated from hstate] at hfits
      cases hfits
  refine ⟨⟨?_, hremoved⟩, (hadvance.settled hsettled).2⟩
  rw [← Bool.not_eq_true]
  intro hterm
  have hsame : (s.step e).job id = some j := (changes_step h e).terminal hj hterm
  cases Option.some.inj (hsame.symm.trans hj')
  rw [hout.1] at hterm
  cases hterm

/-- A job just started shares no target with one that was out of service before. -/
theorem Sound.started_disjoint (h : s.Sound) (hrivals : RivalsReserved s e) {a b : JobId}
    {j' k k' : MaintenanceJob} (hj' : (s.step e).job a = some j') (hne : a ≠ b)
    (hstarted : j'.service_removed = true)
    (hbefore : ∀ j, s.job a = some j → j.service_removed = false) (hk : s.job b = some k)
    (hk' : (s.step e).job b = some k') (hremoved : k.service_removed = true)
    (hout : OutOfService k') : ∀ t ∈ j'.removal_set, t ∉ k'.removal_set := by
  obtain ⟨p, j, hdriving, hj, started⟩ := h.started hj' hstarted hbefore
  obtain ⟨x, y, hcore⟩ := started.core
  obtain ⟨hkout, hscope⟩ := h.kept_scope hk hk' hremoved hout
  have hkid : k.id = b := Table.key_of_find hk
  have hjid : j.id = a := Table.key_of_find hj
  intro t ht htk
  rw [show j'.removal_set = j.removal_set from congrArg Core.removal_set hcore] at ht
  rw [hscope] at htk
  have hdistinct : k.id ≠ j.id := by
    rw [hkid, hjid]
    exact hne.symm
  refine started.gate.jobs k (Table.mem_of_find hk) hdistinct ?_ t htk ht
  -- The gate sees the other job by its stage, or else by its reservation.
  unfold PreconditionContext.committed
  rcases h.out_of_service_state hk hkout with hstage | hblocked
  · rw [hstage, Bool.true_or]
  · have hheld : Reserved s k p.now := hrivals (p, j) hdriving started.ready k
      (Table.mem_of_find hk) hdistinct hblocked hremoved ⟨t, htk, ht⟩
    exact Bool.or_eq_true_iff.mpr (.inr hheld)

theorem Sound.exclusive_step (h : s.Sound) (hex : Exclusive s) (hrivals : RivalsReserved s e) :
    Exclusive (s.step e) := by
  intro a b j' k' hj' hk' hne hj hk
  -- Was the job out of service before, or has this step started it?
  have hcases : ∀ {id : JobId} {x' : MaintenanceJob}, (s.step e).job id = some x' →
      (∃ x, s.job id = some x ∧ x.service_removed = true) ∨
      ∀ x, s.job id = some x → x.service_removed = false := by
    intro id x' _
    cases hx : s.job id with
    | none => exact .inr (fun _ h => by cases h)
    | some x =>
      cases hflag : x.service_removed with
      | true => exact .inl ⟨x, rfl, hflag⟩
      | false =>
        refine .inr (fun y hy => ?_)
        cases hy
        exact hflag
  rcases hcases hj' with ⟨j, hj₀, hjr⟩ | hjnew
  · rcases hcases hk' with ⟨k, hk₀, hkr⟩ | hknew
    · obtain ⟨hjout, hjscope⟩ := h.kept_scope hj₀ hj' hjr hj
      obtain ⟨hkout, hkscope⟩ := h.kept_scope hk₀ hk' hkr hk
      rw [hjscope, hkscope]
      exact hex a b j k hj₀ hk₀ hne hjout hkout
    · intro t ht htk
      exact h.started_disjoint hrivals hk' hne.symm hk.2 hknew hj₀ hj' hjr hj t htk ht
  · rcases hcases hk' with ⟨k, hk₀, hkr⟩ | hknew
    · exact h.started_disjoint hrivals hj' hne hj.2 hjnew hk₀ hk' hkr hk
    · -- One step starts one job.
      obtain ⟨p, j, hdriving, hj₀, _⟩ := h.started hj' hj.2 hjnew
      obtain ⟨q, k, hdriving', hk₀, _⟩ := h.started hk' hk.2 hknew
      cases Option.some.inj (hdriving.symm.trans hdriving')
      exact absurd ((Table.key_of_find hj₀).symm.trans (Table.key_of_find hk₀)) hne

/-- Along a run in which rivals stay reserved, no two jobs have the same target out of service. -/
theorem exclusion_over_removed_service (events : List Event)
    (hrivals : Along step RivalsReserved initial events) : Exclusive (initial.run events) := by
  have hboth : (initial.run events).Sound ∧ Exclusive (initial.run events) := by
    refine hrivals.invariant (I := fun s => s.Sound ∧ Exclusive s) ?_ ⟨sound_initial, ?_⟩
    · intro s e hcond hs
      exact ⟨hs.1.step e, hs.1.exclusive_step hs.2 hcond⟩
    · intro a b j k hj
      cases hj
  exact hboth.2

/-- The drill that starts one job meets the condition at every step. -/
theorem exclusion_in_started_drill : Exclusive (initial.run Drill.started) :=
  exclusion_over_removed_service Drill.started (by decide +kernel)

end System

/-- The controller restarts while job 1 is in maintenance. Its reissued reservation runs out at
    1300 ms, a restoration report at 900 ms keeps it from leaving `Blocked` until 1900 ms, and
    job 2 gets the same switch in between. -/
def Drill.rivals : List Event :=
  started ++
    [boot (ms 300), health 2 (ms 300), approve 2 (ms 300),
      call (.report_restoration ⟨1⟩ { job := ⟨1⟩, generation := ⟨1⟩, ordinal := ⟨2⟩ } switch true []
        (ms 900))] ++
    tick (ms 1300) 2 ++ tick (ms 1400) 2 ++ tick (ms 1500) 2

namespace System

/-- Both jobs of the drill end up with the switch out of service. -/
theorem rivals_not_exclusive : ¬ Exclusive (initial.run Drill.rivals) := by
  obtain ⟨j, hj, hjf⟩ := job_of_field (initial.run Drill.rivals) ⟨1⟩
    (fun j => (j.state, j.service_removed, j.removal_set)) (a := (.Blocked, true, [Drill.switch]))
    (by decide +kernel)
  obtain ⟨k, hk, hkf⟩ := job_of_field (initial.run Drill.rivals) ⟨2⟩
    (fun j => (j.state, j.service_removed, j.removal_set))
    (a := (.InMaintenance, true, [Drill.switch])) (by decide +kernel)
  simp only [Prod.mk.injEq] at hjf hkf
  obtain ⟨hjs, hjr, hjt⟩ := hjf
  obtain ⟨hks, hkr, hkt⟩ := hkf
  intro hex
  refine hex ⟨1⟩ ⟨2⟩ j k hj hk (by decide) ⟨?_, hjr⟩ ⟨?_, hkr⟩ Drill.switch ?_ ?_
  · rw [hjs]
    rfl
  · rw [hks]
    rfl
  · rw [hjt]
    exact List.mem_singleton_self _
  · rw [hkt]
    exact List.mem_singleton_self _

end System

end MaintenanceFabric
