import MaintenanceFabric.Guarantees.Exclusion

/-! # Joint capacity at the moment of a start

    The gate projects a start against what it believes to be out of service:
    live reservations and the scopes of jobs in a removal stage.  What really
    is out of service is the scope of every job that has removed it and is not
    over.  The two agree as long as a job that sits in `Blocked` still holds
    its reservation, and then every policy bound holds jointly.
-/

namespace MaintenanceFabric

open Lib

namespace System

/-! ## What is out of service -/

/-- The scope about to be removed, what other jobs have removed, and what is reserved. -/
def out_set (s : System) (p : Pass) (j : MaintenanceJob) : List TargetId :=
  j.removal_set ++
    (s.ctl.store.state.jobs.jobs.rows.filter (fun o =>
      decide (o.id ≠ j.id) && !o.state.is_terminal && o.service_removed)).flatMap
        MaintenanceJob.removal_set ++
    (s.ctl.store.state.ledger.live p.now).flatMap AuthorityReservation.targets

/-- The target counts towards a bound that the start of the job is judged by. -/
def Weighs (s : System) (j : MaintenanceJob) (t : TargetId) : Prop :=
  (∃ pool ∈ s.ctl.topology.pools.rows, (∃ m ∈ pool.members, m ∈ j.removal_set) ∧ t ∈ pool.members) ∨
  (∃ own ∈ s.ctl.topology.targets.rows, own.id ∈ j.removal_set ∧
    ∃ d ∈ own.domains, s.ctl.policy.domain_limits_for d ≠ [] ∧
      ∃ r ∈ s.ctl.topology.targets.rows, r.id = t ∧ d ∈ r.domains) ∨
  (∃ contract ∈ s.ctl.policy.contracts, (∃ m ∈ contract.members, m ∈ j.removal_set) ∧
    t ∈ contract.members)

/-- When a ready job is driven, every other job that is blocked with its service removed, and
    whose scope weighs on one of the bounds, still holds a live reservation. -/
def OthersReserved (s : System) (e : Event) : Prop :=
  ∀ d ∈ s.driving e, d.2.state = .Ready →
    ∀ o ∈ s.ctl.store.state.jobs.jobs.rows, o.id ≠ d.2.id → o.state = .Blocked →
      o.service_removed = true → (∃ t ∈ o.removal_set, s.Weighs d.2 t) → Reserved s o d.1.now

instance (s : System) (j : MaintenanceJob) (t : TargetId) : Decidable (s.Weighs j t) :=
  inferInstanceAs (Decidable (_ ∨ _ ∨ _))

instance (s : System) (e : Event) : Decidable (OthersReserved s e) :=
  inferInstanceAs (Decidable (∀ d ∈ s.driving e, _ → ∀ o ∈ s.ctl.store.state.jobs.jobs.rows, _))

variable {s : System} {e : Event}

theorem mem_baseline_removed {c : Controller} {j : MaintenanceJob} {now : Nanos} {t : TargetId} :
    t ∈ c.baseline_removed j now ↔ t ∈ c.store.state.ledger.reserved_targets now ∨
      ∃ o ∈ c.store.state.jobs.jobs.rows,
        (o.id ≠ j.id ∧ o.state.stage_removes_service = true) ∧ t ∈ o.removal_set := by
  unfold Controller.baseline_removed
  rw [mem_collected (P := fun o t =>
    (o.id ≠ j.id ∧ o.state.stage_removes_service = true) ∧ t ∈ o.removal_set)]
  intro out o t
  by_cases hid : o.id = j.id
  · simp [hid]
  · by_cases hstage : o.state.stage_removes_service = true
    · simp [hid, hstage]
    · simp [hid, hstage]

/-- A reserved job's scope is among the reserved targets. -/
theorem Sound.reserved_scope (h : s.Sound) {o : MaintenanceJob}
    (ho : o ∈ s.ctl.store.state.jobs.jobs.rows) {now : Nanos}
    (hres : Reserved s o now) {t : TargetId}
    (ht : t ∈ o.removal_set) : t ∈ s.ctl.store.state.ledger.reserved_targets now := by
  obtain ⟨r, hfind, hlive⟩ := (Option.any_eq_true _ _).mp hres
  obtain ⟨hmem, hjob, hgen⟩ := find_for_job_spec hfind
  refine AuthorityLedger.mem_reserved_targets.mpr ⟨r, hmem, hlive, ?_⟩
  exact (h.held_scope (Table.find_iff_mem.mpr ho) hmem hjob hgen t).mpr ht

/-- The gate has counted everything out of service that weighs on a bound. -/
theorem Sound.counted (h : s.Sound) {p : Pass} {j : MaintenanceJob}
    (hothers : ∀ o ∈ s.ctl.store.state.jobs.jobs.rows, o.id ≠ j.id → o.state = .Blocked →
      o.service_removed = true → (∃ t ∈ o.removal_set, s.Weighs j t) → Reserved s o p.now)
    {t : TargetId} (hweighs : s.Weighs j t) (ht : t ∈ s.out_set p j) :
    t ∈ s.ctl.baseline_removed j p.now ∨ t ∈ j.removal_set := by
  unfold out_set at ht
  simp only [List.mem_append, List.mem_flatMap, List.mem_filter,
    Bool.and_eq_true, Bool.not_eq_true',
    decide_eq_true_eq] at ht
  rcases ht with (ht | ⟨o, ⟨ho, ⟨hne, halive⟩, hremoved⟩, ht⟩) | ⟨r, hr, ht⟩
  · exact .inr ht
  · left
    rw [mem_baseline_removed]
    rcases h.out_of_service_state (Table.find_iff_mem.mpr ho) ⟨halive, hremoved⟩
      with hstage | hblocked
    · exact .inr ⟨o, ho, ⟨hne, hstage⟩, ht⟩
    · exact .inl (h.reserved_scope ho (hothers o ho hne hblocked hremoved ⟨t, ht, hweighs⟩) ht)
  · left
    rw [mem_baseline_removed]
    refine .inl (AuthorityLedger.mem_reserved_targets.mpr ?_)
    obtain ⟨hmem, hlive⟩ := List.mem_filter.mp hr
    exact ⟨r, hmem, hlive, ht⟩

/-! ## The bounds -/

/-- The policy bounds, with everything in the out set gone. -/
structure CapacityKept (s : System) (p : Pass) (j : MaintenanceJob) : Prop where
  pools : ∀ pool ∈ s.ctl.topology.pools.rows, (∃ m ∈ pool.members, m ∈ j.removal_set) →
    (s.ctl.policy.redundancy_for pool.id).min_viable +
      (s.ctl.policy.redundancy_for pool.id).tolerated_losses +
      ((s.ctl.policy.headroom_for pool.id).map HeadroomRule.reserve_units).getD 0 < 4294967296 →
    (s.ctl.policy.redundancy_for pool.id).min_viable +
      (s.ctl.policy.redundancy_for pool.id).tolerated_losses +
      ((s.ctl.policy.headroom_for pool.id).map HeadroomRule.reserve_units).getD 0 ≤
      units_where s.ctl.topology pool.members
        (fun m => (p.context s.ctl).readiness.is_serving m && !decide (m ∈ s.out_set p j))
  domains : ∀ t ∈ j.removal_set, ∀ record, s.ctl.topology.target t = some record →
    ∀ d ∈ record.domains, s.ctl.policy.domain_limits_for d ≠ [] →
    (s.ctl.topology.targets.rows.filter
      (fun r => decide (d ∈ r.domains) && decide (r.id ∈ s.out_set p j))).length ≤
      effective_max_out (s.ctl.policy.domain_limits_for d)
  contracts : ∀ contract ∈ s.ctl.policy.contracts, (∃ m ∈ contract.members, m ∈ j.removal_set) →
    contract.min_available ≤ (contract.members.filter
      (fun m => (p.context s.ctl).readiness.is_serving m && !decide (m ∈ s.out_set p j))).length

theorem Sound.capacity_kept (h : s.Sound) {p : Pass} {j : MaintenanceJob}
    {verdicts : List (Option JournalFault)}
    (gate : Gate ((under s.ctl verdicts).precondition_context j
      (p.context (under s.ctl verdicts)).readiness true true p.now))
    (hothers : ∀ o ∈ s.ctl.store.state.jobs.jobs.rows, o.id ≠ j.id → o.state = .Blocked →
      o.service_removed = true → (∃ t ∈ o.removal_set, s.Weighs j t) → Reserved s o p.now) :
    CapacityKept s p j := by
  have hcounted := fun t => h.counted (t := t) hothers
  refine ⟨?_, ?_, ?_⟩
  · intro pool hpool hm nowrap
    have hweighs : ∀ t ∈ pool.members, s.Weighs j t := fun t ht => .inl ⟨pool, hpool, hm, ht⟩
    obtain ⟨m, hm, hplanned⟩ := hm
    exact pool_promise gate.pools hpool hm hplanned (fun t ht => hcounted t (hweighs t ht)) nowrap
  · intro t ht record hrecord d hd hlimited
    refine domain_promise gate.domains ht hrecord hd hlimited (fun r hr hrd => hcounted r.id ?_)
    have hid : record.id = t := Table.key_of_find hrecord
    exact .inr (.inl ⟨record, Table.mem_of_find hrecord, hid ▸ ht, d, hd,
      hlimited, r, hr, rfl, hrd⟩)
  · intro contract hcontract hm
    have hweighs : ∀ t ∈ contract.members, s.Weighs j t :=
      fun t ht => .inr (.inr ⟨contract, hcontract, hm, ht⟩)
    obtain ⟨m, hm, hplanned⟩ := hm
    exact contract_promise gate.contracts hcontract hm hplanned
      (fun t ht => hcounted t (hweighs t ht))

/-- Along a run in which blocked jobs stay reserved, every start keeps every bound. -/
theorem joint_capacity_at_start (events : List Event) (e : Event) (id : JobId)
    (j j' : MaintenanceJob)
    (hothers : Along step OthersReserved initial (events ++ [e]))
    (hj : (initial.run events).job id = some j) (hready : j.state = .Ready)
    (hj' : (initial.run (events ++ [e])).job id = some j') (hstart : j'.state = .InMaintenance) :
    ∃ p, (initial.run events).pass = some p ∧ CapacityKept (initial.run events) p j := by
  have hs := sound_run events
  have hs' := sound_run (events ++ [e])
  rw [run_snoc] at hj' hs'
  obtain ⟨_, hcond, _⟩ := Along.append.mp hothers
  change OthersReserved (initial.run events) e at hcond
  generalize initial.run events = s at *
  have hremoved : j'.service_removed = true := by
    have hfits : j'.state.fits j'.service_removed = true := (hs'.world.job hj').fits
    rw [hstart] at hfits
    exact hfits
  have hkept : ∀ x, s.job id = some x → x.service_removed = false := by
    intro x hx
    cases Option.some.inj (hj.symm.trans hx)
    have hfits : j.state.fits j.service_removed = true := (hs.world.job hj).fits
    exact fits_kept hfits (by rw [hready]; decide)
  obtain ⟨p, x, hdriving, hx, started⟩ := hs.started hj' hremoved hkept
  cases Option.some.inj (hj.symm.trans hx)
  obtain ⟨_, pass, _, _⟩ := driving_spec hdriving
  exact ⟨p, pass, hs.capacity_kept started.gate (hcond (p, j) hdriving hready)⟩

end System

/-! ## Two switches under one contract -/

namespace Drill

def peer : TargetId := { kind := .Switch, index := 2 }

def pair : Topology :=
  match topology.add_target { id := peer } with
  | .ok t => t
  | .error _ => {}

/-- One of the two switches must stay available. -/
def contract : Contract := { id := ⟨1⟩, members := [switch, peer], min_available := 1 }

def contracted : Policy := { policy with contracts := [contract] }

def peer_health (revision : Nat) (now : Nanos) : Event :=
  call (.observe
    { key := { kind := .TargetHealth, subject := EvidenceSubject.of peer, source := ⟨1⟩ }
      revision := ⟨revision⟩, observed_at := now, payload := { health := .Healthy } })

/-- One job for each switch, up to the drive that starts job 1. -/
def paired : List Event :=
  [boot 0, call (.set_topology pair), call (.set_policy contracted), health 1 0, peer_health 1 0,
    propose 0, call (.propose { request with targets := [peer] } (text "operator") 0),
    approve 1 0] ++
    tick 0 1 ++ tick (ms 100) 1 ++ [call (.tick 0 (ms 200)), call (.begin_pass 0)]

/-- As in `rivals`: job 1 is left behind in `Blocked` with its reservation lapsed, and job 2 is
    about to be driven. -/
def lapsed : List Event :=
  paired ++ [call .pass_step, call .pass_step, call (.finish 0), boot (ms 300), health 2 (ms 300),
      peer_health 2 (ms 300), approve 2 (ms 300),
      call (.report_restoration ⟨1⟩ { job := ⟨1⟩, generation := ⟨1⟩, ordinal := ⟨2⟩ } switch true []
        (ms 900))] ++
    tick (ms 1300) 2 ++ tick (ms 1400) 2 ++
    [call (.tick 0 (ms 1500)), call (.begin_pass 0), call .pass_step]

end Drill

namespace System

/-- The first switch goes into maintenance with the contract kept. -/
theorem joint_capacity_in_paired_drill :
    ∃ j p, (initial.run Drill.paired).job ⟨1⟩ = some j ∧ (initial.run Drill.paired).pass = some p ∧
      CapacityKept (initial.run Drill.paired) p j := by
  obtain ⟨j, hj, hready⟩ := job_of_field (initial.run Drill.paired) ⟨1⟩
    MaintenanceJob.state (a := .Ready) (by decide +kernel)
  obtain ⟨j', hj', hstart⟩ := job_of_field (initial.run (Drill.paired ++ [Drill.call .pass_step]))
    ⟨1⟩ MaintenanceJob.state (a := .InMaintenance) (by decide +kernel)
  obtain ⟨p, hp, hkept⟩ := joint_capacity_at_start Drill.paired (Drill.call .pass_step) ⟨1⟩ j j'
    (by decide +kernel) hj hready hj' hstart
  exact ⟨j, p, hj, hp, hkept⟩

/-- Job 2 starts, and with both switches out nothing is left of the contract. -/
theorem lapsed_scope_breaks_contract :
    ∃ j j' p, (initial.run Drill.lapsed).job ⟨2⟩ = some j ∧ j.state = .Ready ∧
      (initial.run (Drill.lapsed ++ [Drill.call .pass_step])).job ⟨2⟩ = some j' ∧
      j'.state = .InMaintenance ∧ (initial.run Drill.lapsed).pass = some p ∧
      ¬ CapacityKept (initial.run Drill.lapsed) p j := by
  obtain ⟨j', hj', hstart⟩ := job_of_field (initial.run (Drill.lapsed ++ [Drill.call .pass_step]))
    ⟨2⟩ MaintenanceJob.state (a := .InMaintenance) (by decide +kernel)
  obtain ⟨j, hj, hready, hscope⟩ : ∃ j, (initial.run Drill.lapsed).job ⟨2⟩ = some j ∧
      j.state = .Ready ∧ j.removal_set = [Drill.peer] := by
    obtain ⟨j, hj, hf⟩ := job_of_field (initial.run Drill.lapsed) ⟨2⟩
      (fun j => (j.state, j.removal_set)) (a := (.Ready, [Drill.peer])) (by decide +kernel)
    exact ⟨j, hj, Prod.mk.inj hf⟩
  obtain ⟨p, hp⟩ : ∃ p, (initial.run Drill.lapsed).pass = some p :=
    Option.isSome_iff_exists.mp (by decide +kernel)
  obtain ⟨o, ho, hf⟩ := job_of_field (initial.run Drill.lapsed) ⟨1⟩
    (fun o => (o.state.is_terminal, o.service_removed, o.removal_set))
    (a := (false, true, [Drill.switch])) (by decide +kernel)
  simp only [Prod.mk.injEq] at hf
  obtain ⟨halive, hremoved, htargets⟩ := hf
  have hcontract : (initial.run Drill.lapsed).ctl.policy.contracts = [Drill.contract] := by
    decide +kernel
  refine ⟨j, j', p, hj, hready, hj', hstart, hp, ?_⟩
  generalize initial.run Drill.lapsed = s at *
  intro hkept
  -- Switch 1 is out with job 1, switch 2 goes out now, and the contract has no third member.
  have hswitch : Drill.switch ∈ s.out_set p j := by
    have hne : o.id ≠ j.id := by
      rw [show o.id = ⟨1⟩ from Table.key_of_find ho, show j.id = ⟨2⟩ from Table.key_of_find hj]
      decide
    simp only [out_set, List.mem_append, List.mem_flatMap, List.mem_filter]
    refine .inl (.inr ⟨o, ⟨Table.mem_of_find ho, ?_⟩, ?_⟩)
    · simp [hne, halive, hremoved]
    · simp [htargets]
  have hpeer : Drill.peer ∈ s.out_set p j := by
    simp [out_set, hscope]
  have hleft := hkept.contracts Drill.contract (hcontract ▸ List.mem_singleton_self _)
    ⟨Drill.peer, by decide, hscope ▸ List.mem_singleton_self _⟩
  simp [Drill.contract, hswitch, hpeer] at hleft

end System

end MaintenanceFabric
