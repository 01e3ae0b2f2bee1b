import MaintenanceFabric.Guarantees.Start
import MaintenanceFabric.Runtime.Bindings

/-! # What a job was validated for

    Validation expands the scope of a job in the topology of that moment and
    writes the policy of that moment down.  Between validation and the start
    the operator may put another topology or another policy in force, and what
    the job is bound to stays as it was.  The gate compares the revision of the
    policy, and only where there is one; it compares neither the digest of the
    policy nor anything of the topology.
-/

namespace MaintenanceFabric

open Lib

namespace System

/-! ## Jobs on their way to a start -/

/-- A job that has a scope and may still take it out of service. -/
def Waiting (j : MaintenanceJob) : Prop :=
  j.state.is_terminal = false ∧ j.service_removed = false ∧ j.removal_set ≠ []

instance (j : MaintenanceJob) : Decidable (Waiting j) := inferInstanceAs (Decidable (_ ∧ _ ∧ _))

variable {s : System} {e : Event}

/-- A job that waits after a step and was there before waited before, for the same targets. -/
theorem Sound.waited (h : s.Sound) {j j' : MaintenanceJob} (hj : j ∈ s.ctl.world.jobs.rows)
    (hj' : j' ∈ (s.step e).ctl.world.jobs.rows) (hid : j'.id = j.id)
    (halive : j'.state.is_terminal = false) (hserves : j'.service_removed = false) :
    j.state.is_terminal = false ∧ j.service_removed = false ∧ j'.targets = j.targets ∧
      j.generation ≤ j'.generation := by
  obtain ⟨x, hx, hadvance⟩ := (changes_step h e).advance h.world (Table.find_iff_mem.mpr hj)
  have hfound : (s.step e).ctl.world.jobs.find j.id = some j' := hid ▸ Table.find_iff_mem.mpr hj'
  cases Option.some.inj (hx.symm.trans hfound)
  refine ⟨?_, ?_, hadvance.request.1, hadvance.generation⟩
  · rw [← Bool.not_eq_true]
    intro hterminal
    have hsame : j'.state = j.state := congrArg Core.state (hadvance.terminal hterminal)
    rw [hsame, hterminal] at halive
    cases halive
  · rw [← Bool.not_eq_true]
    intro hremoved
    have hstays : j'.service_removed = true := (hadvance.removed hremoved).1
    rw [hserves] at hstays
    cases hstays

/-! ## A relation between bindings and the configuration -/

section Fitted

variable {Fits : Topology → Policy → List TargetId → Binding → Prop}

/-- Every waiting job is bound to something that fits the configuration on record. -/
def Fitted (Fits : Topology → Policy → List TargetId → Binding → Prop) (s : System) : Prop :=
  ∀ j ∈ s.ctl.world.jobs.rows, Waiting j →
    Fits s.ctl.store.state.topology s.ctl.store.state.policy j.targets j.binding

theorem fitted_initial : Fitted Fits initial := fun _ hj => by cases hj

/-- Only an accepted configuration and a validation can break the fit. -/
theorem Configured.fitted_step (h : s.Configured) (hs : s.Sound)
    (hkept : ∀ j ∈ s.ctl.world.jobs.rows, Waiting j →
      Fits ((s.new_topology e).getD s.ctl.store.state.topology)
        ((s.new_policy e).getD s.ctl.store.state.policy) j.targets j.binding)
    (hbound : ∀ p j, s.driving e = some (p, j) → j.state = .Validated → s.ctl.refuses j = false →
      Fits s.ctl.topology s.ctl.policy j.targets (Drive.expanded s.ctl j).binding) :
    Fitted Fits (s.step e) := by
  have hbinds := h.step e
  intro j' hj' ⟨halive, hserves, hscope⟩
  rw [hbinds.topology, hbinds.policy]
  -- A job that carries a binding on is as fit for it as the job it comes from.
  have hcarried : ∀ j ∈ s.ctl.world.jobs.rows, j'.id = j.id → j'.binding = j.binding →
      Fits ((s.new_topology e).getD s.ctl.store.state.topology)
        ((s.new_policy e).getD s.ctl.store.state.policy) j'.targets j'.binding := by
    intro j hj hid hbinding
    obtain ⟨halive, hserves, htargets, _⟩ := hs.waited hj hj' hid halive hserves
    have hsame : j'.removal_set = j.removal_set := congrArg Binding.removal_set hbinding
    rw [htargets, hbinding]
    exact hkept j hj ⟨halive, hserves, hsame ▸ hscope⟩
  rcases hbinds.jobs j' hj' with ⟨j, hj, hcarries⟩ | ⟨hblank, _⟩ | ⟨p, j, hdriving, hup, hcarries⟩
  · exact hcarried j hj hcarries.id hcarries.binding
  · exact absurd (congrArg Binding.removal_set hblank) hscope
  · obtain ⟨label, _, hj, _⟩ := driving_spec hdriving
    have hmem : j ∈ s.ctl.world.jobs.rows := Table.mem_of_find hj
    by_cases hvalidates : j.state = .Validated ∧ s.ctl.refuses j = false
    · have hrebound : s.ctl.rebound j = Drive.expanded s.ctl j := if_pos hvalidates
      rw [hrebound] at hcarries
      have hid : j'.id = j.id := hcarries.id
      have htopology : s.new_topology e = none := by
        unfold new_topology
        rw [label]
      have hpolicy : s.new_policy e = none := by
        unfold new_policy
        rw [label]
      rw [htopology, hpolicy, Option.getD_none, Option.getD_none, ← h.topology hup, ← h.policy hup,
        (hs.waited hmem hj' hid halive hserves).2.2.1, hcarries.binding]
      exact hbound p j hdriving hvalidates.1 hvalidates.2
    · have hrebound : s.ctl.rebound j = j := if_neg hvalidates
      rw [hrebound] at hcarries
      exact hcarried j hmem hcarries.id hcarries.binding

end Fitted

/-! ## The start -/

/-- The step that starts a job: what it found, and what it leaves alone. -/
structure Starts (s : System) (e : Event) (p : Pass) (j j' : MaintenanceJob) : Prop where
  stored : j ∈ s.ctl.world.jobs.rows
  waiting : Waiting j
  configured : s.ctl.topology = s.ctl.store.state.topology ∧
    s.ctl.policy = s.ctl.store.state.policy
  cleared : ClearedToStart s p j
  clean : ∀ r ∈ (s.ctl.precondition_context j (p.context s.ctl).readiness true true p.now).results,
    r.status = .Satisfied
  topology : (s.step e).ctl.topology = s.ctl.topology
  policy : (s.step e).ctl.policy = s.ctl.policy
  targets : j'.targets = j.targets
  binding : j'.binding = j.binding

/-- A job that enters `InMaintenance` waited for it, and keeps its binding. -/
theorem Configured.starts (h : s.Configured) (hs : s.Sound) {id : JobId} {j' : MaintenanceJob}
    (hj' : (s.step e).job id = some j') (hafter : j'.state = .InMaintenance)
    (hbefore : ∀ j, s.job id = some j → j.state ≠ .InMaintenance) :
    ∃ p j, s.Starts e p j j' := by
  obtain ⟨p, j, hdriving, hj, hserves, started⟩ := hs.entered_maintenance hj' hafter hbefore
  obtain ⟨hlabel, hpass, _, rest, hremaining⟩ := driving_spec hdriving
  have hcleared := hs.cleared hj started.gate
  have hid : j.id = id := Table.key_of_find hj
  have hctl := step_drive_ctl hdriving
  by_cases hup : s.up = true
  · rw [if_pos hup] at hctl
    obtain ⟨hframe, _⟩ := (under s.ctl e.verdicts).keeps_drive_locked j.id
      (p.context (under s.ctl e.verdicts)) p.actions
    refine ⟨p, j, Table.mem_of_find hj, ⟨by rw [started.ready]; rfl, hserves, hcleared.scope⟩,
      ⟨h.topology hup, h.policy hup⟩, hcleared, ?_, ?_, ?_, ?_, ?_⟩
    · -- The license of the drive holds the evaluation it acted on.
      have hremoved : j'.service_removed = true := by
        have hfits := ((hs.step e).world.job hj').fits
        rw [show j'.core.state = .InMaintenance from hafter] at hfits
        exact hfits
      rcases (changes_step hs e).removal hs.world hj' hremoved with ⟨x, hx, hgone⟩ | hlicensed
      · cases Option.some.inj (hj.symm.trans hx)
        rw [hserves] at hgone
        cases hgone
      · rcases license_edits hlicensed with ⟨q, x, hdrives, _, hmay⟩ | hother
        · cases Option.some.inj (hdriving.symm.trans hdrives)
          exact satisfied_of_clean hmay.2.1 hmay.2.2
        · rcases hother with hk | hk | hk | hk | hk | hk <;> cases hk
    · rw [hctl]
      exact hframe.topology
    · rw [hctl]
      exact hframe.policy
    · obtain ⟨_, _, hcore⟩ := started.core
      exact congrArg Core.targets hcore
    -- A job that starts does not come from validation, so the drive has not bound it anew.
    · have hrow : j' ∈ (s.step e).ctl.world.jobs.rows := Table.mem_of_find hj'
      rw [hctl] at hrow
      rcases Controller.rows_drive_locked _ _ _ _ hrow with hkept | ⟨x, hx, hcarries⟩
      · have hsame : s.job id = some j' :=
          (Table.key_of_find hj' : j'.id = id) ▸ Table.find_iff_mem.mpr hkept
        rw [Option.some.inj (hj.symm.trans hsame)]
      · cases Option.some.inj ((hid ▸ hj : s.job j.id = some j).symm.trans hx)
        have hrebound : (under s.ctl e.verdicts).rebound j = j :=
          if_neg (fun hv => by rw [started.ready] at hv; cases hv.1)
        rw [hrebound] at hcarries
        exact hcarries.binding
  · -- Where no process runs nothing is driven, and the job stays as it was.
    rw [if_neg hup] at hctl
    have hsame : s.job id = some j' := by
      unfold System.job at hj' ⊢
      rw [hctl] at hj'
      exact hj'
    exact absurd hafter (hbefore j' hsame)

/-! ## The policy -/

/-- Every policy that is put in force can be told by its revision from the one a waiting job was
    validated under, or is the same. -/
def PolicyTold (s : System) (e : Event) : Prop :=
  ∀ p ∈ s.new_policy e, ∀ j ∈ s.ctl.world.jobs.rows, Waiting j →
    (j.policy_revision.valid = true ∧ j.policy_revision ≠ p.revision) ∨ j.policy_digest = p.digest

instance (s : System) (e : Event) : Decidable (PolicyTold s e) :=
  inferInstanceAs (Decidable (∀ p ∈ s.new_policy e, ∀ j ∈ s.ctl.world.jobs.rows, _))

/-- The gate can tell the policy from the one the binding names, or there is nothing to tell. -/
def Told (_ : Topology) (p : Policy) (_ : List TargetId) (b : Binding) : Prop :=
  (b.policy_revision.valid = true ∧ b.policy_revision ≠ p.revision) ∨ b.policy_digest = p.digest

theorem Configured.told_step (h : s.Configured) (hs : s.Sound) (htold : PolicyTold s e)
    (hfits : Fitted Told s) : Fitted Told (s.step e) := by
  refine h.fitted_step hs ?_ (fun _ _ _ _ _ => .inr rfl)
  intro j hj hwaiting
  cases hnew : s.new_policy e with
  | none => exact hfits j hj hwaiting
  | some p => exact htold p hnew j hj hwaiting

theorem policy_bound_satisfied {c : PreconditionContext} (h : c.policy_bound.status = .Satisfied) :
    ¬ (c.job.policy_revision.valid = true ∧ c.job.policy_revision ≠ c.policy.revision) := by
  intro hchanged
  unfold PreconditionContext.policy_bound at h
  rw [if_pos (by simpa using hchanged)] at h
  cases h

/-- Along a run in which no policy hides behind the revision of another, every job starts under
    the policy it was validated under. -/
theorem started_under_validated_policy (events : List Event) (e : Event) (id : JobId)
    (j' : MaintenanceJob) (htold : Along step PolicyTold initial (events ++ [e]))
    (hj' : (initial.run (events ++ [e])).job id = some j') (hafter : j'.state = .InMaintenance)
    (hbefore : ∀ j, (initial.run events).job id = some j → j.state ≠ .InMaintenance) :
    (initial.run (events ++ [e])).ctl.policy.digest = j'.policy_digest := by
  have hinv : (initial.run events).Sound ∧ (initial.run events).Configured ∧
      Fitted Told (initial.run events) := by
    refine (Along.append.mp htold).1.invariant
      (I := fun s => s.Sound ∧ s.Configured ∧ Fitted Told s) ?_
      ⟨sound_initial, configured_initial, fitted_initial⟩
    intro s e htold ⟨hs, hconfigured, hfits⟩
    exact ⟨hs.step e, (hconfigured.step e).configured, hconfigured.told_step hs htold hfits⟩
  rw [run_snoc] at hj' ⊢
  generalize initial.run events = s at *
  obtain ⟨hs, hconfigured, hfits⟩ := hinv
  obtain ⟨p, j, starts⟩ := hconfigured.starts hs hj' hafter hbefore
  have hbound := policy_bound_satisfied (starts.clean _ List.mem_cons_self)
  rw [starts.policy, show j'.policy_digest = j.policy_digest from
    congrArg Binding.policy_digest starts.binding]
  rcases hfits j starts.stored starts.waiting with htold | hsame
  · rw [← starts.configured.2] at htold
    exact absurd htold hbound
  · rw [starts.configured.2]
    exact hsame.symm

end System

/-! ## Another policy under the same revision -/

namespace Drill

/-- As `ready`, for one job, with one call more when the job is ready. -/
def interrupted (label : Label) : List Event :=
  [boot 0, call (.set_topology topology), call (.set_policy policy), health 1 0, propose 0,
    approve 1 0] ++ tick 0 1 ++ tick (ms 100) 1 ++
    [call label, call (.tick 0 (ms 200)), call (.begin_pass 0)]

/-- More rounds of verification, under the revision of `policy`. -/
def patient : Policy := { policy with max_verification_attempts := 9 }

end Drill

namespace System

/-- The same policy again is no other policy. -/
theorem restated_policy_starts :
    ∃ j', (initial.run (Drill.interrupted (.set_policy Drill.policy) ++
      [Drill.call .pass_step])).job ⟨1⟩ = some j' ∧
      j'.state = .InMaintenance ∧
      (initial.run (Drill.interrupted (.set_policy Drill.policy) ++
        [Drill.call .pass_step])).ctl.policy.digest =
        j'.policy_digest := by
  obtain ⟨j', hj', hafter⟩ := job_of_field
    (initial.run (Drill.interrupted (.set_policy Drill.policy) ++ [Drill.call .pass_step])) ⟨1⟩
    MaintenanceJob.state (a := .InMaintenance) (by decide +kernel)
  obtain ⟨j, hj, hready⟩ :=
    job_of_field (initial.run (Drill.interrupted (.set_policy Drill.policy))) ⟨1⟩
    MaintenanceJob.state (a := .Ready) (by decide +kernel)
  refine ⟨j', hj', hafter,
    started_under_validated_policy _ _ ⟨1⟩ j' (by decide +kernel) hj' hafter ?_⟩
  intro x hx
  cases Option.some.inj (hj.symm.trans hx)
  rw [hready]
  decide

/-- The job was validated under `policy` and starts under `patient`. -/
theorem started_under_another_policy :
    ∃ j j', (initial.run (Drill.interrupted (.set_policy Drill.patient))).job ⟨1⟩ =
      some j ∧ j.state = .Ready ∧
      (initial.run (Drill.interrupted (.set_policy Drill.patient) ++
        [Drill.call .pass_step])).job ⟨1⟩ = some j' ∧
      j'.state = .InMaintenance ∧
      (initial.run (Drill.interrupted (.set_policy Drill.patient) ++
        [Drill.call .pass_step])).ctl.policy.digest ≠
        j'.policy_digest := by
  obtain ⟨j, hj, hready⟩ :=
    job_of_field (initial.run (Drill.interrupted (.set_policy Drill.patient))) ⟨1⟩
    MaintenanceJob.state (a := .Ready) (by decide +kernel)
  obtain ⟨j', hj', hf⟩ := job_of_field
    (initial.run (Drill.interrupted (.set_policy Drill.patient) ++ [Drill.call .pass_step])) ⟨1⟩
    (fun j => (j.state, j.policy_digest)) (a := (.InMaintenance, Drill.policy.digest))
    (by decide +kernel)
  obtain ⟨hafter, hdigest⟩ := Prod.mk.inj hf
  refine ⟨j, j', hj, hready, hj', hafter, ?_⟩
  rw [hdigest]
  decide +kernel

end System

end MaintenanceFabric
