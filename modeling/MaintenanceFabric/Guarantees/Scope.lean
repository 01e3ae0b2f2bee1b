import MaintenanceFabric.Guarantees.Binding
import MaintenanceFabric.Guarantees.JointSafety

/-! # The scope that is taken out

    The scope of a job is what its targets meant in the topology it was
    validated in.  Arbitration projects that scope against the topology in
    force, and refuses it when a member is not declared or not maintainable;
    nobody expands it again.  A topology that is put in force later is compared
    neither with the scope nor with what arbitration has found.
-/

namespace MaintenanceFabric

open Lib

/-! ## Where reservations come from -/

/-- The same scope, for the same generation of the same job. -/
structure AuthorityReservation.Continues (r r' : AuthorityReservation) : Prop where
  job : r'.job = r.job
  generation : r'.generation = r.generation
  targets : r'.targets = r.targets

/-- A change that neither grants nor restarts brings no new scope into the ledger. -/
theorem Change.row_source {L : License} {w w' : World} (h : Change L w w') (hgrants : ¬ L.grants)
    (hrestart : ¬ L.restarts) {r' : AuthorityReservation}
    (hr' : r' ∈ w'.ledger.reservations.rows) :
    ∃ r ∈ w.ledger.reservations.rows, r.Continues r' := by
  have same : r' ∈ w.ledger.reservations.rows → ∃ r ∈ w.ledger.reservations.rows, r.Continues r' :=
    fun hr => ⟨r', hr, rfl, rfl, rfl⟩
  cases h with
  | retired _ _ _ _ _ _ => exact same (Table.mem_erase.mp hr').1
  | dropped _ _ => exact same (Table.mem_erase.mp hr').1
  | reserved _ stage =>
    rcases stage with ⟨_, hgranted⟩ | hrestarted
    · exact absurd hgranted hgrants
    · exact absurd hrestarted hrestart
  | @renewed r e v held _ =>
    rcases Table.mem_put.mp hr' with rfl | ⟨hr, _⟩
    · exact ⟨r, held, rfl, rfl, rfl⟩
    · exact same hr
  | expired _ _ => exact same (Table.mem_filter.mp hr').1
  | reopened _ _ licensed _ => exact absurd licensed hrestart
  | halted _ licensed => exact absurd licensed hrestart
  | fenced licensed => exact absurd licensed hrestart
  | edited _ _ _ _ _ => exact same hr'
  | created _ _ _ => exact same hr'
  | authored _ _ _ => exact same hr'
  | observed _ _ => exact same hr'

theorem Changes.row_source {L : License} {w w' : World} (h : Changes L w w') (hgrants : ¬ L.grants)
    (hrestart : ¬ L.restarts) {r' : AuthorityReservation}
    (hr' : r' ∈ w'.ledger.reservations.rows) :
    ∃ r ∈ w.ledger.reservations.rows, r.Continues r' := by
  induction h generalizing r' with
  | refl => exact ⟨r', hr', rfl, rfl, rfl⟩
  | tail _ hstep ih =>
    obtain ⟨m, hm, hlast⟩ := hstep.row_source hgrants hrestart hr'
    obtain ⟨r, hr, hfirst⟩ := ih hm
    exact ⟨r, hr, hlast.job.trans hfirst.job, hlast.generation.trans hfirst.generation,
      hlast.targets.trans hfirst.targets⟩

/-- Every member of the scope is declared and maintainable. -/
def Removable (t : Topology) (scope : List TargetId) : Prop :=
  ∀ m ∈ scope, (t.target m).any TargetRecord.maintainable = true

instance (t : Topology) (scope : List TargetId) : Decidable (Removable t scope) :=
  inferInstanceAs (Decidable (∀ m ∈ scope, _))

namespace ArbitrationContext

/-- Arbitration stages no scope that has a member it may not take out. -/
theorem decide_all_removable (c : ArbitrationContext) : ∀ (candidates : List ArbitrationCandidate)
    (position granted : Nat) (ledger : AuthorityLedger) {r : AuthorityReservation},
    r ∈ (c.decide_all candidates position granted ledger).2.reservations.rows →
    r ∈ ledger.reservations.rows ∨ Removable c.topology r.targets
  | [], _, _, _, _, h => .inl h
  | candidate :: rest, position, granted, ledger, r, h => by
      unfold decide_all at h
      have hspec := c.decide_candidate_spec candidate position granted ledger
      generalize c.decide_candidate candidate position granted ledger = decided at hspec h
      obtain ⟨decision, next⟩ := decided
      simp only at hspec h
      rcases c.decide_all_removable rest _ _ next h with hr | hfit
      · obtain ⟨_, ⟨_, rfl⟩ | ⟨_, _, j, g, _, _, hacquired⟩⟩ := hspec
        · exact .inl hr
        · rw [hacquired.ledger] at hr
          rcases Table.mem_put.mp hr with rfl | ⟨hr, _⟩
          · right
            intro m hm
            have hplanned := (hacquired.scope m).mp hm
            refine (hacquired.bounds.targets m ?_).2 hplanned
            unfold ImpactInput.is_removed
            rw [Bool.or_eq_true]
            exact .inr (decide_eq_true hplanned)
          · exact .inl hr
      · exact .inr hfit

end ArbitrationContext

namespace Controller

theorem rows_transition (d : Drive) (to_state : JobState) (reason : BlockReason) (detail : Text)
    (now : Nanos) {g : AuthorityReservation}
    (h : g ∈ (d.transition_locked to_state reason detail
      now).2.ctl.world.ledger.reservations.rows) :
    g ∈ d.ctl.world.ledger.reservations.rows := by
  rcases Drive.transition_cases d to_state reason detail now with hno | ⟨_, _, hmoved⟩
  · rw [hno] at h
    exact h
  · rcases hmoved.world with hw | ⟨hw, _⟩
    · rw [hw] at h
      exact h
    · rw [hw] at h
      exact (Table.mem_erase.mp h).1

theorem ledger_commit (c : Controller) (job : MaintenanceJob) (now : Nanos) :
    (c.commit_job_locked job now).2.world.ledger = c.world.ledger := by
  rcases commit_job_locked_cases c job now with ⟨_, _, hw⟩ | ⟨_, _, _, _, hw⟩
  · rw [hw]
  · rw [hw]

/-- Applying a decision installs nothing that was not staged. -/
theorem rows_apply_decision (c : Controller) (staging : AuthorityLedger) (now : Nanos)
    (decision : ArbitrationDecision) {g : AuthorityReservation}
    (h : g ∈ (apply_decision staging now c decision).world.ledger.reservations.rows) :
    g ∈ c.world.ledger.reservations.rows ∨ g ∈ staging.reservations.rows := by
  unfold apply_decision at h
  split at h
  · unfold apply_denial at h
    split at h
    · exact .inl h
    · split at h
      · exact .inl h
      · rw [ledger_commit] at h
        exact .inl (rows_transition _ _ _ _ _ h)
  -- A grant brings in the row that was staged for it, if the store takes the row.
  · unfold apply_grant at h
    split at h
    · next current granted _ hstaged =>
      rcases c.store.insert_authority_cases granted with ⟨e, he, hb⟩ | ⟨ledger, hadopt, hok, hb⟩
      · split at h
        · next heq =>
          rw [heq] at hb
          rw [world_of_books hb] at h
          exact .inl h
        · next heq =>
          rw [heq] at he
          cases he
      · split at h
        · next heq =>
          rw [heq] at hok
          cases hok
        · next store heq =>
          rw [heq] at hb
          rw [ledger_commit] at h
          have hledger : ({ c with store } : Controller).world.ledger = ledger :=
            congrArg (fun b => b.ledger) hb
          rw [hledger, AuthorityLedger.adopt_ok hadopt] at h
          rcases Table.mem_put.mp h with rfl | ⟨h, _⟩
          · exact .inr (Table.mem_of_find hstaged)
          · exact .inl h
    · exact .inl h
  · exact .inl h

theorem rows_apply_decisions (staging : AuthorityLedger) (now : Nanos) {g : AuthorityReservation} :
    ∀ (ds : List ArbitrationDecision) (c : Controller),
      g ∈ (ds.foldl (apply_decision staging now) c).world.ledger.reservations.rows →
      g ∈ c.world.ledger.reservations.rows ∨ g ∈ staging.reservations.rows
  | [], _, h => .inl h
  | d :: ds, c, h => by
      rcases rows_apply_decisions staging now ds _ h with hfirst | hstaged
      · exact c.rows_apply_decision staging now d hfirst
      · exact .inr hstaged

/-- A reservation that arbitration adds covers a scope that may be taken out. -/
theorem rows_arbitrate_locked (c : Controller) (context : PassContext) {g : AuthorityReservation}
    (h : g ∈ (c.arbitrate_locked context).world.ledger.reservations.rows) :
    g ∈ c.world.ledger.reservations.rows ∨ Removable c.topology g.targets := by
  unfold arbitrate_locked arbitrate at h
  rcases rows_apply_decisions _ _ _ c h with hkept | hstaged
  · exact .inl hkept
  · exact ArbitrationContext.decide_all_removable _ _ _ _ _ hstaged

/-! ## Restarts -/

/-- A restart reserves only for a job that has removed service. -/
theorem rows_reconcile_job (r : Reconciling) (job : MaintenanceJob) (now : Nanos)
    {g : AuthorityReservation}
    (h : g ∈ (reconcile_job r job now).ctl.world.ledger.reservations.rows) :
    g ∈ r.ctl.world.ledger.reservations.rows ∨ g.job = job.id ∧ job.service_removed = true := by
  have hreblocked : ∀ (c : Controller) (updated : MaintenanceJob),
      g ∈ (c.reblocked updated job.service_removed now).2.ctl.world.ledger.reservations.rows →
      g ∈ c.world.ledger.reservations.rows := by
    intro c updated h
    unfold reblocked at h
    split at h
    · exact rows_transition _ _ _ _ _ h
    · exact h
  rw [reconcile_job_eq] at h
  split at h
  · have hcopied := hreblocked _ _ h
    unfold Reconciling.copied at hcopied
    by_cases hremoved : job.service_removed = true
    · have hrows : g ∈ (r.ctl.reissue job now).2.world.ledger.reservations.rows := by
        rw [if_pos hremoved] at hcopied
        exact hcopied
      unfold reissue at hrows
      simp only at hrows
      generalize hq : r.ctl.reissued_reservation
        (r.ctl.new_attempt_locked (r.ctl.fenced_job job now) now) now = request at hrows
      have hjob : request.job = job.id := by
        rw [← hq]
        rfl
      rcases r.ctl.store.reserve_authority_cases request
        with ⟨e, he, hb⟩ | ⟨granted, staging, hres, hok, hb⟩
      -- The reservation was refused: the ledger is as it was.
      · left
        split at hrows
        · next heq =>
          rw [heq] at hb
          rw [world_of_books hb] at hrows
          exact hrows
        · next heq =>
          rw [heq] at he
          cases he
      · split at hrows
        · next heq =>
          rw [heq] at hok
          cases hok
        · next id store heq =>
          rw [heq] at hb
          have hledger : ({ r.ctl with store } : Controller).world.ledger = staging :=
            congrArg (fun b => b.ledger) hb
          obtain ⟨hgranted, hstaging, _, _⟩ := AuthorityLedger.reserve_ok hres
          rw [hledger, hstaging] at hrows
          rcases Table.mem_put.mp hrows with rfl | ⟨hrows, _⟩
          · right
            refine ⟨?_, hremoved⟩
            rw [hgranted]
            exact hjob
          · exact .inl hrows
    -- Nothing has been removed, so the lease is given up and no reservation is asked for.
    · have habandoned : (r.ctl.abandon_lease job r.releases now).2.1.world = r.ctl.world := by
        unfold abandon_lease
        simp only
        split <;> rfl
      rw [if_neg hremoved, habandoned] at hcopied
      exact .inl hcopied
  · exact .inl h

theorem rows_reconcile_locked (c : Controller) (now : Nanos) {g : AuthorityReservation}
    (h : g ∈ (c.reconcile_locked now).2.world.ledger.reservations.rows) :
    g ∈ c.world.ledger.reservations.rows ∨
      ∃ j ∈ c.world.jobs.rows, j.id = g.job ∧ j.service_removed = true := by
  -- The induction is on the jobs; a row is charged to the job that was reconciled when it came.
  have hloop : ∀ (jobs : List MaintenanceJob) (r : Reconciling),
      g ∈ (jobs.foldl (fun r job => reconcile_job r job now) r).ctl.world.ledger.reservations.rows →
      g ∈ r.ctl.world.ledger.reservations.rows ∨
        ∃ j ∈ jobs, j.id = g.job ∧ j.service_removed = true := by
    intro jobs
    induction jobs with
    | nil => exact fun r h => .inl h
    | cons job jobs ih =>
      intro r h
      rcases ih _ h with hfirst | ⟨j, hj, hspec⟩
      · rcases rows_reconcile_job r job now hfirst with hkept | ⟨hjob, hremoved⟩
        · exact .inl hkept
        · exact .inr ⟨job, List.mem_cons_self, hjob.symm, hremoved⟩
      · exact .inr ⟨j, List.mem_cons_of_mem _ hj, hspec⟩
  have hfence := c.store.fence_authority_books c.incarnation
  have hfenced : g ∈ (c.store.fence_authority c.incarnation).books.ledger.reservations.rows →
      g ∈ c.world.ledger.reservations.rows := by
    intro h
    rcases hfence with hb | hb
    · rw [hb] at h
      exact h
    · rw [hb] at h
      exact (Table.mem_filter.mp h).1
  have hjobs : (c.store.fence_authority c.incarnation).state.jobs.jobs.rows =
    c.world.jobs.rows := by
    rcases hfence with hb | hb
    · exact congrArg (fun b => b.jobs.rows) hb
    · exact congrArg (fun b => b.jobs.rows) hb
  have hloop := hloop (c.store.fence_authority c.incarnation).state.jobs.jobs.rows
    { ctl := { c with store := c.store.fence_authority c.incarnation } }
  unfold reconcile_locked at h
  simp only at h
  generalize List.foldl _ _ _ = r at h hloop
  rw [hjobs] at hloop
  have hcommitted := (r.ctl.store.commit_jobs_aside (r.updates.map (r.ctl.stamped now))).1
  -- The commit at the end writes jobs only.
  have hend : g ∈ r.ctl.world.ledger.reservations.rows → g ∈ c.world.ledger.reservations.rows ∨
      ∃ j ∈ c.world.jobs.rows, j.id = g.job ∧ j.service_removed = true :=
    fun h => (hloop h).imp_left hfenced
  split at h
  · exact hend h
  · split at h
    · next heq =>
      rw [heq] at hcommitted
      exact hend (hcommitted ▸ h)
    · next heq =>
      rw [heq] at hcommitted
      exact hend (hcommitted ▸ h)

end Controller

/-! ## Steps -/

namespace System

variable {s : System} {e : Event}

/-- A reservation found after a step was there before, is of a job that is out of service, or has
    just been granted for a scope that may be taken out. -/
theorem Sound.row_source (h : s.Sound) {g : AuthorityReservation}
    (hg : g ∈ (s.step e).ctl.world.ledger.reservations.rows) :
    (∃ r ∈ s.ctl.world.ledger.reservations.rows, r.Continues g) ∨
    (∃ j ∈ s.ctl.world.jobs.rows, j.id = g.job ∧ j.service_removed = true) ∨
    (s.up = true ∧ e.label = .pass_step ∧ Removable s.ctl.topology g.targets) := by
  have hchanges := changes_step h e
  have hlicensed := s.licensed e
  generalize s.license e = L at hchanges hlicensed
  have hplain : ¬ L.grants → ¬ L.restarts →
      ∃ r ∈ s.ctl.world.ledger.reservations.rows, r.Continues g :=
    fun hgrants hrestart => hchanges.row_source hgrants hrestart hg
  -- Only a restart and the arbitration of a pass put a row into the ledger.
  cases hlicensed with
  | @restart options clock steady label =>
    have hstep : s.step e =
        System.restart { s with ctl := under s.ctl e.verdicts } options clock steady := by
      unfold System.step
      simp only [label]
    rw [hstep] at hg
    unfold System.restart at hg
    simp only at hg
    rcases Controller.open_cases (under s.ctl e.verdicts).store options clock steady with
      ⟨_, _, _, hledger, _⟩ | ⟨c, _, hboots, hopen⟩
    · rw [hledger] at hg
      exact .inl ⟨g, hg, rfl, rfl, rfl⟩
    · rw [hopen] at hg
      rcases c.rows_reconcile_locked clock hg with hkept | ⟨j, hj, hspec⟩
      · rw [hboots.ledger] at hkept
        exact .inl ⟨g, hkept, rfl, rfl, rfl⟩
      · rw [hboots.jobs] at hj
        exact .inr (.inl ⟨j, hj, hspec⟩)
  | @arbitration p label pass remaining =>
    by_cases up : s.up = true
    · have hctl : (s.step e).ctl = (((under s.ctl e.verdicts).arbitrate_locked
          (p.context (under s.ctl e.verdicts))).sweep_orphans p.actions).1 := by
        unfold System.step
        simp only [label, up, if_true, pass]
        unfold pass_step
        simp only [remaining]
      rw [hctl, world_sweep_orphans] at hg
      rcases Controller.rows_arbitrate_locked _ _ hg with hkept | hfit
      · exact .inl ⟨g, hkept, rfl, rfl, rfl⟩
      · exact .inr (.inr ⟨up, label, hfit⟩)
    · have hctl : (s.step e).ctl = under s.ctl e.verdicts := by
        unfold System.step
        simp only [label, up, Bool.false_eq_true, if_false]
      rw [hctl] at hg
      exact .inl ⟨g, hg, rfl, rfl, rfl⟩
  | drive _ _ _ => exact .inl (hplain id id)
  | expiry _ _ => exact .inl (hplain id id)
  | outcome _ _ _ => exact .inl (hplain id id)
  | idle => exact .inl (hplain id id)
  | call => exact .inl (hplain id id)

/-! ## The topology -/

/-- A reservation is on the books for the job as it is. -/
def Backed (s : System) (j : MaintenanceJob) : Prop :=
  (s.ctl.store.state.ledger.find_for_job j.id j.generation).isSome = true

instance (s : System) (j : MaintenanceJob) : Decidable (s.Backed j) :=
  inferInstanceAs (Decidable (_ = true))

theorem backed_iff {j : MaintenanceJob} : s.Backed j ↔
    ∃ r ∈ s.ctl.world.ledger.reservations.rows, r.job = j.id ∧ r.generation = j.generation := by
  unfold Backed AuthorityLedger.find_for_job
  rw [List.find?_isSome]
  simp only [decide_eq_true_eq]
  exact Iff.rfl

/-- Every topology that is put in force expands the targets of a waiting job to the scope the job
    has, and lets that scope be taken out if a reservation already stands for it. -/
def ScopeStands (s : System) (e : Event) : Prop :=
  ∀ t ∈ s.new_topology e, ∀ j ∈ s.ctl.world.jobs.rows, Waiting j →
    j.removal_set = t.removal_set j.targets ∧ (s.Backed j → Removable t j.removal_set)

instance (s : System) (e : Event) : Decidable (ScopeStands s e) :=
  inferInstanceAs (Decidable (∀ t ∈ s.new_topology e, ∀ j ∈ s.ctl.world.jobs.rows, _))

/-- The scope is the expansion of the targets. -/
def Expands (t : Topology) (_ : Policy) (targets : List TargetId) (b : Binding) : Prop :=
  b.removal_set = t.removal_set targets

theorem Configured.expands_step (h : s.Configured) (hs : s.Sound) (hstands : ScopeStands s e)
    (hfits : Fitted Expands s) : Fitted Expands (s.step e) := by
  refine h.fitted_step hs ?_ (fun _ _ _ _ _ => rfl)
  intro j hj hwaiting
  cases hnew : s.new_topology e with
  | none => exact hfits j hj hwaiting
  | some t => exact (hstands t hnew j hj hwaiting).1

/-- What is reserved for a waiting job may be taken out. -/
def ReservedRemovable (s : System) : Prop :=
  ∀ j ∈ s.ctl.world.jobs.rows, Waiting j → s.Backed j →
    Removable s.ctl.store.state.topology j.removal_set

theorem Configured.reserved_step (h : s.Configured) (hs : s.Sound) (hstands : ScopeStands s e)
    (hreserved : s.ReservedRemovable) : (s.step e).ReservedRemovable := by
  have hbinds := h.step e
  intro j' hj' ⟨halive, hserves, _⟩ hbacked
  obtain ⟨g, hg, hjob, hgen⟩ := backed_iff.mp hbacked
  have hscope : ∀ m ∈ j'.removal_set, m ∈ g.targets := fun m hm =>
    ((hs.step e).held_scope (Table.find_iff_mem.mpr hj') hg hjob hgen m).mpr hm
  rw [hbinds.topology]
  rcases hs.row_source hg with ⟨r, hr, hcontinues⟩ | ⟨j, hj, hid, hremoved⟩ | ⟨hup, label, hfit⟩
  · -- The reservation was there before, and so was the job, in the same generation.
    obtain ⟨_, hnonempty, _, k, hk, _, hle, hcovers⟩ := hs.world.holds r hr
    have hkid : k.id = r.job := Table.key_of_find hk
    have hmem : k ∈ s.ctl.world.jobs.rows := Table.mem_of_find hk
    have hid : j'.id = k.id := by rw [hkid, ← hcontinues.job, hjob]
    obtain ⟨hkalive, hkserves, _, hgrows⟩ := hs.waited hmem hj' hid halive hserves
    have hsame : r.generation = k.generation := by
      refine le_antisymm hle ?_
      rw [← hcontinues.generation, hgen]
      exact hgrows
    have hkscope := hcovers hsame
    have hwaiting : Waiting k := by
      refine ⟨hkalive, hkserves, ?_⟩
      intro hempty
      obtain ⟨m, hm⟩ := List.exists_mem_of_ne_nil _ hnonempty
      have hno := (hkscope m).mp hm
      rw [hempty] at hno
      cases hno
    have hkbacked : s.Backed k := backed_iff.mpr ⟨r, hr, hkid.symm, hsame⟩
    intro m hm
    have hmk : m ∈ k.removal_set := (hkscope m).mp (hcontinues.targets ▸ hscope m hm)
    cases hnew : s.new_topology e with
    | none => exact hreserved k hmem hwaiting hkbacked m hmk
    | some t => exact (hstands t hnew k hmem hwaiting).2 hkbacked m hmk
  -- A row made at a restart is for a job that is out of service, which does not wait.
  · have hkept := (hs.waited hj hj' (hjob.symm.trans hid.symm) halive hserves).2.1
    rw [hremoved] at hkept
    cases hkept
  -- A row made by arbitration: the scope was judged under the topology in force.
  · have hnone : s.new_topology e = none := by
      unfold new_topology
      rw [label]
    rw [hnone, Option.getD_none, ← h.topology hup]
    exact fun m hm => hfit m (hscope m hm)

/-- Along a run in which every new topology leaves the scopes of waiting jobs standing, a start
    takes out what the targets of the job mean at that moment, and nothing it may not. -/
theorem removed_scope_is_current (events : List Event) (e : Event)
    (id : JobId) (j' : MaintenanceJob)
    (hstands : Along step ScopeStands initial (events ++ [e]))
    (hj' : (initial.run (events ++ [e])).job id = some j') (hafter : j'.state = .InMaintenance)
    (hbefore : ∀ j, (initial.run events).job id = some j → j.state ≠ .InMaintenance) :
    j'.removal_set = (initial.run (events ++ [e])).ctl.topology.removal_set j'.targets ∧
      Removable (initial.run (events ++ [e])).ctl.topology j'.removal_set := by
  have hinv : (initial.run events).Sound ∧ (initial.run events).Configured ∧
      Fitted Expands (initial.run events) ∧ (initial.run events).ReservedRemovable := by
    refine (Along.append.mp hstands).1.invariant
      (I := fun s => s.Sound ∧ s.Configured ∧ Fitted Expands s ∧ s.ReservedRemovable) ?_
      ⟨sound_initial, configured_initial, fitted_initial, fun _ hj => by cases hj⟩
    intro s e hstands ⟨hs, hconfigured, hfits, hreserved⟩
    exact ⟨hs.step e, (hconfigured.step e).configured, hconfigured.expands_step hs hstands hfits,
      hconfigured.reserved_step hs hstands hreserved⟩
  rw [run_snoc] at hj' ⊢
  generalize initial.run events = s at *
  obtain ⟨hs, hconfigured, hfits, hreserved⟩ := hinv
  obtain ⟨p, j, starts⟩ := hconfigured.starts hs hj' hafter hbefore
  have hscope : j'.removal_set = j.removal_set := congrArg Binding.removal_set starts.binding
  obtain ⟨r, hr, hjob, hgen, _⟩ := starts.cleared.authority
  rw [starts.topology, starts.configured.1, hscope, starts.targets]
  exact ⟨hfits j starts.stored starts.waiting,
    hreserved j starts.stored starts.waiting (backed_iff.mpr ⟨r, hr, hjob, hgen⟩)⟩

end System

/-! ## A switch that gets a link -/

namespace Drill

def link : TargetId := { kind := .Link, index := 1 }

/-- The switch contains a link now. -/
def wired : Topology :=
  match topology.add_target { id := link, parent := some switch } with
  | .ok t => t
  | .error _ => {}

end Drill

namespace System

/-- The same topology again leaves every scope standing. -/
theorem restated_scope_is_current :
    ∃ j', (initial.run (Drill.interrupted (.set_topology Drill.topology) ++
        [Drill.call .pass_step])).job ⟨1⟩ = some j' ∧ j'.state = .InMaintenance ∧
      j'.removal_set = (initial.run (Drill.interrupted (.set_topology Drill.topology) ++
        [Drill.call .pass_step])).ctl.topology.removal_set j'.targets := by
  obtain ⟨j', hj', hafter⟩ := job_of_field (initial.run
    (Drill.interrupted (.set_topology Drill.topology) ++ [Drill.call .pass_step])) ⟨1⟩
    MaintenanceJob.state (a := .InMaintenance) (by decide +kernel)
  obtain ⟨j, hj, hready⟩ := job_of_field
    (initial.run (Drill.interrupted (.set_topology Drill.topology))) ⟨1⟩
    MaintenanceJob.state (a := .Ready) (by decide +kernel)
  have hcurrent := removed_scope_is_current (Drill.interrupted (.set_topology Drill.topology))
    (Drill.call .pass_step) ⟨1⟩ j' (by decide +kernel) hj' hafter (by
      intro x hx
      cases Option.some.inj (hj.symm.trans hx)
      rw [hready]
      decide)
  exact ⟨j', hj', hafter, hcurrent.1⟩

/-- The switch goes into maintenance and the link in it is not in the scope. -/
theorem link_is_not_in_removed_scope :
    ∃ j j', (initial.run (Drill.interrupted (.set_topology Drill.wired))).job ⟨1⟩ = some j ∧
      j.state = .Ready ∧
      (initial.run (Drill.interrupted (.set_topology Drill.wired) ++
        [Drill.call .pass_step])).job ⟨1⟩ = some j' ∧ j'.state = .InMaintenance ∧
      Drill.link ∈ (initial.run (Drill.interrupted (.set_topology Drill.wired) ++
        [Drill.call .pass_step])).ctl.topology.removal_set j'.targets ∧
      Drill.link ∉ j'.removal_set := by
  obtain ⟨j, hj, hready⟩ := job_of_field
    (initial.run (Drill.interrupted (.set_topology Drill.wired))) ⟨1⟩
    MaintenanceJob.state (a := .Ready) (by decide +kernel)
  obtain ⟨j', hj', hf⟩ := job_of_field (initial.run
    (Drill.interrupted (.set_topology Drill.wired) ++ [Drill.call .pass_step])) ⟨1⟩
    (fun j => (j.state, j.targets, j.removal_set))
    (a := (.InMaintenance, [Drill.switch], [Drill.switch])) (by decide +kernel)
  simp only [Prod.mk.injEq] at hf
  obtain ⟨hafter, htargets, hscope⟩ := hf
  refine ⟨j, j', hj, hready, hj', hafter, ?_, ?_⟩
  · rw [htargets]
    decide +kernel
  · rw [hscope]
    decide

end System

end MaintenanceFabric
