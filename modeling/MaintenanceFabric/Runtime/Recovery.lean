import MaintenanceFabric.Runtime.Effects

/-! # Restart as changes

    Opening claims an epoch, fences what older incarnations held, reissues the
    authority of every scope that is out of service and then commits all
    reconciled jobs at once.
-/

namespace MaintenanceFabric

open Lib

def restart_license : License where
  edits _ k := k = .reconciled
  writes _ := False
  observes _ := False
  expires _ := False
  restarts := True
  faulty := False

namespace Controller

/-! ## One reconciled job -/

/-- A prepared copy ends in `Blocked` with nothing released. -/
theorem reblocked_spec (c : Controller) {j prepared : MaintenanceJob} (now : Nanos)
    (hcore : ∃ a l, prepared.core =
      if j.service_removed then
      ({ j.core with active_attempt := {}, authority := a, lease := l }).mint
      else { j.core with active_attempt := {}, authority := a, lease := l })
    (hkept : j.service_removed = false → prepared.authority = ⟨0⟩)
    (alive : j.state.is_terminal = false) (past : j.state ≠ .Proposed ∧ j.state ≠ .Validated) :
    (c.reblocked prepared j.service_removed now).2.ctl.world = c.world ∧
      ((c.reblocked prepared j.service_removed now).1 = true →
        Edit .reconciled j.core (c.reblocked prepared j.service_removed now).2.job.core ∧
        ((c.reblocked prepared j.service_removed now).2.job.authority = prepared.authority ∨
          (c.reblocked prepared j.service_removed now).2.job.authority = ⟨0⟩)) := by
  obtain ⟨a, l, hcore⟩ := hcore
  have hstate : prepared.state = j.state := by
    refine (congrArg Core.state hcore).trans ?_
    split <;> rfl
  have hremoved : prepared.service_removed = j.service_removed := by
    refine (congrArg Core.service_removed hcore).trans ?_
    split <;> rfl
  unfold reblocked
  split
  · next hblocked =>
    rcases Drive.transition_cases { ctl := c, job := prepared } .Blocked .ReconciledAfterRestart
        (if j.service_removed then
          text "controller restarted while the scope was out of service; verification and restoration are mandatory"
         else text "controller restarted; prerequisites must be re-established") now with
      hno | ⟨_, _, hmoved⟩
    · rw [hno]
      exact ⟨rfl, fun h => by cases h⟩
    · obtain ⟨a', l', hcore', ha'⟩ := hmoved.core
      refine ⟨?_, fun _ => ⟨?_, ?_⟩⟩
      · -- A removed scope keeps its authority; otherwise there is none to release.
        refine hmoved.world.resolve_right (fun h => ?_)
        obtain ⟨-, hg, hvalid⟩ := h
        have hfalse : j.service_removed = false := by
          rw [← hremoved]
          simpa [Drive.gives_back, JobState.is_terminal] using hg
        have hzero : prepared.authority = ⟨0⟩ := hkept hfalse
        have hvalid : prepared.authority.valid = true := hvalid
        rw [hzero] at hvalid
        cases hvalid
      · have hedit : Edit .reconciled j.core
          (j.core.reconcile a' l') := .reconciled a' l' alive past
        have heq : j.core.reconcile a' l' =
            { prepared.core.move .Blocked with authority := a', lease := l' } := by
          rw [hcore]
          unfold Core.reconcile
          rw [hstate] at hblocked
          simp only [show j.core.state = j.state from rfl, if_neg hblocked,
            show j.core.service_removed = j.service_removed from rfl]
          split <;> simp only [Core.move, Core.mint]
        rw [hcore', ← heq]
        exact hedit
      · rw [show (Drive.transition_locked { ctl := c, job := prepared } _ _ _ now).2.job.authority =
          a' from congrArg Core.authority hcore']
        exact ha'
  · next hblocked =>
    have hblocked : j.state = .Blocked := by rw [← hstate]; exact not_not.mp hblocked
    -- Blocked already: the reconciled core is the prepared one as it is.
    refine ⟨rfl, fun _ => ⟨?_, .inl rfl⟩⟩
    have hedit : Edit .reconciled j.core (j.core.reconcile a l) := .reconciled a l alive past
    have heq : j.core.reconcile a l = prepared.core := by
      rw [hcore]
      unfold Core.reconcile
      simp only [show j.core.state = .Blocked from hblocked, if_true,
        show j.core.service_removed = j.service_removed from rfl]
    rw [heq] at hedit
    exact hedit

/-- Reissuing leaves the job without authority, or with a new reservation of its own. -/
theorem reissue_cases (c : Controller) {j : MaintenanceJob} (now : Nanos)
    (stored : c.world.jobs.find j.id = some j) (alive : j.state.is_terminal = false)
    (past : j.state ≠ .Proposed ∧ j.state ≠ .Validated) :
    ∃ a, (c.reissue j now).1.core =
        ({ j.core with active_attempt := {}, authority := a, lease := j.lease }).mint ∧
      (c.reissue j now).2.incarnation = c.incarnation ∧
      (a = ⟨0⟩ ∧ (c.reissue j now).2.world = c.world ∨
       ∃ g, ReservationFor c.world g j ∧ g.id = a ∧
        (c.reissue j now).2.world =
          { c.world with ledger := ⟨c.world.ledger.reservations.put g, g.id.next⟩ }) := by
  unfold reissue
  simp only
  rcases Store.reserve_authority_cases c.store
      (c.reissued_reservation (c.new_attempt_locked (c.fenced_job j now) now) now) with
    ⟨e, he, hb⟩ | ⟨g, staging, hres, hid, hb⟩
  · split
    · next heq =>
      rw [heq] at hb
      exact ⟨⟨0⟩, rfl, rfl, .inl ⟨rfl, world_of_books hb⟩⟩
    · next heq =>
      rw [heq] at he
      cases he
  · split
    · next heq =>
      rw [heq] at hid
      cases hid
    · next id store heq =>
      rw [heq] at hid hb
      cases hid
      -- The ledger numbers the new reservation and sorts its scope; the rest is as requested.
      obtain ⟨hg, hstaging, hattempt, hnonempty⟩ := AuthorityLedger.reserve_ok hres
      refine ⟨g.id, rfl, rfl, .inr ⟨g, ?_, rfl, ?_⟩⟩
      · constructor
        case stored => exact stored
        case alive => exact alive
        case past => exact past
        case job => rw [hg]; rfl
        case generation => rw [hg]; rfl
        case attempt => rw [hg]; exact hattempt
        case owner => rw [hg]; rfl
        case scope =>
          intro t
          rw [hg]
          exact mem_sort
        case nonempty => rw [hg]; exact hnonempty
        case fresh => rw [hg]; exact le_rfl
      · have hnext : g.id.next = c.store.books.ledger.next_id.next := by rw [hg]
        rw [hstaging] at hb
        simp only [world, hb, hnext]

/-! ## The loop -/

/-- Between two rounds of the loop: reservations may have been made, jobs are untouched, and
    the updates wait, at most one per job that has been visited. -/
structure Prepared (c : Controller) (r : Reconciling) (visited : List JobId) : Prop where
  changes : Changes restart_license c.world r.ctl.world
  jobs : r.ctl.world.jobs = c.world.jobs
  incarnation : r.ctl.incarnation = c.incarnation
  ids : (r.updates.map MaintenanceJob.id).Sublist visited
  each : ∀ u ∈ r.updates, ∃ j, c.world.jobs.find j.id = some j ∧
    Edit .reconciled j.core u.core ∧
    (u.authority = ⟨0⟩ ∨ ∃ x ∈ r.ctl.world.ledger.reservations.rows,
      x.id = u.authority ∧ x.job = j.id ∧ x.id < r.ctl.world.ledger.next_id)

/-- The prepared copy of one job, with the controller that prepared it. -/
theorem prepare_cases (r : Reconciling) {j : MaintenanceJob} (now : Nanos)
    (stored : r.ctl.world.jobs.find j.id = some j) (alive : j.state.is_terminal = false)
    (past : j.state ≠ .Proposed ∧ j.state ≠ .Validated) :
    (∃ a l, (r.copied j now).1.core = if j.service_removed
        then ({ j.core with active_attempt := {}, authority := a, lease := l }).mint
        else { j.core with active_attempt := {}, authority := a, lease := l }) ∧
      (j.service_removed = false → (r.copied j now).1.authority = ⟨0⟩) ∧
      (r.copied j now).2.1.incarnation = r.ctl.incarnation ∧
      ((r.copied j now).1.authority = ⟨0⟩ ∧ (r.copied j now).2.1.world = r.ctl.world ∨
       ∃ g, ReservationFor r.ctl.world g j ∧ g.id = (r.copied j now).1.authority ∧
        (r.copied j now).2.1.world = { r.ctl.world with
          ledger := ⟨r.ctl.world.ledger.reservations.put g, g.id.next⟩ }) := by
  -- Out of service the job gets a new reservation; else its authority is dropped.
  by_cases hremoved : j.service_removed = true
  · have hout : r.copied j now = ((r.ctl.reissue j now).1, (r.ctl.reissue j now).2, r.releases) :=
      if_pos hremoved
    obtain ⟨a, hcore, hinc, hcases⟩ := r.ctl.reissue_cases now stored alive past
    have hauth : (r.ctl.reissue j now).1.authority = a := congrArg Core.authority hcore
    rw [hout]
    refine ⟨⟨a, j.lease, ?_⟩, ?_, hinc, ?_⟩
    · rw [if_pos hremoved]
      exact hcore
    · intro h
      rw [hremoved] at h
      cases h
    · simp only
      rw [hauth]
      exact hcases
  · have hout : r.copied j now = r.ctl.abandon_lease j r.releases now := if_neg hremoved
    rw [hout]
    unfold abandon_lease
    simp only [if_neg hremoved]
    split
    · exact ⟨⟨⟨0⟩, ⟨0⟩, rfl⟩, fun _ => rfl, rfl, .inl ⟨rfl, rfl⟩⟩
    · exact ⟨⟨⟨0⟩, j.lease, rfl⟩, fun _ => rfl, rfl, .inl ⟨rfl, rfl⟩⟩

theorem prepared_step {c : Controller} {r : Reconciling} {visited : List JobId}
    (h : Prepared c r visited) {j : MaintenanceJob} (now : Nanos)
    (stored : c.world.jobs.find j.id = some j) :
    Prepared c (reconcile_job r j now) (visited ++ [j.id]) := by
  have stay : Prepared c r (visited ++ [j.id]) :=
    { h with ids := h.ids.trans (List.sublist_append_left _ _) }
  rw [reconcile_job_eq]
  split
  · next hneeds =>
    simp only [needs_reconciling, Bool.not_eq_true', Bool.or_eq_false_iff,
      decide_eq_false_iff_not] at hneeds
    obtain ⟨⟨⟨alive, -⟩, hproposed⟩, hvalidated⟩ := hneeds
    have hstored : r.ctl.world.jobs.find j.id = some j := by rw [h.jobs]; exact stored
    obtain ⟨hcore, hkept, hinc, hcases⟩ := prepare_cases r now hstored alive ⟨hproposed, hvalidated⟩
    obtain ⟨hworld, hedit⟩ :=
      (r.copied j now).2.1.reblocked_spec now hcore hkept alive ⟨hproposed, hvalidated⟩
    unfold Reconciling.blocked
    generalize r.copied j now = copied at hcore hkept hinc hcases hworld hedit ⊢
    obtain ⟨updated, ctl, releases⟩ := copied
    simp only at hworld hedit hcases hinc ⊢
    generalize ctl.reblocked updated j.service_removed now = blocked at hworld hedit ⊢
    obtain ⟨done, d⟩ := blocked
    simp only at hworld hedit ⊢
    -- The ledger keeps what earlier rounds reserved: new identities are fresh.
    have hchanges : Changes restart_license r.ctl.world d.ctl.world := by
      rw [hworld]
      rcases hcases with ⟨_, hw⟩ | ⟨g, hres, _, hw⟩
      · exact Changes.of_eq hw
      · rw [hw]
        exact Changes.single (.reserved hres (.inr trivial))
    have hjobs : d.ctl.world.jobs = r.ctl.world.jobs := by
      rw [hworld]
      rcases hcases with ⟨_, hw⟩ | ⟨g, _, _, hw⟩
      · rw [hw]
      · rw [hw]
    have hincarnation : d.ctl.incarnation = c.incarnation := by
      refine Eq.trans ?_ (hinc.trans h.incarnation)
      show d.ctl.world.incarnation = ctl.world.incarnation
      rw [hworld]
    have hrows : ∀ x ∈ r.ctl.world.ledger.reservations.rows, x.id < r.ctl.world.ledger.next_id →
        x ∈ d.ctl.world.ledger.reservations.rows ∧ x.id < d.ctl.world.ledger.next_id := by
      intro x hx hlt
      rw [hworld]
      rcases hcases with ⟨_, hw⟩ | ⟨g, hres, _, hw⟩
      · rw [hw]
        exact ⟨hx, hlt⟩
      · rw [hw]
        have hgx : x.id < g.id := lt_of_lt_of_le hlt hres.fresh
        refine ⟨Table.mem_put.mpr (.inr ⟨hx, hgx.ne⟩), ?_⟩
        exact hgx.trans (StrongId.lt_iff.mpr (Nat.lt_succ_self _))
    have hold : ∀ u ∈ r.updates, ∃ i, c.world.jobs.find i.id = some i ∧
        Edit .reconciled i.core u.core ∧
        (u.authority = ⟨0⟩ ∨ ∃ x ∈ d.ctl.world.ledger.reservations.rows,
          x.id = u.authority ∧ x.job = i.id ∧ x.id < d.ctl.world.ledger.next_id) := by
      intro u hu
      obtain ⟨i, hi, he, ha⟩ := h.each u hu
      refine ⟨i, hi, he, ha.imp_right ?_⟩
      rintro ⟨x, hx, hxu, hxi, hlt⟩
      obtain ⟨hx', hlt'⟩ := hrows x hx hlt
      exact ⟨x, hx', hxu, hxi, hlt'⟩
    cases done with
    | false =>
      rw [if_neg Bool.false_ne_true]
      exact ⟨h.changes.trans hchanges, hjobs.trans h.jobs, hincarnation, stay.ids, hold⟩
    | true =>
      rw [if_pos rfl]
      obtain ⟨edit, hauth⟩ := hedit rfl
      refine ⟨h.changes.trans hchanges, hjobs.trans h.jobs, hincarnation, ?_, ?_⟩
      · rw [List.map_append, List.map_singleton, show d.job.id = j.id from edit.id_eq]
        exact h.ids.append (List.Sublist.refl _)
      · intro u hu
        rcases List.mem_append.mp hu with hu | hu
        · exact hold u hu
        · rw [List.mem_singleton] at hu
          subst hu
          refine ⟨j, stored, edit, ?_⟩
          rcases hauth with hauth | hauth
          · rw [hauth]
            rcases hcases with ⟨hzero, _⟩ | ⟨g, hres, hid, hw⟩
            · exact .inl hzero
            · refine .inr ⟨g, ?_, hid, hres.job, ?_⟩
              · rw [hworld, hw]
                exact Table.mem_put.mpr (.inl rfl)
              · rw [hworld, hw]
                exact StrongId.lt_iff.mpr (Nat.lt_succ_self _)
          · exact .inl hauth
  · exact stay

theorem prepared_loop {c : Controller} (now : Nanos) : ∀ (jobs : List MaintenanceJob)
    (r : Reconciling) (visited : List JobId), Prepared c r visited →
    (∀ j ∈ jobs, c.world.jobs.find j.id = some j) →
    Prepared c (jobs.foldl (fun r job => reconcile_job r job now) r)
      (visited ++ jobs.map MaintenanceJob.id)
  | [], r, visited, h, _ => by simpa using h
  | j :: jobs, r, visited, h, hjobs => by
      have hnext := prepared_loop now jobs (reconcile_job r j now) (visited ++ [j.id])
        (prepared_step h now (hjobs j List.mem_cons_self))
        (fun i hi => hjobs i (List.mem_cons_of_mem _ hi))
      simpa using hnext

/-! ## The commit -/

/-- Installing reconciled jobs one after the other. -/
theorem changes_install {w : World} : ∀ (us : List MaintenanceJob) (w' : World),
    (us.map MaintenanceJob.id).Nodup → w'.ledger = w.ledger →
    (∀ u ∈ us, w'.jobs.find u.id = w.jobs.find u.id) →
    (∀ u ∈ us, Recordable u ∧ ∃ j, w.jobs.find j.id = some j ∧ Edit .reconciled j.core u.core ∧
      (u.authority = ⟨0⟩ ∨ ∃ x ∈ w.ledger.reservations.rows,
        x.id = u.authority ∧ x.job = j.id)) →
    Changes restart_license w' { w' with jobs := us.foldl Table.put w'.jobs }
  | [], w', _, _, _, _ => Changes.refl _
  | u :: us, w', hnd, hledger, hsame, hus => by
      obtain ⟨hnot, hnd⟩ := List.nodup_cons.mp hnd
      obtain ⟨hrec, j, hj, edit, hauth⟩ := hus u List.mem_cons_self
      have hid : u.id = j.id := edit.id_eq
      have hstored : w'.jobs.find j.id = some j := by
        rw [← hid, hsame u List.mem_cons_self, hid]
        exact hj
      have hfirst : Change restart_license w' { w' with jobs := w'.jobs.put u } :=
        .edited hstored edit rfl (.inr (hledger ▸ hauth)) hrec
      refine (Changes.single hfirst).trans
        (changes_install us { w' with jobs := w'.jobs.put u } hnd hledger ?_ ?_)
      · intro v hv
        have hne : u.id ≠ v.id := fun he => hnot (he ▸ List.mem_map_of_mem hv)
        rw [← hsame v (List.mem_cons_of_mem _ hv)]
        exact Table.find_put_of_ne _ hne
      · exact fun v hv => hus v (List.mem_cons_of_mem _ hv)

theorem core_stamped (c : Controller) (now : Nanos) (j : MaintenanceJob) :
    (c.stamped now j).core = j.core := by
  unfold stamped
  split <;> rfl

theorem changes_reconcile_locked (c : Controller) (now : Nanos) :
    Changes restart_license c.world (c.reconcile_locked now).2.world := by
  unfold reconcile_locked
  simp only
  generalize hfenced : ({ c with store := c.store.fence_authority c.incarnation } : Controller) = c₁
  have hfence : Changes restart_license c.world c₁.world := by
    rw [← hfenced]
    rcases Store.fence_authority_books c.store c.incarnation with hb | hb
    · exact Changes.of_eq (world_of_books hb)
    · refine Changes.single ?_
      convert Change.fenced (w := c.world) (show restart_license.restarts from trivial) using 1
      simp [world, hb]
  -- The loop prepares the updates and touches the ledger alone; the jobs change in one commit.
  have hloop := prepared_loop now c₁.world.jobs.rows { ctl := c₁ } []
    ⟨Changes.refl _, rfl, rfl, List.Sublist.refl _, by simp⟩
    (fun j hj => Table.find_iff_mem.mpr hj)
  rw [List.nil_append] at hloop
  have hrows : (c.store.fence_authority c.incarnation).state.jobs.jobs.rows =
      c₁.world.jobs.rows := by
    rw [← hfenced]
    rfl
  rw [hrows]
  generalize c₁.world.jobs.rows.foldl (fun r job => reconcile_job r job now) { ctl := c₁ } = r
    at hloop ⊢
  -- The updates have distinct ids, as they come from distinct rows.
  have hids : (r.updates.map (r.ctl.stamped now)).map MaintenanceJob.id =
      r.updates.map MaintenanceJob.id := by
    rw [List.map_map]
    refine List.map_congr_left (fun u _ => ?_)
    exact congrArg Core.id (core_stamped r.ctl now u)
  have hnd : ((r.updates.map (r.ctl.stamped now)).map MaintenanceJob.id).Nodup := by
    rw [hids]
    have hsorted : (c₁.world.jobs.rows.map MaintenanceJob.id).Pairwise (· < ·) :=
      List.pairwise_map.mpr c₁.world.jobs.sorted
    exact (hsorted.imp (fun h => h.ne)).sublist hloop.ids
  refine (hfence.trans hloop.changes).trans ?_
  split
  · exact Changes.of_eq rfl
  · rcases Store.commit_jobs_cases r.ctl.store hnd with ⟨e, he, hb⟩ | ⟨hok, hrec, hb⟩
    · split
      · next heq =>
        rw [heq] at hb
        exact Changes.of_eq (world_of_books hb)
      · next heq =>
        rw [heq] at he
        cases he
    -- What was committed is installed job by job, each an edit of the job it replaces.
    · have hinstall := changes_install (w := r.ctl.world)
        ((r.updates.map (r.ctl.stamped now)).map clipped_job) r.ctl.world ?_ rfl (fun _ _ => rfl) ?_
      · split
        · next heq =>
          rw [heq] at hok
          cases hok
        · next heq =>
          rw [heq] at hb
          convert hinstall using 1
          simp [world, hb]
      · rw [List.map_map]
        exact hnd
      · intro u hu
        obtain ⟨v, hv, rfl⟩ := List.mem_map.mp hu
        obtain ⟨x, hx, rfl⟩ := List.mem_map.mp hv
        obtain ⟨j, hj, edit, hauth⟩ := hloop.each x hx
        have hcore : (clipped_job (r.ctl.stamped now x)).core = x.core := by
          rw [core_clipped_job, core_stamped]
        refine ⟨?_, j, by rw [hloop.jobs]; exact hj, hcore ▸ edit, ?_⟩
        · unfold Recordable
          rw [check_job_record_clipped]
          exact hrec _ hv
        · rw [show (clipped_job (r.ctl.stamped now x)).authority = x.authority from
            congrArg Core.authority hcore]
          refine hauth.imp_right ?_
          rintro ⟨y, hy, hyx, hyj, -⟩
          exact ⟨y, hy, hyx, hyj⟩

theorem incarnation_reconcile_locked (c : Controller) (now : Nanos) :
    (c.reconcile_locked now).2.incarnation = c.incarnation := by
  unfold reconcile_locked
  simp only
  generalize hfenced : ({ c with store := c.store.fence_authority c.incarnation } : Controller) = c₁
  have hloop := prepared_loop now c₁.world.jobs.rows { ctl := c₁ } []
    ⟨Changes.refl _, rfl, rfl, List.Sublist.refl _, by simp⟩
    (fun j hj => Table.find_iff_mem.mpr hj)
  have hrows : (c.store.fence_authority c.incarnation).state.jobs.jobs.rows =
      c₁.world.jobs.rows := by
    rw [← hfenced]
    rfl
  have hinc : c₁.incarnation = c.incarnation := by
    rw [← hfenced]
  rw [hrows]
  generalize c₁.world.jobs.rows.foldl (fun r job => reconcile_job r job now) { ctl := c₁ } = r
    at hloop ⊢
  split
  · exact hloop.incarnation.trans hinc
  · split <;> exact hloop.incarnation.trans hinc

/-- A process that has come up runs under an epoch no earlier one had. -/
theorem epoch_open {c : Controller} {options : ControllerOptions} {clock : Nanos} {steady : Nat}
    (h : Status.isOk (Controller.open c.store options clock steady).1 = true) :
    (Controller.open c.store options clock steady).2.incarnation.boot_epoch =
      c.world.epoch.next := by
  unfold Controller.open at h ⊢
  simp only at h ⊢
  rcases Store.begin_incarnation_cases
      ({ state := recovered c.store.state options, verdicts := c.store.verdicts
         log := c.store.log, digests := c.store.digests } : Store)
      options.controller_id options.nonce steady with ⟨e, he, _⟩ | ⟨incarnation, hok, hepoch, _⟩
  · split at h
    · cases h
    · next heq =>
      rw [heq] at he
      cases he
  · split
    · next heq =>
      rw [heq] at hok
      cases hok
    · next heq =>
      rw [heq] at hok
      cases hok
      rw [incarnation_reconcile_locked]
      exact hepoch

theorem valid_open {c : Controller} {options : ControllerOptions} {clock : Nanos} {steady : Nat}
    (h : Status.isOk (Controller.open c.store options clock steady).1 = true) :
    (Controller.open c.store options clock steady).2.incarnation.valid = true := by
  unfold Controller.open at h ⊢
  simp only at h ⊢
  split at h
  · cases h
  · next heq =>
    rw [incarnation_reconcile_locked]
    exact Store.begin_incarnation_valid (congrArg Prod.fst heq)

/-- A restart, from the moment the old process is gone. -/
theorem changes_open (c : Controller) (options : ControllerOptions) (clock : Nanos) (steady : Nat) :
    Changes restart_license c.world
      (Controller.open c.store options clock steady).2.world := by
  unfold Controller.open
  simp only
  generalize hstore : ({ state := recovered c.store.state options, verdicts := c.store.verdicts
                         log := c.store.log, digests := c.store.digests } : Store) = store
  have hbooks : store.books = { c.store.books with
      evidence := { c.store.books.evidence with
        capacity := EvidenceStore.bound options.evidence_capacity } } := by
    rw [← hstore]
    rfl
  rcases Store.begin_incarnation_cases store options.controller_id options.nonce steady with
    ⟨e, he, hb⟩ | ⟨incarnation, hok, hepoch, hb⟩
  · split
    · next heq =>
      rw [heq] at hb
      refine Changes.single ?_
      convert Change.halted (w := c.world) (EvidenceStore.bound options.evidence_capacity)
        (show restart_license.restarts from trivial) using 1
      simp [world, hb, hbooks]
    · next heq =>
      rw [heq] at he
      cases he
  -- Once the incarnation is on record, reconciliation runs over the books as they are.
  · split
    · next heq =>
      rw [heq] at hok
      cases hok
    · next inc store' heq =>
      rw [heq] at hok hb
      cases hok
      refine Changes.trans (Changes.single ?_) (changes_reconcile_locked _ clock)
      rw [hbooks] at hepoch
      convert Change.reopened (w := c.world) incarnation
        (EvidenceStore.bound options.evidence_capacity)
        (show restart_license.restarts from trivial) hepoch using 1
      simp [world, hb, hbooks]

end Controller

end MaintenanceFabric
