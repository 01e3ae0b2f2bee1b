import MaintenanceFabric.Runtime.Holdings
import MaintenanceFabric.Runtime.Recovery
import MaintenanceFabric.Lib.Run

/-! # What a restart does to each job

    A new incarnation fences every reservation it finds, gives the jobs that
    have removed service a new attempt and a new reservation, takes what the
    others hold, and commits all of them at once.  `Resumed` says what becomes
    of one job, `Reconciled` what holds between two rounds of the loop.
-/

namespace MaintenanceFabric

open Lib

namespace Controller

/-! ## One job -/

theorem release_resources_none {d : Drive} (hauthority : d.job.authority.valid = false)
    (hlease : d.job.lease.valid = false) : d.release_resources_locked = d := by
  have hfirst : d.release_authority = d := by
    unfold Drive.release_authority
    rw [if_neg (by rw [hauthority]; simp)]
  unfold Drive.release_resources_locked
  rw [hfirst]
  unfold Drive.release_lease
  rw [if_neg (by rw [hlease]; simp)]

/-- A job that has nothing to give back keeps everything when it is blocked. -/
theorem transition_blocked_eq (c : Controller) {job : MaintenanceJob} (reason : BlockReason)
    (detail : Text) (now : Nanos) (waiting : job.state ≠ .Blocked)
    (alive : job.state.is_terminal = false)
    (free : job.service_removed = false → job.authority.valid = false ∧ job.lease.valid = false) :
    Drive.transition_locked { ctl := c, job } .Blocked reason detail now =
      (true, { ctl := c, job := Drive.entered job .Blocked reason detail now c.incarnation }) := by
  have hallowed : (check_transition job.state .Blocked job.service_removed).allowed = true := by
    unfold check_transition
    rw [if_neg waiting, if_neg (by rw [alive]; simp)]
    rfl
  unfold Drive.transition_locked
  rw [if_pos hallowed]
  simp only
  rw [Drive.gives_back_entered]
  by_cases hback : Drive.gives_back .Blocked job.service_removed = true
  · have hkept : job.service_removed = false := by
      simpa [Drive.gives_back, JobState.is_terminal] using hback
    obtain ⟨hauthority, hlease⟩ := free hkept
    rw [if_pos hback, release_resources_none]
    · rfl
    · show (Drive.entered job .Blocked reason detail now c.incarnation).authority.valid = false
      rw [Drive.entered_authority]
      exact hauthority
    · show (Drive.entered job .Blocked reason detail now c.incarnation).lease.valid = false
      rw [(Drive.entered_holding _ _ _ _ _ _).2]
      exact hlease
  · rw [if_neg hback]
    rfl

theorem owner_entered (j : MaintenanceJob) (to_state : JobState) (reason : BlockReason)
    (detail : Text) (now : Nanos) (by_ : ControllerIncarnation) :
    (Drive.entered j to_state reason detail now by_).owner = j.owner := by
  cases to_state <;> rfl

/-- A prepared copy always ends in `Blocked`, with nothing else done. -/
theorem reblocked_eq (c : Controller) {p : MaintenanceJob} (removed : Bool) (now : Nanos)
    (alive : p.state.is_terminal = false)
    (free : p.service_removed = false →
      p.authority.valid = false ∧ p.lease.valid = false) :
    ∃ u, c.reblocked p removed now = (true, { ctl := c, job := u }) ∧
      u.core = (if p.state = .Blocked then p.core else p.core.move .Blocked) ∧
      u.owner = p.owner := by
  unfold reblocked
  by_cases hblocked : p.state = .Blocked
  · rw [if_neg (not_not.mpr hblocked), if_pos hblocked]
    simp only
    exact ⟨_, rfl, rfl, rfl⟩
  · rw [if_pos hblocked, if_neg hblocked, transition_blocked_eq c _ _ now hblocked alive free]
    refine ⟨_, rfl, ?_, owner_entered _ _ _ _ _ _⟩
    rw [core_entered]
    simp [Core.move, JobState.is_terminal, MaintenanceJob.core]

/-- The reservation that goes with a job. -/
structure Backs (current : ControllerIncarnation) (u : MaintenanceJob) (g : AuthorityReservation) :
    Prop where
  id : g.id = u.authority
  job : g.job = u.id
  generation : g.generation = u.generation
  attempt : g.attempt = u.active_attempt ∧ g.attempt.valid = true
  owner : g.owner = current
  targets : g.targets = sort u.removal_set

/-- What becomes of a job that the new incarnation must touch; `Refused` is why a job that had
    removed service is left without a reservation. -/
structure Resumed (c : Controller) (Refused : MaintenanceJob → Prop) (ledger : AuthorityLedger)
    (releases : List DrainAction) (j u : MaintenanceJob) : Prop where
  core : ∃ a l, u.core = j.core.reconcile a l
  owner : u.owner = c.incarnation
  kept : j.service_removed = false → u.authority = ⟨0⟩ ∧ u.lease = ⟨0⟩ ∧
    (j.lease.valid = true → ∃ a ∈ releases, a.kind = .Release ∧ a.lease = j.lease)
  removed : j.service_removed = true → u.lease = j.lease ∧
    (u.authority = ⟨0⟩ ∧ Refused j ∨ ∃ g ∈ ledger.reservations.rows, Backs c.incarnation u g)

namespace Resumed

variable {c : Controller} {Refused : MaintenanceJob → Prop} {ledger ledger' : AuthorityLedger}
  {releases releases' : List DrainAction} {j u : MaintenanceJob}

theorem mono (h : Resumed c Refused ledger releases j u)
    (hrows : ∀ g ∈ ledger.reservations.rows, g ∈ ledger'.reservations.rows)
    (hreleases : ∀ a ∈ releases, a ∈ releases') : Resumed c Refused ledger' releases' j u := by
  refine ⟨h.core, h.owner, ?_, ?_⟩
  · intro hkept
    obtain ⟨hauthority, hlease, hasked⟩ := h.kept hkept
    refine ⟨hauthority, hlease, ?_⟩
    intro hvalid
    obtain ⟨a, ha, hrelease⟩ := hasked hvalid
    exact ⟨a, hreleases a ha, hrelease⟩
  · intro hremoved
    obtain ⟨hlease, hremoved⟩ := h.removed hremoved
    refine ⟨hlease, ?_⟩
    rcases hremoved with hrefused | ⟨g, hg, hbacks⟩
    · exact .inl hrefused
    · exact .inr ⟨g, hrows g hg, hbacks⟩

/-- The fields of the job that the restart decides. -/
theorem fields (h : Resumed c Refused ledger releases j u) :
    u.id = j.id ∧ u.generation = j.generation ∧ u.removal_set = j.removal_set ∧
      u.service_removed = j.service_removed ∧ u.state = .Blocked ∧
      u.active_attempt = if j.service_removed then
        { job := j.id, generation := j.generation, ordinal := j.next_attempt } else {} := by
  obtain ⟨a, l, hcore⟩ := h.core
  have hfields : ∀ c : Core, (c.reconcile a l).id = c.id ∧
      (c.reconcile a l).generation = c.generation ∧
      (c.reconcile a l).removal_set = c.removal_set ∧
      (c.reconcile a l).service_removed = c.service_removed ∧
      (c.reconcile a l).state = .Blocked ∧
      (c.reconcile a l).active_attempt = if c.service_removed then
        { job := c.id, generation := c.generation, ordinal := c.next_attempt } else {} := by
    intro c
    unfold Core.reconcile
    by_cases hremoved : c.service_removed = true
    · by_cases hblocked : c.state = .Blocked
      · simp [hremoved, hblocked, Core.mint]
      · simp [hremoved, hblocked, Core.mint, Core.move, JobState.is_terminal]
    · by_cases hblocked : c.state = .Blocked
      · simp [hremoved, hblocked]
      · simp [hremoved, hblocked, Core.move, JobState.is_terminal]
  obtain ⟨hid, hgeneration, hscope, hremoved, hstate, hattempt⟩ := hfields j.core
  refine ⟨(congrArg Core.id hcore).trans hid, (congrArg Core.generation hcore).trans hgeneration,
    (congrArg Core.removal_set hcore).trans hscope,
    (congrArg Core.service_removed hcore).trans hremoved, (congrArg Core.state hcore).trans hstate,
    (congrArg Core.active_attempt hcore).trans hattempt⟩

end Resumed

/-! ## The loop -/

/-- Between two rounds: every job that had to be touched has its update, and every reservation in
    the ledger was made for one of them. -/
structure Reconciled (c : Controller) (Refused : MaintenanceJob → Prop)
    (visited : List MaintenanceJob) (r : Reconciling) : Prop where
  calm : r.ctl.Calm
  incarnation : r.ctl.incarnation = c.incarnation
  jobs : r.ctl.world.jobs = c.world.jobs
  ids : ∀ g ∈ r.ctl.world.ledger.reservations.rows, g.id < r.ctl.world.ledger.next_id
  updates : List.Forall₂ (Resumed c Refused r.ctl.world.ledger r.releases)
    (visited.filter c.needs_reconciling) r.updates
  rows : ∀ g ∈ r.ctl.world.ledger.reservations.rows, ∃ u ∈ r.updates,
    u.service_removed = true ∧ Backs c.incarnation u g

/-- Blocking a copy changes neither its tokens nor its scope. -/
theorem core_reblocked {prepared u : MaintenanceJob}
    (h : u.core = if prepared.state = .Blocked then
      prepared.core else prepared.core.move .Blocked) :
    u.id = prepared.id ∧ u.generation = prepared.generation ∧ u.removal_set = prepared.removal_set ∧
      u.service_removed = prepared.service_removed ∧ u.active_attempt = prepared.active_attempt ∧
      u.authority = prepared.authority ∧ u.lease = prepared.lease := by
  have hfields : ∀ field : Core → Core → Prop, (∀ c, field c c) →
      (∀ c : Core, field (c.move .Blocked) c) → field u.core prepared.core := by
    intro field hsame hmoved
    rw [h]
    split
    · exact hsame _
    · exact hmoved _
  refine ⟨hfields (fun a b => a.id = b.id) (fun _ => rfl) (fun _ => rfl),
    hfields (fun a b => a.generation = b.generation) (fun _ => rfl) (fun _ => rfl),
    hfields (fun a b => a.removal_set = b.removal_set) (fun _ => rfl) (fun _ => rfl),
    hfields (fun a b => a.service_removed = b.service_removed) (fun _ => rfl) ?_,
    hfields (fun a b => a.active_attempt = b.active_attempt) (fun _ => rfl) ?_,
    hfields (fun a b => a.authority = b.authority) (fun _ => rfl) (fun _ => rfl),
    hfields (fun a b => a.lease = b.lease) (fun _ => rfl) (fun _ => rfl)⟩
  · intro c
    simp [Core.move]
  · intro c
    simp [Core.move, JobState.is_terminal]

/-- The reservation that a restart asks for. -/
def reissue_request (c : Controller) (j : MaintenanceJob) (now : Nanos) : AuthorityReservation :=
  c.reissued_reservation (c.new_attempt_locked (c.fenced_job j now) now) now

/-- The reservation of a job that had removed service, if the ledger and the journal take it. -/
theorem reissue_calm {c : Controller} (calm : c.Calm) (j : MaintenanceJob) (now : Nanos) :
    (c.reissue j now).2.Calm ∧ (c.reissue j now).2.incarnation = c.incarnation ∧
      (c.reissue j now).2.world.jobs = c.world.jobs ∧
      (c.reissue j now).1.owner = c.incarnation ∧
      ∃ a, (c.reissue j now).1.core =
          ({ j.core with active_attempt := {}, authority := a, lease := j.lease }).mint ∧
        ((∃ e, (c.store.reserve_authority (c.reissue_request j now)).1 = .error e) ∧ a = ⟨0⟩ ∧
            (c.reissue j now).2.world.ledger = c.world.ledger ∨
          ∃ g, g.id = c.world.ledger.next_id ∧ Backs c.incarnation (c.reissue j now).1 g ∧
            (c.reissue j now).2.world.ledger =
              ⟨c.world.ledger.reservations.put g, c.world.ledger.next_id.next⟩) := by
  have hcalm := Store.verdicts_reserve_authority calm (c.reissue_request j now)
  have hrequest : c.reissued_reservation (c.new_attempt_locked (c.fenced_job j now) now) now =
    c.reissue_request j now := rfl
  unfold reissue
  simp only [hrequest]
  -- The ledger or the journal may refuse; the copy then goes on without authority.
  rcases Store.reserve_authority_cases c.store (c.reissue_request j now) with
    ⟨e, he, hb⟩ | ⟨g, staging, hres, hid, hb⟩
  · split
    · next heq =>
      rw [heq] at hb hcalm he
      refine ⟨hcalm, rfl, congrArg (fun b => b.jobs) hb, rfl, ⟨0⟩,
        rfl, .inl ⟨⟨_, by rw [heq]⟩, rfl, ?_⟩⟩
      exact congrArg (fun b => b.ledger) hb
    · next heq =>
      rw [heq] at he
      cases he
  · split
    · next heq =>
      rw [heq] at hid
      cases hid
    · next id store heq =>
      rw [heq] at hid hb hcalm
      cases hid
      obtain ⟨hg, hstaging, hattempt, _⟩ := AuthorityLedger.reserve_ok hres
      refine ⟨hcalm, rfl, congrArg (fun b => b.jobs) hb, rfl, g.id, rfl, .inr ⟨g, ?_, ?_, ?_⟩⟩
      · rw [hg]
        rfl
      · refine ⟨rfl, ?_, ?_, ⟨?_, ?_⟩, ?_, ?_⟩
        all_goals rw [hg]
        · rfl
        · rfl
        · rfl
        · exact hattempt
        · rfl
        · rfl
      · show store.books.ledger = _
        rw [hb, hstaging]
        rfl

theorem Reconciled.step {c : Controller} {Refused : MaintenanceJob → Prop}
    {visited : List MaintenanceJob} {r : Reconciling} (h : Reconciled c Refused visited r)
    (j : MaintenanceJob) (now : Nanos)
    (refused : ∀ e, c.needs_reconciling j = true → j.service_removed = true →
      (r.ctl.store.reserve_authority (r.ctl.reissue_request j now)).1 = .error e → Refused j) :
    Reconciled c Refused (visited ++ [j]) (reconcile_job r j now) := by
  have hneeds : r.ctl.needs_reconciling j = c.needs_reconciling j := by
    unfold needs_reconciling
    rw [h.incarnation]
  unfold reconcile_job
  rw [hneeds]
  by_cases hneeded : c.needs_reconciling j = true
  · rw [if_pos hneeded]
    have halive : j.state.is_terminal = false := by
      simp only [needs_reconciling, Bool.not_eq_true', Bool.or_eq_false_iff] at hneeded
      exact hneeded.1.1.1
    have hfilter : (visited ++ [j]).filter c.needs_reconciling =
        visited.filter c.needs_reconciling ++ [j] := by
      rw [List.filter_append, List.filter_cons_of_pos hneeded, List.filter_nil]
    by_cases hremoved : j.service_removed = true
    · obtain ⟨hcalm, hincarnation, hjobs, howner, a, hcore, hledger⟩ := reissue_calm h.calm j now
      simp only [if_pos hremoved]
      generalize r.ctl.reissue j now = out at hcalm hincarnation hjobs howner hcore hledger ⊢
      obtain ⟨prepared, ctl⟩ := out
      simp only at hcalm hincarnation hjobs howner hcore hledger ⊢
      have hstate : prepared.state = j.state := congrArg Core.state hcore
      have hsame : prepared.service_removed = true :=
        (congrArg Core.service_removed hcore).trans hremoved
      obtain ⟨u, hblocked, hucore, huowner⟩ := ctl.reblocked_eq (p := prepared) true now
        (by rw [hstate]; exact halive) (fun hkept => absurd hkept (by rw [hsame]; simp))
      rw [hremoved, hblocked]
      simp only
      obtain ⟨huid, hugeneration, huscope, huremoved, huattempt, huauthority, hulease⟩ :=
        core_reblocked hucore
      have hreconciled : u.core = j.core.reconcile a j.lease := by
        rw [hucore, hcore, hstate]
        unfold Core.reconcile
        simp only [show j.core.service_removed = true from hremoved, if_true]
        rfl
      have hkeeps : u.lease = j.lease := hulease.trans (congrArg Core.lease hcore)
      have hids : ctl.incarnation = c.incarnation := hincarnation.trans h.incarnation
      have howned : u.owner = c.incarnation := huowner.trans (howner.trans h.incarnation)
      -- A new reservation has a new identity, so the older ones stay.
      rcases hledger with ⟨⟨e, he⟩, hzero, hledger⟩ | ⟨g, hgid, hbacks, hledger⟩
      · refine ⟨hcalm, hids, hjobs.trans h.jobs, ?_, ?_, ?_⟩
        · rw [hledger]
          exact h.ids
        · rw [hfilter, hledger]
          refine List.rel_append h.updates (.cons ⟨⟨a, j.lease, hreconciled⟩, howned, ?_, ?_⟩ .nil)
          · intro hkept
            rw [hremoved] at hkept
            cases hkept
          · intro _
            refine ⟨hkeeps, .inl ⟨?_, refused e hneeded hremoved he⟩⟩
            rw [← hzero]
            exact huauthority.trans (congrArg Core.authority hcore)
        · rw [hledger]
          intro g hg
          obtain ⟨v, hv, hv'⟩ := h.rows g hg
          exact ⟨v, List.mem_append_left _ hv, hv'⟩
      · have hmem : ∀ x, x ∈ ctl.world.ledger.reservations.rows ↔
            x = g ∨ x ∈ r.ctl.world.ledger.reservations.rows ∧ x.id ≠ g.id := by
          intro x
          rw [hledger]
          exact Table.mem_put
        have hlater : r.ctl.world.ledger.next_id < r.ctl.world.ledger.next_id.next :=
          StrongId.lt_iff.mpr (Nat.lt_succ_self _)
        have hbacked : Backs c.incarnation u g := by
          rw [← h.incarnation]
          refine ⟨hbacks.id.trans huauthority.symm, hbacks.job.trans huid.symm,
            hbacks.generation.trans hugeneration.symm,
            ⟨hbacks.attempt.1.trans huattempt.symm, hbacks.attempt.2⟩, hbacks.owner, ?_⟩
          rw [huscope]
          exact hbacks.targets
        refine ⟨hcalm, hids, hjobs.trans h.jobs, ?_, ?_, ?_⟩
        · intro x hx
          have hnext : ctl.world.ledger.next_id = r.ctl.world.ledger.next_id.next := by
            rw [hledger]
          rw [hnext]
          rcases (hmem x).mp hx with rfl | ⟨hx, _⟩
          · rw [hgid]
            exact hlater
          · exact (h.ids x hx).trans hlater
        · rw [hfilter]
          refine List.rel_append (h.updates.imp ?_)
            (.cons ⟨⟨a, j.lease, hreconciled⟩, howned, ?_, ?_⟩ .nil)
          · intro i v hv
            refine hv.mono ?_ (fun _ ha => ha)
            intro x hx
            refine (hmem x).mpr (.inr ⟨hx, ?_⟩)
            rw [hgid]
            exact (h.ids x hx).ne
          · intro hkept
            rw [hremoved] at hkept
            cases hkept
          · intro _
            exact ⟨hkeeps, .inr ⟨g, (hmem g).mpr (.inl rfl), hbacked⟩⟩
        · intro x hx
          rcases (hmem x).mp hx with rfl | ⟨hx, _⟩
          · exact ⟨u, List.mem_append_right _ List.mem_cons_self, huremoved.trans hsame, hbacked⟩
          · obtain ⟨v, hv, hv'⟩ := h.rows x hx
            exact ⟨v, List.mem_append_left _ hv, hv'⟩
    · have hkept : j.service_removed = false := by simpa using hremoved
      simp only [if_neg hremoved]
      have habandoned : ∃ ctl releases, r.ctl.abandon_lease j r.releases now =
          ({ r.ctl.fenced_job j now with lease := ⟨0⟩ }, ctl, releases) ∧
          ctl.Calm ∧ ctl.incarnation = r.ctl.incarnation ∧ ctl.world = r.ctl.world ∧
          (∀ a ∈ r.releases, a ∈ releases) ∧
          (j.lease.valid = true → ∃ a ∈ releases, a.kind = .Release ∧ a.lease = j.lease) := by
        unfold abandon_lease
        simp only
        by_cases hvalid : j.lease.valid = true
        · rw [if_pos (show (r.ctl.fenced_job j now).lease.valid = true from hvalid)]
          refine ⟨_, _, rfl, h.calm, rfl, rfl, fun a ha => List.mem_append_left _ ha, fun _ => ?_⟩
          exact ⟨_, List.mem_append_right _ List.mem_cons_self, rfl, rfl⟩
        · rw [if_neg (show ¬ (r.ctl.fenced_job j now).lease.valid = true from hvalid)]
          have hzero : j.lease = ⟨0⟩ := by
            apply StrongId.ext
            by_contra hne
            exact hvalid (StrongId.valid_iff.mpr hne)
          refine ⟨r.ctl, r.releases, ?_, h.calm, rfl, rfl, fun a ha => ha,
            fun hv => absurd hv hvalid⟩
          rw [← hzero]
          rfl
      obtain ⟨ctl, releases, habandon, hcalm, hincarnation, hworld, hsub, hasked⟩ := habandoned
      rw [habandon]
      simp only
      generalize hprepared :
        ({ r.ctl.fenced_job j now with lease := ⟨0⟩ } : MaintenanceJob) = prepared
      have hcore : prepared.core =
          { j.core with active_attempt := {}, authority := ⟨0⟩, lease := ⟨0⟩ } := by
        rw [← hprepared]
        rfl
      have hstate : prepared.state = j.state := congrArg Core.state hcore
      have howner : prepared.owner = r.ctl.incarnation := by
        rw [← hprepared]
        rfl
      have hauthority : prepared.authority = ⟨0⟩ := congrArg Core.authority hcore
      have hlease : prepared.lease = ⟨0⟩ := congrArg Core.lease hcore
      obtain ⟨u, hblocked, hucore, huowner⟩ := ctl.reblocked_eq (p := prepared)
        j.service_removed now (by rw [hstate]; exact halive)
        (fun _ => by rw [hauthority, hlease]; exact ⟨rfl, rfl⟩)
      rw [hblocked]
      simp only
      obtain ⟨_, _, _, _, _, huauthority, hulease⟩ := core_reblocked hucore
      have hreconciled : u.core = j.core.reconcile ⟨0⟩ ⟨0⟩ := by
        rw [hucore, hcore, hstate]
        unfold Core.reconcile
        simp only [show j.core.service_removed = false from hkept]
        rfl
      refine ⟨hcalm, hincarnation.trans h.incarnation, ?_, ?_, ?_, ?_⟩
      · rw [hworld]
        exact h.jobs
      · rw [hworld]
        exact h.ids
      · rw [hfilter, hworld]
        refine List.rel_append (h.updates.imp ?_) (.cons ⟨⟨⟨0⟩, ⟨0⟩, hreconciled⟩, ?_, ?_, ?_⟩ .nil)
        · intro i v hv
          exact hv.mono (fun _ hx => hx) hsub
        · exact huowner.trans (howner.trans h.incarnation)
        · exact fun _ => ⟨huauthority.trans hauthority, hulease.trans hlease, hasked⟩
        · exact fun hr => absurd hr hremoved
      · rw [hworld]
        intro g hg
        obtain ⟨v, hv, hv'⟩ := h.rows g hg
        exact ⟨v, List.mem_append_left _ hv, hv'⟩
  · rw [if_neg hneeded]
    have hfilter : (visited ++ [j]).filter c.needs_reconciling =
        visited.filter c.needs_reconciling := by
      rw [List.filter_append, List.filter_cons_of_neg hneeded, List.filter_nil, List.append_nil]
    exact { h with updates := by rw [hfilter]; exact h.updates }

/-! ## The restart as a whole -/

/-- The ledger the loop starts from: nothing is left of the older incarnations. -/
def Fenced (c : Controller) : Prop :=
  ∀ r ∈ (c.store.fence_authority c.incarnation).books.ledger.reservations.rows, False

/-- The journal takes the batch that revokes the reservations of older incarnations. -/
def FenceAdmitted (c : Controller) : Prop :=
  let revoked := (c.store.state.ledger.fence_older_incarnations c.incarnation).1
  revoked = [] ∨ admit_transaction (revoked.map (fun r => .reservation_erased r.id)) = .ok ()

theorem fenced_of_admitted {c : Controller} (calm : c.Calm) (admitted : c.FenceAdmitted)
    (older : ∀ r ∈ c.world.ledger.reservations.rows, is_fenced_by r.owner c.incarnation = true) :
    c.Fenced ∧ (c.store.fence_authority c.incarnation).verdicts = [] := by
  have hnone : ∀ r ∈ (c.store.state.ledger.fence_older_incarnations
      c.incarnation).2.reservations.rows, False := by
    intro r hr
    obtain ⟨hr, hkept⟩ := Table.mem_filter.mp hr
    rw [older r hr] at hkept
    cases hkept
  unfold Fenced Store.fence_authority
  simp only
  rcases admitted with hempty | hadm
  · rw [hempty]
    refine ⟨?_, calm⟩
    intro r hr
    have hrevoked : r ∈ (c.store.state.ledger.fence_older_incarnations c.incarnation).1 :=
      List.mem_filter.mpr ⟨hr, older r hr⟩
    rw [hempty] at hrevoked
    cases hrevoked
  · split
    · next hempty =>
      refine ⟨?_, calm⟩
      intro r hr
      have hrevoked : r ∈ (c.store.state.ledger.fence_older_incarnations c.incarnation).1 :=
        List.mem_filter.mpr ⟨hr, older r hr⟩
      rw [List.isEmpty_iff.mp hempty] at hrevoked
      cases hrevoked
    · unfold Store.install_ledger
      rw [Store.append_transaction_of_verdicts_nil calm hadm]
      exact ⟨hnone, calm⟩

/-- What `reconcile_locked` leaves behind, seen from the loop. -/
structure Recovered (c : Controller) (now : Nanos) (Refused : MaintenanceJob → Prop)
    (r : Reconciling) : Prop where
  loop : Reconciled c Refused c.world.jobs.rows r
  incarnation : (c.reconcile_locked now).2.incarnation = c.incarnation
  ledger : (c.reconcile_locked now).2.world.ledger = r.ctl.world.ledger
  jobs : Status.isOk (c.reconcile_locked now).1 = true →
    (c.reconcile_locked now).2.world.jobs = (r.updates.map
      (fun u => clipped_job (r.ctl.stamped now u))).foldl Table.put c.world.jobs
  failed : Status.isOk (c.reconcile_locked now).1 = false →
    (c.reconcile_locked now).2.world.jobs = c.world.jobs
  admitted : Status.isOk (c.reconcile_locked now).1 = true →
    r.updates.length ≤ limits.kMaxRecordsPerTransaction
  deferred : Status.isOk (c.reconcile_locked now).1 = true →
    (c.reconcile_locked now).2.deferred_releases = r.ctl.deferred_releases ++ r.releases

/-- The loop over the stored jobs. A job is refused its reservation for a reason that can be read
    off the round it is refused in. -/
theorem Reconciled.loop {c : Controller} {Refused : MaintenanceJob → Prop}
    {all : List MaintenanceJob} (now : Nanos)
    (refused : ∀ visited j rest r e, all = visited ++ j :: rest → Reconciled c Refused visited r →
      c.needs_reconciling j = true → j.service_removed = true →
      (r.ctl.store.reserve_authority (r.ctl.reissue_request j now)).1 = .error e → Refused j) :
    ∀ (rest visited : List MaintenanceJob) (r : Reconciling), all = visited ++ rest →
      Reconciled c Refused visited r →
      Reconciled c Refused all (rest.foldl (fun r job => reconcile_job r job now) r)
  | [], visited, r, hall, h => by
      rw [List.append_nil] at hall
      rw [hall]
      exact h
  | j :: rest, visited, r, hall, h => by
      have hnext : all = visited ++ [j] ++ rest := by simpa using hall
      refine Reconciled.loop now refused rest (visited ++ [j]) _ hnext (h.step j now ?_)
      intro e hneeded hremoved he
      exact refused visited j rest r e hall h hneeded hremoved he

theorem Reconciled.start {c : Controller} (Refused : MaintenanceJob → Prop) (fenced : c.Fenced)
    (calm : (c.store.fence_authority c.incarnation).verdicts = []) :
    Reconciled c Refused []
      { ctl := { c with store := c.store.fence_authority c.incarnation } } := by
  refine ⟨calm, rfl, ?_, fun g hg => (fenced g hg).elim, .nil, fun g hg => (fenced g hg).elim⟩
  show (c.store.fence_authority c.incarnation).books.jobs = c.store.books.jobs
  rcases c.store.fence_authority_books c.incarnation with hbooks | hbooks <;> rw [hbooks]

theorem Reconciled.updated_ids {c : Controller} {Refused : MaintenanceJob → Prop}
    {visited : List MaintenanceJob} {r : Reconciling} (h : Reconciled c Refused visited r) :
    r.updates.map MaintenanceJob.id =
      (visited.filter c.needs_reconciling).map MaintenanceJob.id := by
  have hupdates := h.updates
  generalize visited.filter c.needs_reconciling = needed at hupdates ⊢
  generalize r.updates = updates at hupdates ⊢
  induction hupdates with
  | nil => rfl
  | cons hresumed _ ih => rw [List.map_cons, List.map_cons, hresumed.fields.1, ih]

theorem recovered_reconcile_locked {c : Controller} (now : Nanos) {Refused : MaintenanceJob → Prop}
    (fenced : c.Fenced) (calm : (c.store.fence_authority c.incarnation).verdicts = [])
    (refused : ∀ visited j rest r e, c.world.jobs.rows = visited ++ j :: rest →
      Reconciled c Refused visited r → c.needs_reconciling j = true → j.service_removed = true →
      (r.ctl.store.reserve_authority (r.ctl.reissue_request j now)).1 = .error e → Refused j) :
    ∃ r, Recovered c now Refused r := by
  have hrows : (c.store.fence_authority c.incarnation).state.jobs.jobs.rows =
    c.world.jobs.rows := by
    have hjobs := (Reconciled.start Refused fenced calm).jobs
    exact congrArg Table.rows hjobs
  have hloop := Reconciled.loop now refused c.world.jobs.rows [] _ rfl
    (Reconciled.start Refused fenced calm)
  generalize hr : c.world.jobs.rows.foldl (fun r job => reconcile_job r job now)
    { ctl := { c with store := c.store.fence_authority c.incarnation } } = r at hloop
  have heq := reconcile_locked_of_loop ((congrArg (List.foldl _ _) hrows).trans hr)
  refine ⟨r, ?_⟩
  -- The jobs that changed are committed in one transaction, if there are any.
  by_cases hempty : (r.updates.map (r.ctl.stamped now)).isEmpty = true
  · rw [if_pos hempty] at heq
    have hnil : r.updates = [] := by simpa using hempty
    refine ⟨hloop, ?_, ?_, ?_, ?_, ?_, ?_⟩
    all_goals rw [heq]
    · exact hloop.incarnation
    · rfl
    · rw [hnil]
      exact fun _ => hloop.jobs
    · intro hno
      cases hno
    · rw [hnil]
      exact fun _ => Nat.zero_le _
    · exact fun _ => rfl
  · rw [if_neg hempty] at heq
    have hids : (r.updates.map (r.ctl.stamped now)).map MaintenanceJob.id =
        r.updates.map MaintenanceJob.id := by
      rw [List.map_map]
      refine List.map_congr_left (fun u _ => ?_)
      exact congrArg Core.id (core_stamped r.ctl now u)
    have hnd : ((r.updates.map (r.ctl.stamped now)).map MaintenanceJob.id).Nodup := by
      rw [hids, hloop.updated_ids]
      exact c.world.jobs.nodup_keys.sublist (List.filter_sublist.map _)
    -- The transaction is taken as a whole or leaves every job as it was stored.
    rcases Store.commit_jobs_cases r.ctl.store hnd with ⟨e, he, hb⟩ | ⟨hok, _, hb⟩
    · split at heq
      · next heq' =>
        rw [heq'] at hb
        refine ⟨hloop, ?_, ?_, ?_, ?_, ?_, ?_⟩
        all_goals rw [heq]
        · exact hloop.incarnation
        · exact congrArg (fun b => b.ledger) hb
        · intro hno
          cases hno
        · intro _
          exact (congrArg (fun b => b.jobs) hb).trans hloop.jobs
        · intro hno
          cases hno
        · intro hno
          cases hno
      · next heq' =>
        rw [heq'] at he
        cases he
    · have hlength := Store.commit_jobs_length hok
      split at heq
      · next heq' =>
        rw [heq'] at hok
        cases hok
      · next heq' =>
        rw [heq'] at hb
        refine ⟨hloop, ?_, ?_, ?_, ?_, ?_, ?_⟩
        all_goals rw [heq]
        · exact hloop.incarnation
        · exact congrArg (fun b => b.ledger) hb
        · intro _
          refine (congrArg (fun b => b.jobs) hb).trans ?_
          rw [← hloop.jobs, List.map_map]
          rfl
        · intro hno
          cases hno
        · intro _
          simpa using hlength
        · exact fun _ => rfl

/-! ## The jobs after a restart -/

/-- Related lists have related members on both sides. -/
theorem forall₂_members {α β : Type} {R : α → β → Prop} {as : List α} {bs : List β}
    (h : List.Forall₂ R as bs) : (∀ a ∈ as, ∃ b ∈ bs, R a b) ∧ ∀ b ∈ bs, ∃ a ∈ as, R a b := by
  induction h with
  | nil => simp
  | @cons a b as bs hab _ ih =>
    constructor
    · intro x hx
      rcases List.mem_cons.mp hx with rfl | hx
      · exact ⟨b, List.mem_cons_self, hab⟩
      · obtain ⟨y, hy, hxy⟩ := ih.1 x hx
        exact ⟨y, List.mem_cons_of_mem _ hy, hxy⟩
    · intro y hy
      rcases List.mem_cons.mp hy with rfl | hy
      · exact ⟨a, List.mem_cons_self, hab⟩
      · obtain ⟨x, hx, hxy⟩ := ih.2 y hy
        exact ⟨x, List.mem_cons_of_mem _ hx, hxy⟩

namespace Recovered

variable {c : Controller} {now : Nanos} {Refused : MaintenanceJob → Prop} {r : Reconciling}

/-- Every update is of a stored job. -/
theorem source (h : Recovered c now Refused r) {u : MaintenanceJob} (hu : u ∈ r.updates) :
    ∃ j ∈ c.world.jobs.rows, c.needs_reconciling j = true ∧
      Resumed c Refused r.ctl.world.ledger r.releases j u := by
  obtain ⟨j, hj, hresumed⟩ := (forall₂_members h.loop.updates).2 u hu
  obtain ⟨hj, hneeds⟩ := List.mem_filter.mp hj
  exact ⟨j, hj, hneeds, hresumed⟩

/-- After a restart that came up a job is the update made for it, or what it was. -/
theorem job_cases (h : Recovered c now Refused r)
    (hok : Status.isOk (c.reconcile_locked now).1 = true) {j' : MaintenanceJob}
    (hj' : j' ∈ (c.reconcile_locked now).2.world.jobs.rows) :
    (∃ j ∈ c.world.jobs.rows, c.needs_reconciling j = true ∧ ∃ u ∈ r.updates,
      Resumed c Refused r.ctl.world.ledger r.releases j u ∧ j'.core = u.core ∧
        j'.owner = u.owner) ∨
    j' ∈ c.world.jobs.rows ∧ c.needs_reconciling j' = false ∧ ∀ u ∈ r.updates, u.id ≠ j'.id := by
  have hfind := Table.find_iff_mem.mpr hj'
  rw [h.jobs hok] at hfind
  -- Stamping and clipping change no token of an update.
  have hcore : ∀ u, (clipped_job (r.ctl.stamped now u)).core = u.core ∧
      (clipped_job (r.ctl.stamped now u)).owner = u.owner := by
    intro u
    refine ⟨(core_clipped_job _).trans (core_stamped r.ctl now u), ?_⟩
    show (r.ctl.stamped now u).owner = u.owner
    unfold stamped
    split <;> rfl
  rcases Table.find_foldl_put_cases (r.updates.map (fun u => clipped_job (r.ctl.stamped now u)))
      c.world.jobs j'.id with ⟨v, hv, _, hput⟩ | ⟨hnone, hput⟩
  · left
    rw [hput] at hfind
    cases hfind
    obtain ⟨u, hu, hv⟩ := List.mem_map.mp hv
    obtain ⟨j, hj, hneeds, hresumed⟩ := h.source hu
    refine ⟨j, hj, hneeds, u, hu, hresumed, ?_, ?_⟩
    · rw [← hv]
      exact (hcore u).1
    · rw [← hv]
      exact (hcore u).2
  · right
    rw [hput] at hfind
    have hothers : ∀ u ∈ r.updates, u.id ≠ j'.id := by
      intro u hu hid
      refine hnone _ (List.mem_map_of_mem hu) ?_
      exact (congrArg Core.id (hcore u).1).trans hid
    refine ⟨Table.mem_of_find hfind, ?_, hothers⟩
    by_contra hneeds
    obtain ⟨u, hu, hresumed⟩ := (forall₂_members h.loop.updates).1 j'
      (List.mem_filter.mpr ⟨Table.mem_of_find hfind, by simpa using hneeds⟩)
    exact hothers u hu hresumed.fields.1

/-- A job the restart has touched is blocked, so it counts as over only if it kept its service. -/
theorem spent_update {j u : MaintenanceJob} {ledger : AuthorityLedger}
    {releases : List DrainAction} (h : Resumed c Refused ledger releases j u)
    (hspent : u.core.spent = true) : j.service_removed = false := by
  obtain ⟨_, _, _, hremoved, hstate, _⟩ := h.fields
  have hback : Drive.gives_back u.state u.service_removed = true := hspent
  rw [hstate, hremoved] at hback
  simpa [Drive.gives_back, JobState.is_terminal] using hback

/-- A reservation goes with a job that is not over. -/
theorem backed_job (h : Recovered c now Refused r) {g : AuthorityReservation}
    (hg : g ∈ r.ctl.world.ledger.reservations.rows) {j : MaintenanceJob}
    (hj : j ∈ c.world.jobs.rows) (hjob : g.job = j.id) :
    j.core.spent = false ∧ c.needs_reconciling j = true ∧ ∃ u ∈ r.updates, u.id = j.id ∧
      u.service_removed = true ∧ Backs c.incarnation u g := by
  obtain ⟨u, hu, hremoved, hbacks⟩ := h.loop.rows g hg
  obtain ⟨i, hi, hneeds, hresumed⟩ := h.source hu
  obtain ⟨hid, _, _, hsame, _⟩ := hresumed.fields
  have heq : i = j := by
    refine Table.eq_of_mem_of_key_eq hi hj ?_
    exact hid.symm.trans (hbacks.job.symm.trans hjob)
  subst heq
  refine ⟨?_, hneeds, u, hu, hid, hremoved, hbacks⟩
  simp only [needs_reconciling, Bool.not_eq_true', Bool.or_eq_false_iff] at hneeds
  have halive : i.state.is_terminal = false := hneeds.1.1.1
  show Drive.gives_back i.state i.service_removed = false
  rw [← hsame, hremoved]
  simp [Drive.gives_back, halive]

/-- What the new incarnation can account for. -/
theorem held (h : Recovered c now Refused r)
    (hok : Status.isOk (c.reconcile_locked now).1 = true)
    (hspent : ∀ j ∈ c.world.jobs.rows, j.core.spent = true → j.authority = ⟨0⟩) :
    ∀ j' ∈ (c.reconcile_locked now).2.world.jobs.rows,
      Held (c.reconcile_locked now).2.world.ledger (c.reconcile_locked now).2.incarnation
        j'.core := by
  intro j' hj'
  rw [h.ledger, h.incarnation]
  rcases h.job_cases hok hj' with ⟨j, hj, hneeds, u, hu, hresumed, hcore, _⟩ | ⟨hj, hneeds, hothers⟩
  · have hid := hresumed.fields.1
    refine ⟨?_, ?_⟩
    · intro g hg hjob
      rw [hcore] at hjob ⊢
      obtain ⟨_, _, v, hv, hvid, hremoved, hbacks⟩ := h.backed_job hg hj (hjob.trans hid)
      -- There is one update for each job.
      have hsame : v = u := by
        have hnd : (r.updates.map MaintenanceJob.id).Nodup := by
          rw [h.loop.updated_ids]
          exact c.world.jobs.nodup_keys.sublist (List.filter_sublist.map _)
        exact List.inj_on_of_nodup_map hnd hv hu (hvid.trans hid.symm)
      subst hsame
      refine ⟨hbacks.id, hbacks.generation, hbacks.attempt.1, hbacks.owner, ?_⟩
      by_contra hover
      have hkept := spent_update hresumed (by simpa using hover)
      rw [hresumed.fields.2.2.2.1] at hremoved
      rw [hkept] at hremoved
      cases hremoved
    · intro hover
      rw [hcore] at hover ⊢
      exact (hresumed.kept (spent_update hresumed hover)).1
  · refine .of_none ?_ (hspent j' hj)
    intro g hg hjob
    obtain ⟨_, hneeded, _⟩ := h.backed_job hg hj hjob
    rw [hneeds] at hneeded
    cases hneeded

/-- A job that is over has no reservation, whether the process came up or not. -/
theorem finished (h : Recovered c now Refused r)
    (hspent : ∀ j ∈ c.world.jobs.rows, j.core.spent = true → j.authority = ⟨0⟩) :
    ∀ j' ∈ (c.reconcile_locked now).2.world.jobs.rows, j'.core.spent = true →
      j'.authority = ⟨0⟩ ∧
        ∀ g ∈ (c.reconcile_locked now).2.world.ledger.reservations.rows, g.job ≠ j'.id := by
  intro j' hj' hover
  cases hok : Status.isOk (c.reconcile_locked now).1 with
  | true =>
    have hheld := h.held hok hspent j' hj'
    exact ⟨hheld.spent hover, hheld.none_of_spent hover⟩
  | false =>
    rw [h.failed hok] at hj'
    refine ⟨hspent j' hj' hover, ?_⟩
    rw [h.ledger]
    intro g hg hjob
    have hstage := (h.backed_job hg hj' hjob).1
    rw [hover] at hstage
    cases hstage

theorem inherits (h : Recovered c now Refused r) : Inherits c (c.reconcile_locked now).2 := by
  cases hok : Status.isOk (c.reconcile_locked now).1 with
  | false => exact .of_jobs (h.failed hok)
  | true =>
    intro j' hj'
    rcases h.job_cases hok hj' with ⟨j, hj, _, u, _, hresumed, hcore, _⟩ | ⟨hj, _, _⟩
    · cases hremoved : j.service_removed with
      | false =>
        left
        exact (congrArg Core.lease hcore).trans (hresumed.kept hremoved).2.1
      | true =>
        right
        have hlease := (hresumed.removed hremoved).1
        refine ⟨j, hj, ?_, (congrArg Core.lease hcore).trans hlease, ?_⟩
        · exact hresumed.fields.1.symm.trans (congrArg Core.id hcore).symm
        · intro hover
          rw [hcore] at hover
          have hkept := spent_update hresumed hover
          rw [hremoved] at hkept
          cases hkept
    · exact .inr ⟨j', hj, rfl, rfl, fun hover => ⟨hover, rfl⟩⟩

end Recovered

/-! ## Opening -/

/-- The controller that goes on to reconcile, once the store has given it an incarnation. -/
def booting (store : Store) (options : ControllerOptions) (steady : Nat) : Option Controller :=
  let store : Store := { state := recovered store.state options, verdicts := store.verdicts
                         log := store.log, digests := store.digests }
  match store.begin_incarnation options.controller_id options.nonce steady with
  | (.error _, _) => none
  | (.ok incarnation, store) => some { store, incarnation, policy := store.state.policy
                                       topology := store.state.topology }

/-- What such a controller has found. -/
structure Boots (store : Store) (c : Controller) : Prop where
  jobs : c.world.jobs = store.books.jobs
  ledger : c.world.ledger = store.books.ledger
  epoch : c.incarnation.boot_epoch = store.books.epoch.next
  valid : c.incarnation.valid = true
  calm : store.verdicts = [] → c.Calm
  deferred : c.deferred_releases = []
  topology : c.topology = store.state.topology ∧ c.store.state.topology = store.state.topology
  policy : c.policy = store.state.policy ∧ c.store.state.policy = store.state.policy

theorem open_cases (store : Store) (options : ControllerOptions) (clock : Nanos) (steady : Nat) :
    (booting store options steady = none ∧
      Status.isOk (Controller.open store options clock steady).1 = false ∧
      (Controller.open store options clock steady).2.world.jobs = store.books.jobs ∧
      (Controller.open store options clock steady).2.world.ledger = store.books.ledger ∧
      (Controller.open store options clock steady).2.store.state.topology = store.state.topology ∧
      (Controller.open store options clock steady).2.store.state.policy = store.state.policy) ∨
    ∃ c, booting store options steady = some c ∧ Boots store c ∧
      Controller.open store options clock steady = c.reconcile_locked clock := by
  unfold booting Controller.open
  simp only
  generalize hfound : ({ state := recovered store.state options, verdicts := store.verdicts
                         log := store.log, digests := store.digests } : Store) = found
  have hbooks : found.books.jobs = store.books.jobs ∧ found.books.ledger = store.books.ledger ∧
      found.books.epoch = store.books.epoch ∧ found.verdicts = store.verdicts := by
    rw [← hfound]
    exact ⟨rfl, rfl, rfl, rfl⟩
  obtain ⟨hjobs, hledger, hepoch, hverdicts⟩ := hbooks
  have hconfig := found.begin_incarnation_config options.controller_id options.nonce steady
  rw [show found.state.topology = store.state.topology by rw [← hfound]; rfl,
    show found.state.policy = store.state.policy by rw [← hfound]; rfl] at hconfig
  have hcalm : found.verdicts = [] → _ := fun h =>
    Store.verdicts_begin_incarnation h options.controller_id options.nonce steady
  have hvalid := @Store.begin_incarnation_valid found options.controller_id options.nonce steady
  have hcases := found.begin_incarnation_cases options.controller_id options.nonce steady
  generalize found.begin_incarnation options.controller_id options.nonce steady = begun
    at hcalm hvalid hcases hconfig ⊢
  obtain ⟨result, store'⟩ := begun
  -- Without an incarnation the controller stays down, over the store as it was found.
  rcases hcases with ⟨e, he, hb⟩ | ⟨incarnation, hok, hnext, hb⟩
  · left
    cases he
    refine ⟨rfl, rfl, ?_, ?_, hconfig⟩
    · exact (congrArg (fun b => b.jobs) hb).trans hjobs
    · exact (congrArg (fun b => b.ledger) hb).trans hledger
  · right
    cases hok
    refine ⟨_, rfl, ⟨?_, ?_, ?_, hvalid rfl, ?_, rfl, ⟨hconfig.1, hconfig.1⟩, hconfig.2, hconfig.2⟩,
      rfl⟩
    · exact (congrArg (fun b => b.jobs) hb).trans hjobs
    · exact (congrArg (fun b => b.ledger) hb).trans hledger
    · rw [← hepoch]
      exact hnext
    · intro h
      exact hcalm (hverdicts.trans h)

/-- Every reservation that was made before belongs to an older incarnation. -/
theorem Boots.older {store : Store} {c : Controller} (h : Boots store c)
    (hold : ∀ r ∈ store.books.ledger.reservations.rows, r.owner.boot_epoch ≤ store.books.epoch) :
    ∀ r ∈ c.world.ledger.reservations.rows, is_fenced_by r.owner c.incarnation = true := by
  intro r hr
  rw [h.ledger] at hr
  have hlt : r.owner.boot_epoch < c.incarnation.boot_epoch := by
    rw [h.epoch]
    exact lt_of_le_of_lt (hold r hr) (StrongId.lt_iff.mpr (Nat.lt_succ_self _))
  unfold is_fenced_by
  split
  · rfl
  · rw [if_pos hlt.ne]
    exact decide_eq_true hlt

end Controller

end MaintenanceFabric
