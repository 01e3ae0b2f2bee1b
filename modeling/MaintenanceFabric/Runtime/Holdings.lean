import MaintenanceFabric.Runtime.Drives
import MaintenanceFabric.Runtime.Frames

/-! # What a job holds

    While the journal accepts what it is given, a job accounts for every
    reservation in the ledger that names it: there is at most one, the job
    names it back, and it carries the job's generation and active attempt and
    the incarnation that runs.  A job that has ended, or is blocked without
    having removed service, accounts for none.

    Accounting survives the loss of reservations, so a copy of a job that is
    never committed does no harm.
-/

namespace MaintenanceFabric

open Lib

/-! ## Ledgers that only lose reservations -/

namespace AuthorityLedger

/-- Every reservation that is left was there before, up to its end and revision. -/
def Within (l l' : AuthorityLedger) : Prop :=
  ∀ r' ∈ l'.reservations.rows, ∃ r ∈ l.reservations.rows, r'.id = r.id ∧ r'.job = r.job ∧
    r'.generation = r.generation ∧ r'.attempt = r.attempt ∧ r'.owner = r.owner

/-- Every reservation has an identity and a token. -/
def Fine (l : AuthorityLedger) : Prop :=
  ∀ r ∈ l.reservations.rows, r.id.valid = true ∧ r.attempt.valid = true

namespace Within

variable {l l' l'' : AuthorityLedger}

theorem of_subset (h : ∀ r ∈ l'.reservations.rows, r ∈ l.reservations.rows) : Within l l' :=
  fun r hr => ⟨r, h r hr, rfl, rfl, rfl, rfl, rfl⟩

theorem refl (l : AuthorityLedger) : Within l l := of_subset (fun _ h => h)

theorem of_eq (h : l' = l) : Within l l' := by
  rw [h]
  exact refl l

theorem trans (h : Within l l') (h' : Within l' l'') : Within l l'' := by
  intro r hr
  obtain ⟨r', hr', hid, hjob, hgeneration, hattempt, howner⟩ := h' r hr
  obtain ⟨r'', hr'', hid', hjob', hgeneration', hattempt', howner'⟩ := h r' hr'
  exact ⟨r'', hr'', hid.trans hid', hjob.trans hjob', hgeneration.trans hgeneration',
    hattempt.trans hattempt', howner.trans howner'⟩

theorem without (l : AuthorityLedger) (id : AuthorityId) : Within l (l.without id) :=
  of_subset (fun _ h => (Table.mem_erase.mp h).1)

/-- A job without reservations gets none. -/
theorem none_left (h : Within l l') {job : JobId}
    (hnone : ∀ r ∈ l.reservations.rows, r.job ≠ job) : ∀ r ∈ l'.reservations.rows, r.job ≠ job := by
  intro r hr hjob
  obtain ⟨r', hr', _, hjob', _⟩ := h r hr
  exact hnone r' hr' (hjob'.symm.trans hjob)

theorem fine (h : Within l l') (hfine : l.Fine) : l'.Fine := by
  intro r hr
  obtain ⟨r', hr', hid, _, _, hattempt, _⟩ := h r hr
  rw [hid, hattempt]
  exact hfine r' hr'

end Within

end AuthorityLedger

/-! ## Accounting -/

/-- Is this the stage of a job that holds nothing? -/
def Core.spent (c : Core) : Bool := Drive.gives_back c.state c.service_removed

/-- The job knows of a reservation made for it. -/
structure Accounts (current : ControllerIncarnation) (c : Core) (r : AuthorityReservation) :
    Prop where
  id : r.id = c.authority
  generation : r.generation = c.generation
  attempt : r.attempt = c.active_attempt
  owner : r.owner = current
  stage : c.spent = false

/-- The job knows of every reservation made for it, and of none once it is over. -/
structure Held (l : AuthorityLedger) (current : ControllerIncarnation) (c : Core) : Prop where
  rows : ∀ r ∈ l.reservations.rows, r.job = c.id → Accounts current c r
  spent : c.spent = true → c.authority = ⟨0⟩

namespace Held

variable {l l' : AuthorityLedger} {current : ControllerIncarnation} {c c' : Core}

/-- Reservations may be lost. -/
theorem within (h : Held l current c) (hwithin : l.Within l') : Held l' current c := by
  refine ⟨?_, h.spent⟩
  intro r hr hjob
  obtain ⟨r', hr', hid, hjob', hgeneration, hattempt, howner⟩ := hwithin r hr
  have haccounts := h.rows r' hr' (hjob'.symm.trans hjob)
  exact ⟨hid.trans haccounts.id, hgeneration.trans haccounts.generation,
    hattempt.trans haccounts.attempt, howner.trans haccounts.owner, haccounts.stage⟩

/-- A job without reservations. -/
theorem of_none (hnone : ∀ r ∈ l.reservations.rows, r.job ≠ c.id)
    (hspent : c.spent = true → c.authority = ⟨0⟩) : Held l current c :=
  ⟨fun r hr hjob => absurd hjob (hnone r hr), hspent⟩

/-- A finished job, or one that is blocked in service, has no reservation. -/
theorem none_of_spent (h : Held l current c) (hspent : c.spent = true) :
    ∀ r ∈ l.reservations.rows, r.job ≠ c.id := by
  intro r hr hjob
  have hstage := (h.rows r hr hjob).stage
  rw [hspent] at hstage
  cases hstage

/-- The job changes in what accounting does not look at. -/
theorem of_same (h : Held l current c) (hid : c'.id = c.id)
    (hgeneration : c'.generation = c.generation)
    (hattempt : c'.active_attempt = c.active_attempt) (hauthority : c'.authority = c.authority)
    (hstage : c'.spent = true → c.spent = true) : Held l current c' := by
  refine ⟨?_, ?_⟩
  · intro r hr hjob
    have haccounts := h.rows r hr (hjob.trans hid)
    refine ⟨haccounts.id.trans hauthority.symm, haccounts.generation.trans hgeneration.symm,
      haccounts.attempt.trans hattempt.symm, haccounts.owner, ?_⟩
    rw [← Bool.not_eq_true]
    intro hspent
    rw [haccounts.stage] at hstage
    exact absurd (hstage hspent) (by simp)
  · intro hspent
    exact hauthority.trans (h.spent (hstage hspent))

/-- A job without a valid attempt has no reservation, so it may take a new one. -/
theorem none_of_idle (h : Held l current c) (hfine : l.Fine)
    (hidle : c.active_attempt.valid = false) : ∀ r ∈ l.reservations.rows, r.job ≠ c.id := by
  intro r hr hjob
  have hvalid := (hfine r hr).2
  rw [(h.rows r hr hjob).attempt, hidle] at hvalid
  cases hvalid

theorem mint (h : Held l current c) (hfine : l.Fine) (hidle : c.active_attempt.valid = false) :
    Held l current c.mint :=
  .of_none (h.none_of_idle hfine hidle) h.spent

theorem with_attempt (h : Held l current c) (hfine : l.Fine) : Held l current c.with_attempt := by
  unfold Core.with_attempt
  by_cases hidle : c.active_attempt.valid = true
  · rw [if_pos hidle]
    exact h
  · rw [if_neg hidle]
    exact h.mint hfine (by simpa using hidle)

/-- The job goes on to a stage in which it may hold authority. -/
theorem onward (h : Held l current c) {to_state : JobState} (hopen : to_state.is_terminal = false)
    (hstage : (c.move to_state).spent = false) : Held l current (c.move to_state) := by
  refine h.of_same rfl rfl ?_ rfl ?_
  · simp [Core.move, hopen]
  · intro hspent
    rw [hstage] at hspent
    cases hspent

end Held

/-! ## Giving resources back -/

/-- Without a fault a release is refused by the ledger or drops the row. -/
theorem Store.release_authority_calm {s : Store} (h : s.verdicts = []) (id : AuthorityId)
    (current : ControllerIncarnation) :
    (∃ e, s.books.ledger.release id current = .error e ∧
      s.release_authority id current = (.error e, s)) ∨
    (s.release_authority id current).1 = ok_status ∧
      (s.release_authority id current).2.books =
        { s.books with ledger := s.books.ledger.without id } := by
  unfold release_authority
  split
  · next e he => exact .inl ⟨e, he, rfl⟩
  · next staging hstaging =>
    have hstage : staging = s.books.ledger.without id := by
      unfold AuthorityLedger.release at hstaging
      split at hstaging
      · cases hstaging
      · split at hstaging
        · cases hstaging
        · exact (Except.ok.inj hstaging).symm
    have hadm : admit_transaction [.reservation_erased id] = .ok () :=
      admit_single (by show erased_size ≤ _; decide)
    right
    unfold install_ledger
    rw [append_transaction_of_verdicts_nil h hadm, hstage]
    exact ⟨rfl, rfl⟩

namespace Drive

/-- Giving the resources back leaves nothing that is the job's. -/
structure Freed (d d' : Drive) : Prop where
  jobs : d'.ctl.world.jobs = d.ctl.world.jobs
  core : d'.job.core = { d.job.core with authority := ⟨0⟩, lease := ⟨0⟩ }
  within : d.ctl.world.ledger.Within d'.ctl.world.ledger
  none_left : ∀ r ∈ d'.ctl.world.ledger.reservations.rows, r.job ≠ d.job.id

/-- What the release of a job needs to know of its reservations. -/
def Owned (d : Drive) : Prop :=
  ∀ r ∈ d.ctl.world.ledger.reservations.rows, r.job = d.job.id →
    r.id = d.job.authority ∧ r.owner = d.ctl.incarnation

theorem release_authority_frees {d : Drive} (calm : d.ctl.Calm) (fine : d.ctl.world.ledger.Fine)
    (owned : d.Owned) :
    d.release_authority.ctl.world.jobs = d.ctl.world.jobs ∧
      d.release_authority.job.core = { d.job.core with authority := ⟨0⟩ } ∧
      d.ctl.world.ledger.Within d.release_authority.ctl.world.ledger ∧
      ∀ r ∈ d.release_authority.ctl.world.ledger.reservations.rows, r.job ≠ d.job.id := by
  unfold release_authority
  -- A job without authority has no reservation either: the ids in the ledger are valid.
  by_cases hvalid : d.job.authority.valid = true
  · rw [if_pos hvalid]
    simp only
    rcases Store.release_authority_calm calm d.job.authority d.ctl.incarnation with
      ⟨e, hrelease, heq⟩ | ⟨hok, hbooks⟩
    · -- The ledger refuses only what is not there, or is not this incarnation's.
      rw [heq]
      have hlost : Controller.gives_up (.error e) = true ∧
          ∀ r ∈ d.ctl.world.ledger.reservations.rows, r.job ≠ d.job.id := by
        unfold AuthorityLedger.release at hrelease
        split at hrelease
        · next hnone =>
          cases hrelease
          refine ⟨rfl, ?_⟩
          intro r hr hjob
          have hfound : d.ctl.world.ledger.reservations.find d.job.authority = some r := by
            rw [← (owned r hr hjob).1]
            exact Table.find_iff_mem.mpr hr
          have hmissing : d.ctl.world.ledger.reservations.find d.job.authority = none := hnone
          rw [hmissing] at hfound
          cases hfound
        · next found hfound =>
          split at hrelease
          · next hforeign =>
            cases hrelease
            refine ⟨rfl, ?_⟩
            intro r hr hjob
            have hsame : r = found := by
              refine Table.eq_of_mem_of_key_eq hr (Table.mem_of_find hfound) ?_
              exact (owned r hr hjob).1.trans (Table.key_of_find hfound).symm
            exact hforeign (hsame ▸ (owned r hr hjob).2)
          · cases hrelease
      rw [if_pos hlost.1]
      exact ⟨rfl, rfl, .refl _, hlost.2⟩
    · generalize d.ctl.store.release_authority d.job.authority d.ctl.incarnation = released
        at hok hbooks
      rw [if_pos (by rw [hok]; rfl)]
      have hledger : ({ d.ctl with store := released.2 } : Controller).world.ledger =
          d.ctl.world.ledger.without d.job.authority := by
        show released.2.books.ledger = _
        rw [hbooks]
        rfl
      have hjobs : released.2.books.jobs = d.ctl.world.jobs := by
        rw [hbooks]
        rfl
      refine ⟨hjobs, rfl, ?_, ?_⟩
      · rw [hledger]
        exact .without _ _
      · intro r hr hjob
        rw [hledger] at hr
        obtain ⟨hr, hother⟩ := Table.mem_erase.mp hr
        exact hother (owned r hr hjob).1
  · rw [if_neg hvalid]
    have hzero : d.job.authority = ⟨0⟩ := by
      apply StrongId.ext
      by_contra hne
      exact hvalid (StrongId.valid_iff.mpr hne)
    refine ⟨rfl, ?_, .refl _, ?_⟩
    · rw [← hzero]
      rfl
    · intro r hr hjob
      apply hvalid
      rw [← (owned r hr hjob).1]
      exact (fine r hr).1

theorem release_lease_core (d : Drive) :
    d.release_lease.job.core = { d.job.core with lease := ⟨0⟩ } ∧ d.release_lease.ctl = d.ctl := by
  unfold release_lease
  by_cases hvalid : d.job.lease.valid = true
  · rw [if_pos hvalid]
    exact ⟨rfl, rfl⟩
  · rw [if_neg hvalid]
    have hzero : d.job.lease = ⟨0⟩ := by
      apply StrongId.ext
      by_contra hne
      exact hvalid (StrongId.valid_iff.mpr hne)
    refine ⟨?_, rfl⟩
    rw [← hzero]
    rfl

theorem release_resources_frees {d : Drive} (calm : d.ctl.Calm) (fine : d.ctl.world.ledger.Fine)
    (owned : d.Owned) : Freed d d.release_resources_locked := by
  obtain ⟨hjobs, hcore, hwithin, hnone⟩ := release_authority_frees calm fine owned
  obtain ⟨hlease, hctl⟩ := release_lease_core d.release_authority
  unfold release_resources_locked
  refine ⟨?_, ?_, ?_, ?_⟩
  · rw [hctl]
    exact hjobs
  · rw [hlease, hcore]
  · rw [hctl]
    exact hwithin
  · rw [hctl]
    exact hnone

/-! ## Drives -/

/-- Work that leaves the jobs and the ledger alone. -/
structure Aside (c c' : Controller) : Prop where
  jobs : c'.world.jobs = c.world.jobs
  ledger : c'.world.ledger = c.world.ledger
  incarnation : c'.incarnation = c.incarnation
  calm : c.Calm → c'.Calm

namespace Aside

variable {c c' c'' : Controller}

theorem refl (c : Controller) : Aside c c := ⟨rfl, rfl, rfl, id⟩

theorem trans (h : Aside c c') (h' : Aside c' c'') : Aside c c'' :=
  ⟨h'.jobs.trans h.jobs, h'.ledger.trans h.ledger, h'.incarnation.trans h.incarnation,
    fun hc => h'.calm (h.calm hc)⟩

theorem foldl {α : Type} {f : Controller → α → Controller} (h : ∀ c a, Aside c (f c a)) :
    ∀ (l : List α) (c : Controller), Aside c (l.foldl f c)
  | [], c => refl c
  | a :: l, c => (h c a).trans (foldl h l (f c a))

end Aside

/-- From one job copy to the next, reservations are only lost and the copy accounts for what is
    left. -/
structure Balances (d d' : Drive) : Prop where
  calm : d.ctl.Calm → d'.ctl.Calm
  incarnation : d'.ctl.incarnation = d.ctl.incarnation
  jobs : d'.ctl.world.jobs = d.ctl.world.jobs
  id : d'.job.id = d.job.id
  within : d.ctl.world.ledger.Within d'.ctl.world.ledger
  held : Held d.ctl.world.ledger d.ctl.incarnation d.job.core →
    Held d'.ctl.world.ledger d'.ctl.incarnation d'.job.core

/-- And a lease is kept only by a job that does not enter a stage without one. -/
structure Settles (d d' : Drive) : Prop extends Balances d d' where
  lease : d'.job.lease = ⟨0⟩ ∨ d'.job.lease = d.job.lease ∧
    (d'.job.core.spent = true → d.job.core.spent = true ∧ d'.job.state = d.job.state)

theorem Settles.trans {d d' d'' : Drive} (h : Settles d d') (h' : Settles d' d'') :
    Settles d d'' := by
  refine ⟨⟨fun hcalm => h'.calm (h.calm hcalm), h'.incarnation.trans h.incarnation,
    h'.jobs.trans h.jobs, h'.id.trans h.id, h.within.trans h'.within,
    fun hheld => h'.held (h.held hheld)⟩, ?_⟩
  rcases h'.lease with hlease' | ⟨hlease', hstage'⟩
  · exact .inl hlease'
  · rcases h.lease with hlease | ⟨hlease, hstage⟩
    · exact .inl (hlease'.trans hlease)
    · refine .inr ⟨hlease'.trans hlease, ?_⟩
      intro hspent
      obtain ⟨hspent', hstate'⟩ := hstage' hspent
      obtain ⟨hspent'', hstate⟩ := hstage hspent'
      exact ⟨hspent'', hstate'.trans hstate⟩

/-- Neither the ledger nor what the job holds has changed. -/
theorem settles_touched {d d' : Drive} (haside : Aside d.ctl d'.ctl)
    (hcore : ∃ removal_set failed, d'.job.core =
      { d.job.core with removal_set, maintenance_failed := failed }) : Settles d d' := by
  obtain ⟨removal_set, failed, hcore⟩ := hcore
  refine ⟨⟨haside.calm, haside.incarnation, haside.jobs, congrArg Core.id hcore,
    .of_eq haside.ledger, ?_⟩, .inr ⟨congrArg Core.lease hcore, ?_⟩⟩
  · intro hheld
    rw [haside.ledger, haside.incarnation, hcore]
    exact hheld.of_same rfl rfl rfl rfl id
  · intro hspent
    rw [hcore] at hspent
    exact ⟨hspent, congrArg Core.state hcore⟩

theorem settles_refl (d : Drive) : Settles d d :=
  settles_touched (.refl _) ⟨d.job.removal_set, d.job.maintenance_failed, rfl⟩

/-- The job's own share of a transition does not change what it holds. -/
theorem entered_holding (j : MaintenanceJob) (to_state : JobState) (reason : BlockReason)
    (detail : Text) (now : Nanos) (by_ : ControllerIncarnation) :
    (entered j to_state reason detail now by_).id = j.id ∧
      (entered j to_state reason detail now by_).lease = j.lease := by
  have hcore := core_entered j to_state reason detail now by_
  exact ⟨congrArg Core.id hcore, congrArg Core.lease hcore⟩

theorem settles_transition {d : Drive} (calm : d.ctl.Calm) (fine : d.ctl.world.ledger.Fine)
    (owned : d.Owned) (to_state : JobState) (reason : BlockReason) (detail : Text) (now : Nanos) :
    Settles d (d.transition_locked to_state reason detail now).2 := by
  have hentered := core_entered d.job to_state reason detail now d.ctl.incarnation
  have hincarnation := (keeps_transition d to_state reason detail now).frame.incarnation
  have hback := gives_back_entered d.job to_state reason detail now d.ctl.incarnation
  have hcalm : d.ctl.Calm → (d.transition_locked to_state reason detail now).2.ctl.Calm := by
    rcases transition_cases d to_state reason detail now with hno | ⟨_, _, hmoved⟩
    · rw [hno]
      exact id
    · exact hmoved.calm
  unfold transition_locked at hincarnation hcalm ⊢
  split
  · next hallowed =>
    rw [if_pos hallowed] at hincarnation hcalm
    simp only at hincarnation hcalm ⊢
    rw [hback] at hincarnation hcalm ⊢
    by_cases hgives : gives_back to_state d.job.service_removed = true
    · rw [if_pos hgives] at hincarnation hcalm ⊢
      have hfreed : Freed
          { d with job := entered d.job to_state reason detail now d.ctl.incarnation }
          (release_resources_locked
            { d with job := entered d.job to_state reason detail now d.ctl.incarnation }) := by
        refine release_resources_frees calm fine ?_
        intro r hr hjob
        rw [entered_authority]
        exact owned r hr (hjob.trans (entered_holding _ _ _ _ _ _).1)
      generalize release_resources_locked _ = freed at hincarnation hcalm hfreed ⊢
      have hcore := hfreed.core
      rw [hentered] at hcore
      -- Nothing of the job is left, and the copy knows.
      have hcalm : d.ctl.Calm → freed.ctl.Calm := by
        intro h
        have hafter := hcalm h
        split at hafter
        · exact hafter
        · exact hafter
      have hincarnation : freed.ctl.incarnation = d.ctl.incarnation := by
        split at hincarnation
        · exact hincarnation
        · exact hincarnation
      have hleft : ∀ job : MaintenanceJob, job.id = d.job.id → job.authority = ⟨0⟩ →
          job.lease = ⟨0⟩ → Settles d { freed with job } := by
        intro job hid hauthority hlease
        refine ⟨⟨hcalm, hincarnation, hfreed.jobs, hid, hfreed.within, ?_⟩, .inl hlease⟩
        intro _
        refine .of_none ?_ (fun _ => hauthority)
        intro r hr hjob
        refine hfreed.none_left r hr ?_
        rw [(entered_holding _ _ _ _ _ _).1, ← hid]
        exact hjob
      split
      · exact hleft _ (congrArg Core.id hcore) (congrArg Core.authority hcore)
          (congrArg Core.lease hcore)
      · exact hleft freed.job (congrArg Core.id hcore) (congrArg Core.authority hcore)
          (congrArg Core.lease hcore)
    · rw [if_neg hgives] at hincarnation hcalm ⊢
      have hopen : to_state.is_terminal = false := by
        rw [← Bool.not_eq_true]
        intro hterminal
        exact hgives (by simp [gives_back, hterminal])
      have hcore : (entered d.job to_state reason detail now d.ctl.incarnation).core =
          d.job.core.move to_state := by
        rw [hentered]
        simp only [Core.move, hopen]
        rfl
      have hstage : (d.job.core.move to_state).spent = false := by
        rw [← Bool.not_eq_true]
        intro hspent
        apply hgives
        simp only [Core.spent, gives_back, Core.move, Bool.or_eq_true, Bool.and_eq_true, beq_iff_eq,
          Bool.not_eq_true', Bool.or_eq_false_iff] at hspent ⊢
        exact hspent.imp_right (fun h => ⟨h.1, h.2.1⟩)
      rw [if_neg (by simp [hopen])]
      refine ⟨⟨id, rfl, rfl, (entered_holding _ _ _ _ _ _).1, .refl _, ?_⟩,
        .inr ⟨(entered_holding _ _ _ _ _ _).2, ?_⟩⟩
      · intro hheld
        show Held d.ctl.world.ledger d.ctl.incarnation
          (entered d.job to_state reason detail now d.ctl.incarnation).core
        rw [hcore]
        exact hheld.onward hopen hstage
      · intro hspent
        have hspent : (entered d.job to_state reason detail now d.ctl.incarnation).core.spent =
          true := hspent
        rw [hcore, hstage] at hspent
        cases hspent
  · exact settles_refl d

/-- A transition at the end of a drive. -/
theorem Settles.transition {d prepared : Drive} (h : Settles d prepared)
    (calm : prepared.ctl.Calm) (fine : d.ctl.world.ledger.Fine)
    (held : Held d.ctl.world.ledger d.ctl.incarnation d.job.core) (to_state : JobState)
    (reason : BlockReason) (detail : Text) (now : Nanos) :
    Settles d (prepared.transition_locked to_state reason detail now).2 := by
  refine h.trans (settles_transition calm (h.within.fine fine) ?_ to_state reason detail now)
  intro r hr hjob
  have haccounts := (h.held held).rows r hr hjob
  exact ⟨haccounts.id, haccounts.owner⟩

theorem aside_author_evidence (c : Controller) (kind : EvidenceKind) (target : TargetId)
    (source : SourceId) (now : Nanos) (payload : EvidencePayload) (job : JobId)
    (attempt : AttemptId) :
    Aside c (c.author_evidence kind target source now payload job attempt).2 := by
  have hbooks : ∃ evidence,
    (c.author_evidence kind target source now payload job attempt).2.store.books =
      { c.store.books with evidence } := by
    unfold Controller.author_evidence Controller.write_evidence_locked
    simp only
    generalize hmade : c.make_evidence_locked kind (EvidenceSubject.of target) source now
      (c.policy.ttl_for kind) payload job attempt = made
    have hbooks : made.2.store.books = c.store.books := by
      rw [← hmade]
      rfl
    rcases Store.observe_evidence_cases made.2.store made.1 with ⟨e, _, hb, _⟩ | ⟨staging, _, _, hb⟩
    · exact ⟨c.store.books.evidence, by rw [hb, hbooks]⟩
    · exact ⟨staging, by rw [hb, hbooks]⟩
  obtain ⟨evidence, hbooks⟩ := hbooks
  refine ⟨congrArg (fun b => b.jobs) hbooks, congrArg (fun b => b.ledger) hbooks,
    (c.frame_author_evidence kind target source now payload job attempt).incarnation, ?_⟩
  · intro hcalm
    exact Store.verdicts_observe_evidence
      (show c.store.allocate_evidence_id.2.verdicts = [] from hcalm) _

theorem aside_quarantine (c : Controller) (job : MaintenanceJob) (reason : BlockReason)
    (detail : Text) (now : Nanos) :
    Aside c (c.quarantine_targets_locked job reason detail now) := by
  unfold Controller.quarantine_targets_locked
  apply Aside.foldl
  intro c target
  have hbooks := Store.books_quarantine_target c.store target job.id job.generation reason detail
    now c.incarnation
  exact ⟨congrArg (fun b => b.jobs) hbooks, congrArg (fun b => b.ledger) hbooks, rfl,
    fun h => Store.verdicts_quarantine_target h _ _ _ _ _ _ _⟩

theorem aside_record_restoration (c : Controller) (job : MaintenanceJob) (context : PassContext) :
    Aside c (record_restoration c job context) := by
  unfold record_restoration
  apply Aside.foldl
  intro c target
  exact aside_author_evidence c _ _ _ _ _ _ _

/-- A job that no reservation is made for may forget its authority. -/
theorem settles_forgotten {d : Drive} {ctl : Controller} (hcalm : d.ctl.Calm → ctl.Calm)
    (hincarnation : ctl.incarnation = d.ctl.incarnation)
    (hjobs : ctl.world.jobs = d.ctl.world.jobs)
    (hwithin : d.ctl.world.ledger.Within ctl.world.ledger)
    (hnone : ∀ r ∈ d.ctl.world.ledger.reservations.rows, r.job ≠ d.job.id) :
    Settles d { d with ctl, job := { d.job with authority := ⟨0⟩ } } := by
  refine ⟨⟨hcalm, hincarnation, hjobs, rfl, hwithin, ?_⟩, .inr ⟨rfl, fun hspent => ⟨hspent, rfl⟩⟩⟩
  intro _
  exact .of_none (hwithin.none_left hnone) (fun _ => rfl)

/-! ### Renewal -/

theorem within_renew (s : Store) (id : AuthorityId) (attempt : AttemptId)
    (current : ControllerIncarnation) (extend now : Nanos) :
    (s.renew_authority id attempt current extend now).2.books.jobs = s.books.jobs ∧
      s.books.ledger.Within (s.renew_authority id attempt current extend now).2.books.ledger := by
  rcases s.renew_authority_books id attempt current extend now
    with hbooks | ⟨r, e, v, hr, _, hbooks⟩
  · rw [hbooks]
    exact ⟨rfl, .refl _⟩
  · rw [hbooks]
    refine ⟨rfl, ?_⟩
    intro r' hr'
    rcases Table.mem_put.mp hr' with rfl | ⟨hr', _⟩
    · exact ⟨r, hr, rfl, rfl, rfl, rfl, rfl⟩
    · exact ⟨r', hr', rfl, rfl, rfl, rfl, rfl⟩

/-- A renewal is refused as lost by the ledger only. -/
theorem renew_authority_lost {s : Store} {id : AuthorityId} {attempt : AttemptId}
    {current : ControllerIncarnation} {extend now : Nanos} {e : Error}
    (herror : (s.renew_authority id attempt current extend now).1 = .error e)
    (hlost : authority_lost e = true) :
    ∀ r ∈ s.books.ledger.reservations.rows, r.id = id → r.owner ≠ current ∨
      r.attempt ≠ attempt := by
  intro r hr hid
  have hfound : s.state.ledger.find id = some r := by
    rw [← hid]
    exact Table.find_iff_mem.mpr hr
  by_contra hmine
  obtain ⟨howner, hattempt⟩ := not_or.mp hmine
  have howner : r.owner = current := not_not.mp howner
  have hattempt : r.attempt = attempt := not_not.mp hattempt
  unfold Store.renew_authority AuthorityLedger.renew at herror
  rw [hfound] at herror
  simp only [howner, hattempt, ne_eq, not_true_eq_false, if_false] at herror
  split at herror
  · next hrefused =>
    -- The extension itself was refused.
    cases herror
    generalize (if r.expires_at > now then r.expires_at else now) = base at hrefused
    split at hrefused
    · cases hrefused
      cases hlost
    · split at hrefused
      · cases hrefused
        cases hlost
      · cases hrefused
  · split at herror
    · cases herror
      cases hlost
    · unfold Store.install_ledger at herror
      split at herror
      · next happend =>
        cases herror
        have hjournal := Store.append_transaction_refusal happend
        simp only [authority_lost, Bool.or_eq_true, beq_iff_eq] at hlost
        rcases hlost with (hcode | hcode) | hcode <;> rw [hcode] at hjournal <;> simp at hjournal
      · cases herror

section Functions

variable {d : Drive} (context : PassContext) (calm : d.ctl.Calm) (fine : d.ctl.world.ledger.Fine)
  (held : Held d.ctl.world.ledger d.ctl.incarnation d.job.core)

/-- A copy that has been given an attempt if it had none. -/
theorem settles_with_attempt (fine : d.ctl.world.ledger.Fine)
    (held : Held d.ctl.world.ledger d.ctl.incarnation d.job.core) (job : MaintenanceJob)
    (now : Nanos) (hcore : ∃ removal_set, job.core = { d.job.core with removal_set }) :
    Settles d { d with job := with_attempt d.ctl job now } := by
  obtain ⟨removal_set, hcore⟩ := hcore
  have htouched : Held d.ctl.world.ledger d.ctl.incarnation job.core := by
    rw [hcore]
    exact held.of_same rfl rfl rfl rfl id
  have hwith := core_with_attempt d.ctl job now
  have hkeep : ∀ c : Core, c.with_attempt.lease = c.lease ∧ c.with_attempt.spent = c.spent ∧
      c.with_attempt.state = c.state := by
    intro c
    unfold Core.with_attempt
    split <;> exact ⟨rfl, rfl, rfl⟩
  refine ⟨⟨id, rfl, rfl, ?_, .refl _, ?_⟩, .inr ⟨?_, ?_⟩⟩
  · refine (congrArg Core.id hwith).trans ((Edit.with_attempt_id _).trans ?_)
    rw [hcore]
    rfl
  · intro _
    show Held _ _ (with_attempt d.ctl job now).core
    rw [hwith]
    exact htouched.with_attempt fine
  · refine (congrArg Core.lease hwith).trans ((hkeep _).1.trans ?_)
    rw [hcore]
    rfl
  · intro hspent
    have hspent : (with_attempt d.ctl job now).core.spent = true := hspent
    rw [hwith, (hkeep _).2.1, hcore] at hspent
    refine ⟨hspent, (congrArg Core.state hwith).trans ((hkeep _).2.2.trans ?_)⟩
    rw [hcore]
    rfl

include calm fine held

/-- A transition out of a copy that was prepared for it. -/
theorem settles_prepared {p : Drive} (haside : Aside d.ctl p.ctl)
    (hcore : ∃ removal_set failed, p.job.core =
      { d.job.core with removal_set, maintenance_failed := failed })
    (to_state : JobState) (reason : BlockReason) (detail : Text) (now : Nanos) :
    Settles d (p.transition_locked to_state reason detail now).2 :=
  (settles_touched haside hcore).transition (haside.calm calm) fine held
    to_state reason detail now

theorem settles_moved (to_state : JobState) (reason : BlockReason) (detail : Text) (now : Nanos) :
    Settles d (d.transition_locked to_state reason detail now).2 :=
  (settles_refl d).transition calm fine held to_state reason detail now

theorem settles_violation (evaluation : PreconditionSet) (now : Nanos) :
    Settles d (d.block_on_violation evaluation now).2 := by
  unfold block_on_violation
  split <;> exact settles_moved calm fine held _ _ _ _

theorem settles_validated : Settles d (d.drive_validated_locked context).2 := by
  unfold drive_validated_locked
  split
  · exact settles_moved calm fine held _ _ _ _
  · split
    · exact settles_moved calm fine held _ _ _ _
    · exact (settles_with_attempt fine held (expanded d.ctl d.job) context.now
        ⟨_, rfl⟩).transition calm fine held _ _ _ _

theorem settles_await : Settles d (d.await_prerequisites context).2 := by
  unfold await_prerequisites
  simp only
  split
  · split
    · exact settles_moved calm fine held _ _ _ _
    · unfold request_drain
      split
      · exact settles_refl d
      · exact settles_touched ⟨rfl, rfl, rfl, id⟩ ⟨_, _, rfl⟩
  · split
    · exact settles_violation calm fine held _ _
    · split
      · exact settles_touched (.refl _) ⟨_, _, rfl⟩
      · refine settles_prepared calm fine held ?_ ?_ _ _ _ _
        · exact .refl _
        · exact ⟨_, _, rfl⟩

theorem settles_prerequisites : Settles d (d.drive_prerequisites_locked context).2 := by
  unfold drive_prerequisites_locked
  simp only
  split
  · next hidle =>
    have hidle : d.job.core.active_attempt.valid = false :=
      show d.job.active_attempt.valid = false by simpa using hidle
    refine ⟨⟨id, rfl, rfl, rfl, .refl _, fun _ => ?_⟩, .inr ⟨rfl, fun hspent => ⟨hspent, rfl⟩⟩⟩
    rw [core_new_attempt_locked]
    exact held.mint fine hidle
  · split
    · exact settles_refl d
    · split
      · next hnone =>
        refine settles_forgotten id rfl rfl (.refl _) ?_
        intro r hr hjob
        have hfound : d.ctl.world.ledger.reservations.find d.job.authority = some r := by
          rw [← show r.id = d.job.authority from (held.rows r hr hjob).id]
          exact Table.find_iff_mem.mpr hr
        rw [show d.ctl.world.ledger.reservations.find d.job.authority = none from hnone] at hfound
        cases hfound
      · split
        · obtain ⟨hjobs, hwithin⟩ := within_renew d.ctl.store d.job.authority d.job.active_attempt
            d.ctl.incarnation (renewal_margin d.ctl.policy) context.now
          have hlost := @renew_authority_lost d.ctl.store d.job.authority d.job.active_attempt
            d.ctl.incarnation (renewal_margin d.ctl.policy) context.now
          have hcalm := Store.verdicts_renew_authority calm d.job.authority d.job.active_attempt
            d.ctl.incarnation (renewal_margin d.ctl.policy) context.now
          generalize d.ctl.store.renew_authority d.job.authority d.job.active_attempt
            d.ctl.incarnation (renewal_margin d.ctl.policy) context.now = renewed
            at hjobs hwithin hlost hcalm ⊢
          -- From here on the drive works on the store the renewal left.
          have hrenewed : Settles d { d with ctl := { d.ctl with store := renewed.2 } } :=
            ⟨⟨fun _ => hcalm, rfl, hjobs, rfl, hwithin, fun h => h.within hwithin⟩,
              .inr ⟨rfl, fun hspent => ⟨hspent, rfl⟩⟩⟩
          have hcalm : ({ d.ctl with store := renewed.2 } : Controller).Calm := hcalm
          have hfine := hrenewed.within.fine fine
          have hheld := hrenewed.held held
          split
          · next e herror =>
            split
            · next hcode =>
              refine settles_forgotten (fun _ => hcalm) rfl hjobs hwithin ?_
              intro r hr hjob
              have haccounts := held.rows r hr hjob
              rcases hlost herror hcode r hr haccounts.id with howner | hattempt
              · exact howner haccounts.owner
              · exact hattempt haccounts.attempt
            · exact hrenewed.transition hcalm fine held _ _ _ _
          · exact hrenewed.trans (settles_await context (by exact hcalm) hfine hheld)
        · exact settles_await context calm fine held

theorem settles_ready : Settles d (d.drive_ready_locked context).2 := by
  unfold drive_ready_locked
  simp only
  split
  · exact settles_violation calm fine held _ _
  · split
    · exact settles_moved calm fine held _ _ _ _
    · split
      · exact settles_moved calm fine held _ _ _ _
      · refine settles_prepared calm fine held ?_ ?_ _ _ _ _
        · exact .refl _
        · exact ⟨_, _, rfl⟩

theorem settles_blocked : Settles d (d.drive_blocked_locked context).2 := by
  unfold drive_blocked_locked
  simp only
  split
  · exact settles_refl d
  · split
    · exact settles_refl d
    · split
      · exact (settles_with_attempt fine held d.job context.now ⟨_, rfl⟩).transition calm fine held
          _ _ _ _
      · exact settles_moved calm fine held _ _ _ _

theorem settles_finish_step (complete any_failed : Bool) (now : Nanos) :
    Settles d (d.finish_step complete any_failed now).2 := by
  unfold finish_step
  split
  · exact settles_refl d
  · refine settles_prepared calm fine held ?_ ?_ _ _ _ _
    · exact .refl _
    · cases any_failed
      · exact ⟨_, _, rfl⟩
      · exact ⟨_, true, rfl⟩

theorem settles_in_maintenance : Settles d (d.drive_in_maintenance_locked context).2 := by
  have hfinish := settles_finish_step calm fine held (d.ctl.completion_confirmed_locked d.job
    context.now).1 (d.ctl.completion_confirmed_locked d.job context.now).2 context.now
  unfold drive_in_maintenance_locked
  simp only
  split
  · split
    · split
      · refine settles_prepared calm fine held ?_ ?_ _ _ _ _
        · exact aside_quarantine _ _ _ _ _
        · exact ⟨_, _, rfl⟩
      · exact hfinish
    · split
      · exact settles_touched (.refl _) ⟨_, _, rfl⟩
      · exact hfinish
    · split
      · exact settles_touched (.refl _) ⟨_, _, rfl⟩
      · exact hfinish
  · exact hfinish

theorem settles_verifying : Settles d (d.drive_verifying_locked context).2 := by
  unfold drive_verifying_locked
  simp only
  split
  · split
    · split
      · refine settles_prepared calm fine held ?_ ?_ _ _ _ _
        · exact aside_quarantine _ _ _ _ _
        · exact ⟨_, _, rfl⟩
      · exact settles_touched (.refl _) ⟨_, _, rfl⟩
    · exact settles_touched (.refl _) ⟨_, _, rfl⟩
  · refine settles_prepared calm fine held ?_ ?_ _ _ _ _
    · exact .refl _
    · exact ⟨_, _, rfl⟩

theorem settles_restoring : Settles d (d.drive_restoring_locked context).2 := by
  unfold drive_restoring_locked
  simp only
  split
  · unfold request_release
    split
    · exact settles_refl d
    · exact settles_touched ⟨rfl, rfl, rfl, id⟩ ⟨_, _, rfl⟩
  · split
    · split
      · split
        · refine settles_prepared calm fine held ?_ ?_ _ _ _ _
          · exact aside_quarantine _ _ _ _ _
          · exact ⟨_, _, rfl⟩
        · exact settles_touched (.refl _) ⟨_, _, rfl⟩
      · exact settles_touched (.refl _) ⟨_, _, rfl⟩
    · have haside := aside_record_restoration d.ctl d.job context
      split
      · refine settles_prepared calm fine held ?_ ?_ _ _ _ _
        · exact haside
        · exact ⟨_, _, rfl⟩
      · refine settles_prepared calm fine held ?_ ?_ _ _ _ _
        · exact haside
        · exact ⟨_, _, rfl⟩

theorem settles_state : Settles d (d.drive_state context).2 := by
  unfold drive_state
  split
  · exact settles_validated context calm fine held
  · exact settles_prerequisites context calm fine held
  · exact settles_ready context calm fine held
  · exact settles_blocked context calm fine held
  · exact settles_in_maintenance context calm fine held
  · exact settles_verifying context calm fine held
  · exact settles_restoring context calm fine held
  all_goals exact settles_refl d

end Functions

end Drive

/-! ## The controller as a whole -/

namespace Controller

/-- Every job accounts for its reservations, and the journal accepts what it admits. -/
structure Orderly (c : Controller) : Prop where
  calm : c.Calm
  fine : c.world.ledger.Fine
  recordable : ∀ j ∈ c.world.jobs.rows, Recordable j
  held : ∀ j ∈ c.world.jobs.rows, Held c.world.ledger c.incarnation j.core

/-- Where the leases of the jobs come from: a stage without one is not entered with one. -/
def Inherits (c c' : Controller) : Prop :=
  ∀ j' ∈ c'.world.jobs.rows, j'.lease = ⟨0⟩ ∨ ∃ j ∈ c.world.jobs.rows, j.id = j'.id ∧
    j'.lease = j.lease ∧ (j'.core.spent = true → j.core.spent = true ∧ j'.state = j.state)

namespace Inherits

variable {c c' c'' : Controller}

theorem of_jobs (h : c'.world.jobs = c.world.jobs) : Inherits c c' := by
  intro j hj
  rw [h] at hj
  exact .inr ⟨j, hj, rfl, rfl, fun hspent => ⟨hspent, rfl⟩⟩

theorem trans (h : Inherits c c') (h' : Inherits c' c'') : Inherits c c'' := by
  intro j'' hj''
  rcases h' j'' hj'' with hlease | ⟨j', hj', hid', hlease', hstage'⟩
  · exact .inl hlease
  · rcases h j' hj' with hlease | ⟨j, hj, hid, hlease, hstage⟩
    · exact .inl (hlease'.trans hlease)
    · refine .inr ⟨j, hj, hid.trans hid', hlease'.trans hlease, ?_⟩
      intro hspent
      obtain ⟨hspent', hstate'⟩ := hstage' hspent
      obtain ⟨hspent'', hstate⟩ := hstage hspent'
      exact ⟨hspent'', hstate'.trans hstate⟩

end Inherits

/-- What a stretch of a step leaves behind. -/
structure Tidies (c c' : Controller) : Prop where
  orderly : c'.Orderly
  inherits : Inherits c c'

namespace Tidies

variable {c c' c'' : Controller}

theorem trans (h : Tidies c c') (h' : Tidies c' c'') : Tidies c c'' :=
  ⟨h'.orderly, h.inherits.trans h'.inherits⟩

end Tidies

/-- Work beside the jobs and the ledger. -/
theorem Orderly.aside {c c' : Controller} (h : c.Orderly) (haside : Drive.Aside c c') :
    Tidies c c' := by
  refine ⟨⟨haside.calm h.calm, ?_, ?_, ?_⟩, .of_jobs haside.jobs⟩
  · rw [haside.ledger]
    exact h.fine
  · rw [haside.jobs]
    exact h.recordable
  · rw [haside.jobs, haside.ledger, haside.incarnation]
    exact h.held

theorem calm_commit {c : Controller} (h : c.Calm) (job : MaintenanceJob) (now : Nanos) :
    (c.commit_job_locked job now).2.Calm := by
  unfold commit_job_locked
  split
  · exact h
  · exact Store.verdicts_commit_job h _

/-- The copy of a job accounts for what it holds, and is committed or not. -/
theorem Orderly.balanced {c : Controller} (h : c.Orderly) {j : MaintenanceJob}
    {actions : Option (List DrainAction)} {d : Drive} (stored : c.world.jobs.find j.id = some j)
    (hbalances : Drive.Balances { ctl := c, job := j, actions } d) (now : Nanos) :
    d.ctl.Orderly ∧ (d.ctl.commit_job_locked d.job now).2.Orderly := by
  have hmem : j ∈ c.world.jobs.rows := Table.mem_of_find stored
  have hjobs : d.ctl.world.jobs = c.world.jobs := hbalances.jobs
  have hfine := hbalances.within.fine h.fine
  have hothers : ∀ x ∈ c.world.jobs.rows, Held d.ctl.world.ledger d.ctl.incarnation x.core := by
    intro x hx
    rw [show d.ctl.incarnation = c.incarnation from hbalances.incarnation]
    exact (h.held x hx).within hbalances.within
  have hctl : d.ctl.Orderly := by
    refine ⟨hbalances.calm h.calm, hfine, ?_, ?_⟩
    · rw [hjobs]
      exact h.recordable
    · rw [hjobs]
      exact hothers
  refine ⟨hctl, ?_⟩
  have hframe : (d.ctl.commit_job_locked d.job now).2.incarnation = d.ctl.incarnation :=
    (d.ctl.frame_commit _ _).incarnation
  -- Not committed, the job is still the stored one, which the smaller ledger serves as well.
  rcases commit_job_locked_cases d.ctl d.job now with ⟨e, _, hw⟩ | ⟨_, j', hcore, hrec, hw⟩
  · refine (hctl.aside ⟨?_, ?_, hframe, fun hcalm => calm_commit hcalm _ _⟩).orderly
    · rw [hw]
    · rw [hw]
  · have hledger : (d.ctl.commit_job_locked d.job now).2.world.ledger = d.ctl.world.ledger := by
      rw [hw]
    have hrows : (d.ctl.commit_job_locked d.job now).2.world.jobs = c.world.jobs.put j' := by
      rw [hw, hjobs]
    refine ⟨calm_commit (hbalances.calm h.calm) _ _, ?_, ?_, ?_⟩
    · rw [hledger]
      exact hfine
    · rw [hrows]
      intro x hx
      rcases Table.mem_put.mp hx with rfl | ⟨hx, _⟩
      · exact hrec
      · exact h.recordable x hx
    · rw [hrows, hledger, hframe]
      intro x hx
      rcases Table.mem_put.mp hx with rfl | ⟨hx, _⟩
      · rw [hcore]
        exact hbalances.held (h.held j hmem)
      · exact hothers x hx

/-- The copy of a job has been settled as well. -/
theorem Orderly.settled {c : Controller} (h : c.Orderly) {j : MaintenanceJob}
    {actions : Option (List DrainAction)} {d : Drive} (stored : c.world.jobs.find j.id = some j)
    (hsettles : Drive.Settles { ctl := c, job := j, actions } d) (now : Nanos) :
    Tidies c d.ctl ∧ Tidies c (d.ctl.commit_job_locked d.job now).2 := by
  obtain ⟨hctl, hcommit⟩ := h.balanced stored hsettles.toBalances now
  have hjobs : d.ctl.world.jobs = c.world.jobs := hsettles.jobs
  refine ⟨⟨hctl, .of_jobs hjobs⟩, hcommit, ?_⟩
  rcases commit_job_locked_cases d.ctl d.job now with ⟨e, _, hw⟩ | ⟨_, j', hcore, _, hw⟩
  · refine .of_jobs ?_
    rw [hw]
    exact hjobs
  · unfold Inherits
    rw [hw]
    intro x hx
    rcases Table.mem_put.mp hx with rfl | ⟨hx, _⟩
    · have hid : x.id = j.id := (congrArg Core.id hcore).trans hsettles.id
      have hlease : x.lease = d.job.lease := congrArg Core.lease hcore
      have hstate : x.state = d.job.state := congrArg Core.state hcore
      rw [hlease, hstate, hcore]
      rcases hsettles.lease with hnone | ⟨hsame, hstage⟩
      · exact .inl hnone
      · exact .inr ⟨j, Table.mem_of_find stored, hid.symm, hsame, hstage⟩
    · rw [hjobs] at hx
      exact .inr ⟨x, hx, rfl, rfl, fun hspent => ⟨hspent, rfl⟩⟩

theorem Orderly.drive_locked {c : Controller} (h : c.Orderly) (id : JobId) (context : PassContext)
    (actions : List DrainAction) : Tidies c (c.drive_locked id context actions).1 := by
  have hidle : Tidies c c := h.aside (.refl c)
  unfold Controller.drive_locked
  split
  · exact hidle
  · next j hfind =>
    split
    · exact hidle
    · have hid : j.id = id := Table.key_of_find hfind
      have stored : c.world.jobs.find j.id = some j := by
        rw [hid]
        exact hfind
      have hsettles := Drive.settles_state (d := { ctl := c, job := j, actions := some actions })
        context h.calm h.fine (h.held j (Table.mem_of_find stored))
      obtain ⟨hctl, hcommit⟩ := h.settled stored hsettles context.now
      simp only
      split
      · exact hcommit
      · exact hctl

end Controller

end MaintenanceFabric
