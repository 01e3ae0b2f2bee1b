import MaintenanceFabric.Lib.Run
import MaintenanceFabric.Runtime.Steps
import Mathlib.Tactic.Linarith

/-! # Instants

    The controller reads no clock in a pass: every instant it computes with has
    been handed to it.  If all of these lie in one span, then so does every
    observation it stores, and every reservation ends in the span or at most
    the longest lease after it.
-/

namespace MaintenanceFabric

open Lib

/-- The instants from one to another. -/
structure Span where
  first : Nanos
  last : Nanos
  deriving DecidableEq

def Span.Has (T : Span) (t : Nanos) : Prop := T.first ≤ t ∧ t ≤ T.last

instance (T : Span) (t : Nanos) : Decidable (T.Has t) := inferInstanceAs (Decidable (_ ∧ _))

variable {T : Span} {now : Nanos}

/-! ## Evidence and ledger -/

/-- Every record is well formed and was observed in the span. -/
def EvidenceStore.Dated (T : Span) (s : EvidenceStore) : Prop :=
  ∀ r ∈ s.records.rows, T.Has r.observed_at ∧ r.valid = true

theorem EvidenceStore.Dated.observe {s s' : EvidenceStore} (h : s.Dated T) {r : EvidenceRecord}
    (hr : T.Has r.observed_at) (hok : s.observe r = .ok s') : s'.Dated T := by
  obtain ⟨hvalid, _, _, _, hrows⟩ := EvidenceStore.observe_ok hok
  intro x hx
  rcases hrows x.key x (Table.find_iff_mem.mpr hx) with ⟨_, rfl⟩ | ⟨_, hold⟩
  · exact ⟨hr, hvalid⟩
  · exact h x (Table.mem_of_find hold)

/-- The end of the reservation was set by an instant of the span. -/
def AuthorityReservation.Ends (T : Span) (r : AuthorityReservation) : Prop :=
  T.first ≤ r.expires_at ∧ r.expires_at ≤ T.last + limits.kMaxAuthorityLeaseNanos

def AuthorityLedger.Dated (T : Span) (l : AuthorityLedger) : Prop :=
  ∀ r ∈ l.reservations.rows, r.Ends T

namespace AuthorityLedger

variable {l l' : AuthorityLedger}

theorem Dated.of_subset (h : l.Dated T)
    (hsub : ∀ r ∈ l'.reservations.rows, r ∈ l.reservations.rows) :
    l'.Dated T := fun r hr => h r (hsub r hr)

theorem Dated.put (h : l.Dated T) {r : AuthorityReservation} (hr : r.Ends T)
    (next_id : AuthorityId) :
    Dated T ⟨l.reservations.put r, next_id⟩ := by
  intro x hx
  rcases Table.mem_put.mp hx with rfl | ⟨hx, _⟩
  · exact hr
  · exact h x hx

/-- A renewal ends within the longest lease from now. -/
theorem renew_ends {id : AuthorityId} {attempt : AttemptId} {current : ControllerIncarnation}
    {extend : Nanos} (hnow : T.Has now) (h : l.renew id attempt current extend now = .ok l') :
    ∃ r, r.Ends T ∧ l' = { l with reservations := l.reservations.put r } := by
  obtain ⟨hfirst, hlast⟩ := hnow
  unfold renew at h
  split at h
  · cases h
  · next r _ =>
    split at h
    · cases h
    · split at h
      · cases h
      · split at h
        · cases h
        · next hextend =>
          simp only at h
          generalize hbase : (if r.expires_at > now then r.expires_at else now) = base at h
          -- The extension counts from now or from a later end.
          have hle : now ≤ base := by
            rw [← hbase]
            split
            · next hlater => exact le_of_lt hlater
            · exact le_refl now
          split at h
          · cases h
          · next hbound =>
            cases h
            refine ⟨{ r with expires_at := base + extend, revision := r.revision.next },
              ⟨?_, ?_⟩, rfl⟩
            · show T.first ≤ base + extend
              have hpos : 0 < extend := not_le.mp hextend
              linarith
            · show base + extend ≤ T.last + limits.kMaxAuthorityLeaseNanos
              have hbound : extend ≤ limits.kMaxAuthorityLeaseNanos - (base - now) :=
                not_lt.mp hbound
              linarith

/-- A reservation is granted for at most the longest lease, from when it was asked for. -/
theorem Dated.reserve (h : l.Dated T) {r granted : AuthorityReservation}
    (hgranted : T.Has r.granted_at)
    (hok : l.reserve r = .ok (granted, l')) : l'.Dated T := by
  obtain ⟨hr, hl, _, _⟩ := reserve_ok hok
  have hbounds : r.granted_at < r.expires_at ∧
      r.expires_at - r.granted_at ≤ limits.kMaxAuthorityLeaseNanos := by
    unfold AuthorityLedger.reserve at hok
    obtain ⟨_, hcheck, _⟩ := Result.bind_eq_ok.mp hok
    simp only [check_reservation, Result.bind_eq_ok, refuse_if_eq_ok] at hcheck
    obtain ⟨_, _, _, _, _, _, _, _, _, hpositive, _, hlease, _⟩ := hcheck
    exact ⟨by simpa using hpositive, by simpa using hlease⟩
  obtain ⟨hfirst, hlast⟩ := hgranted
  rw [hl]
  refine h.put ?_ _
  rw [hr]
  constructor
  · show T.first ≤ r.expires_at
    linarith [hbounds.1]
  · show r.expires_at ≤ T.last + limits.kMaxAuthorityLeaseNanos
    linarith [hbounds.2]

end AuthorityLedger

/-! ## Controllers -/

namespace Controller

/-- Everything the books date lies in the span. -/
structure Dated (T : Span) (c : Controller) : Prop where
  evidence : c.world.evidence.Dated T
  ledger : c.world.ledger.Dated T

namespace Dated

variable {c c' : Controller}

theorem of_world (h : c.Dated T) (hevidence : c'.world.evidence = c.world.evidence)
    (hledger : c'.world.ledger = c.world.ledger) : c'.Dated T := by
  constructor
  · rw [hevidence]
    exact h.evidence
  · rw [hledger]
    exact h.ledger

theorem of_same (h : c.Dated T) (hw : c'.world = c.world) : c'.Dated T :=
  h.of_world (by rw [hw]) (by rw [hw])

theorem of_books (h : c.Dated T) {store : Store} (hb : store.books = c.store.books) :
    ({ c with store } : Controller).Dated T :=
  h.of_world (congrArg (fun b => b.evidence) hb) (congrArg (fun b => b.ledger) hb)

/-- A loop of bodies that date nothing outside the span. -/
theorem foldl {α : Type} {f : Controller → α → Controller}
    (hf : ∀ c a, c.Dated T → (f c a).Dated T) :
    ∀ (l : List α) (c : Controller), c.Dated T → (l.foldl f c).Dated T
  | [], _, h => h
  | a :: l, c, h => foldl hf l (f c a) (hf c a h)

theorem commit (h : c.Dated T) (job : MaintenanceJob) (at_ : Nanos) :
    (c.commit_job_locked job at_).2.Dated T := by
  rcases c.commit_job_locked_cases job at_ with ⟨_, _, hw⟩ | ⟨_, _, _, _, hw⟩
  · exact h.of_same hw
  · exact h.of_world (by rw [hw]) (by rw [hw])

theorem author_evidence (h : c.Dated T) (hnow : T.Has now) (kind : EvidenceKind) (target : TargetId)
    (source : SourceId) (payload : EvidencePayload) (job : JobId) (attempt : AttemptId) :
    (c.author_evidence kind target source now payload job attempt).2.Dated T := by
  unfold Controller.author_evidence write_evidence_locked
  simp only
  generalize hmade : c.make_evidence_locked kind (EvidenceSubject.of target) source now
    (c.policy.ttl_for kind) payload job attempt = made
  have hbooks : made.2.store.books = c.store.books := by
    rw [← hmade]
    rfl
  have hat : made.1.observed_at = now := by
    rw [← hmade]
    rfl
  rcases Store.observe_evidence_cases made.2.store made.1 with ⟨_, _, hb, _⟩ | ⟨staging, hok, _, hb⟩
  · rw [hbooks] at hb
    exact h.of_world (congrArg (fun b => b.evidence) hb) (congrArg (fun b => b.ledger) hb)
  · rw [hbooks] at hok hb
    constructor
    · have hevidence := congrArg (fun b => b.evidence) hb
      unfold world
      rw [hevidence]
      exact h.evidence.observe (hat ▸ hnow) hok
    · have hledger := congrArg (fun b => b.ledger) hb
      unfold world
      rw [hledger]
      exact h.ledger

theorem quarantine (h : c.Dated T) (job : MaintenanceJob) (reason : BlockReason) (detail : Text)
    (at_ : Nanos) : (c.quarantine_targets_locked job reason detail at_).Dated T := by
  unfold quarantine_targets_locked
  refine foldl ?_ _ c h
  intro c target hc
  exact hc.of_books (Store.books_quarantine_target _ _ _ _ _ _ _ _)

theorem expire (h : c.Dated T) (at_ : Nanos) (deferred : List DrainAction) :
    ({ c with store := c.store.expire_authority at_, deferred_releases := deferred } :
      Controller).Dated T := by
  rcases Store.expire_authority_books c.store at_ with hb | hb
  · exact h.of_world (congrArg (fun b => b.evidence) hb) (congrArg (fun b => b.ledger) hb)
  · constructor
    · have hevidence := congrArg (fun b => b.evidence) hb
      unfold world
      rw [hevidence]
      exact h.evidence
    · have hledger := congrArg (fun b => b.ledger) hb
      unfold world
      rw [hledger]
      exact h.ledger.of_subset (fun r hr => (Table.mem_filter.mp hr).1)

end Dated

end Controller

/-! ## Drives -/

namespace Drive

open Controller

variable {d : Drive} {context : PassContext}

theorem dated_transition (h : d.ctl.Dated T) (to_state : JobState) (reason : BlockReason)
    (detail : Text) (at_ : Nanos) :
    (d.transition_locked to_state reason detail at_).2.ctl.Dated T := by
  rcases transition_cases d to_state reason detail at_ with hno | ⟨_, _, hmoved⟩
  · rw [hno]
    exact h
  · rcases hmoved.world with hw | ⟨hw, _⟩
    · exact h.of_same hw
    · constructor
      · rw [hw]
        exact h.evidence
      · rw [hw]
        exact h.ledger.of_subset (fun r hr => (Table.mem_erase.mp hr).1)

/-- A transition of a prepared copy. -/
theorem dated_prepared {ctl : Controller} (h : ctl.Dated T) (job : MaintenanceJob)
    (to_state : JobState) (reason : BlockReason) (detail : Text) (at_ : Nanos) :
    (Drive.transition_locked { d with ctl, job } to_state reason detail at_).2.ctl.Dated T :=
  dated_transition (d := { d with ctl, job }) h to_state reason detail at_

theorem dated_release_resources (h : d.ctl.Dated T) : d.release_resources_locked.ctl.Dated T := by
  obtain ⟨_, _, _, _, _, hw | ⟨hw, _⟩⟩ := release_resources_spec d
  · exact h.of_same hw
  · constructor
    · rw [hw]
      exact h.evidence
    · rw [hw]
      exact h.ledger.of_subset (fun r hr => (Table.mem_erase.mp hr).1)

theorem dated_violation (h : d.ctl.Dated T) (evaluation : PreconditionSet) (at_ : Nanos) :
    (d.block_on_violation evaluation at_).2.ctl.Dated T := by
  unfold block_on_violation
  split
  · exact dated_transition h _ _ _ _
  · exact dated_transition h _ _ _ _

theorem dated_validated (h : d.ctl.Dated T) : (d.drive_validated_locked context).2.ctl.Dated T := by
  unfold drive_validated_locked
  split
  · exact dated_transition h _ _ _ _
  · split
    · exact dated_transition h _ _ _ _
    · exact dated_prepared h _ _ _ _ _

theorem dated_await (h : d.ctl.Dated T) : (d.await_prerequisites context).2.ctl.Dated T := by
  unfold await_prerequisites
  simp only
  split
  · split
    · exact dated_transition h _ _ _ _
    · unfold request_drain
      split
      · exact h
      · exact h.of_world rfl rfl
  · split
    · exact dated_violation h _ _
    · split
      · exact h
      · exact dated_prepared h _ _ _ _ _

theorem dated_renew (h : d.ctl.Dated T) (hnow : T.Has now) (id : AuthorityId) (attempt : AttemptId)
    (extend : Nanos) :
    ({ d.ctl with store := (d.ctl.store.renew_authority id attempt d.ctl.incarnation extend
      now).2 } : Controller).Dated T := by
  unfold Store.renew_authority
  split
  · exact h
  · next staging hrenewed =>
    obtain ⟨r, hends, hl⟩ := AuthorityLedger.renew_ends hnow hrenewed
    split
    · exact h
    · next renewed _ =>
      rcases d.ctl.store.install_ledger_cases _ staging _ with ⟨_, _, hb⟩ | ⟨_, hb⟩
      · exact h.of_books hb
      · constructor
        · have hevidence := congrArg (fun b => b.evidence) hb
          unfold world
          rw [hevidence]
          exact h.evidence
        · have hledger := congrArg (fun b => b.ledger) hb
          unfold world
          rw [hledger, hl]
          exact h.ledger.put hends _

theorem dated_prerequisites (h : d.ctl.Dated T) (hnow : T.Has context.now) :
    (d.drive_prerequisites_locked context).2.ctl.Dated T := by
  unfold drive_prerequisites_locked
  simp only
  split
  · exact h
  · split
    · exact h
    · split
      · exact h
      · split
        · have hrenewed := dated_renew h hnow d.job.authority d.job.active_attempt
            (renewal_margin d.ctl.policy)
          split
          · split
            · exact hrenewed
            · exact dated_prepared hrenewed _ _ _ _ _
          · exact dated_await (d := { d with ctl := _ }) hrenewed
        · exact dated_await h

theorem dated_ready (h : d.ctl.Dated T) : (d.drive_ready_locked context).2.ctl.Dated T := by
  unfold drive_ready_locked
  simp only
  split
  · exact dated_violation h _ _
  · split
    · exact dated_transition h _ _ _ _
    · split
      · exact dated_transition h _ _ _ _
      · exact dated_prepared h _ _ _ _ _

theorem dated_blocked (h : d.ctl.Dated T) : (d.drive_blocked_locked context).2.ctl.Dated T := by
  unfold drive_blocked_locked
  simp only
  split
  · exact h
  · split
    · exact h
    · split
      · exact dated_prepared h _ _ _ _ _
      · exact dated_transition h _ _ _ _

theorem dated_finish_step (h : d.ctl.Dated T) (complete any_failed : Bool) (at_ : Nanos) :
    (d.finish_step complete any_failed at_).2.ctl.Dated T := by
  unfold finish_step
  split
  · exact h
  · exact dated_prepared h _ _ _ _ _

theorem dated_in_maintenance (h : d.ctl.Dated T) :
    (d.drive_in_maintenance_locked context).2.ctl.Dated T := by
  have hfinish := fun complete any_failed => dated_finish_step h complete any_failed context.now
  unfold drive_in_maintenance_locked
  simp only
  split
  · split
    · split
      · exact dated_prepared (h.quarantine _ _ _ _) _ _ _ _ _
      · exact hfinish _ _
    · split
      · exact h
      · exact hfinish _ _
    · split
      · exact h
      · exact hfinish _ _
  · exact hfinish _ _

theorem dated_verifying (h : d.ctl.Dated T) : (d.drive_verifying_locked context).2.ctl.Dated T := by
  unfold drive_verifying_locked
  simp only
  split
  · split
    · split
      · exact dated_prepared (h.quarantine _ _ _ _) _ _ _ _ _
      · exact h
    · exact h
  · exact dated_prepared h _ _ _ _ _

theorem dated_record_restoration {c : Controller} (h : c.Dated T) (hnow : T.Has context.now)
    (job : MaintenanceJob) : (record_restoration c job context).Dated T := by
  unfold record_restoration
  refine Dated.foldl ?_ _ c h
  intro c target hc
  exact hc.author_evidence hnow _ _ _ _ _ _

theorem dated_restoring (h : d.ctl.Dated T) (hnow : T.Has context.now) :
    (d.drive_restoring_locked context).2.ctl.Dated T := by
  unfold drive_restoring_locked
  simp only
  split
  · unfold request_release
    split
    · exact h
    · exact h.of_world rfl rfl
  · split
    · split
      · split
        · exact dated_prepared (h.quarantine _ _ _ _) _ _ _ _ _
        · exact h
      · exact h
    · have hrecorded := dated_record_restoration h hnow d.job
      split
      · exact dated_prepared hrecorded _ _ _ _ _
      · exact dated_prepared hrecorded _ _ _ _ _

theorem dated_state (h : d.ctl.Dated T) (hnow : T.Has context.now) :
    (d.drive_state context).2.ctl.Dated T := by
  unfold drive_state
  split
  · exact dated_validated h
  · exact dated_prerequisites h hnow
  · exact dated_ready h
  · exact dated_blocked h
  · exact dated_in_maintenance h
  · exact dated_verifying h
  · exact dated_restoring h hnow
  all_goals exact h

end Drive

namespace Controller

variable {c : Controller}

theorem Dated.drive_locked (h : c.Dated T) (id : JobId) {context : PassContext}
    (hnow : T.Has context.now) (actions : List DrainAction) :
    (c.drive_locked id context actions).1.Dated T := by
  unfold Controller.drive_locked
  split
  · exact h
  · next current _ =>
    split
    · exact h
    · have hdriven := Drive.dated_state (d := { ctl := c, job := current, actions := some actions })
        h hnow
      simp only
      split
      · exact hdriven.commit _ _
      · exact hdriven

/-! ## Arbitration -/

theorem dated_acquire (context : AuthorityAcquireContext) {granted : AuthorityReservation}
    {l : AuthorityLedger} (h : context.ledger.Dated T) (hnow : T.Has context.now)
    (hok : (acquire_authority context).1 = .ok (granted, l)) : l.Dated T :=
  h.reserve (r := context.reservation) hnow (acquire_authority_ok hok).1

theorem dated_decide_candidate {context : ArbitrationContext} {ledger : AuthorityLedger}
    (h : ledger.Dated T) (hnow : T.Has context.now) (candidate : ArbitrationCandidate)
    (position granted : Nat) :
    (context.decide_candidate candidate position granted ledger).2.Dated T := by
  unfold ArbitrationContext.decide_candidate
  simp only
  split
  · exact h
  · next job _ =>
    split
    · exact h
    · split
      · exact h
      · split
        · exact h
        · next hacquired =>
          exact dated_acquire (context.acquire_context ledger job) h hnow
            (congrArg Prod.fst hacquired)

theorem dated_decide_all (context : ArbitrationContext) (hnow : T.Has context.now) :
    ∀ (candidates : List ArbitrationCandidate) (position granted : Nat) {ledger : AuthorityLedger},
      ledger.Dated T → (context.decide_all candidates position granted ledger).2.Dated T
  | [], _, _, _, h => h
  | candidate :: rest, position, granted, _, h =>
      dated_decide_all context hnow rest (position + 1) _
        (dated_decide_candidate h hnow candidate position granted)

theorem Dated.apply_decision {staging : AuthorityLedger} (hstaging : staging.Dated T) (at_ : Nanos)
    (h : c.Dated T) (decision : ArbitrationDecision) :
    (c.apply_decision staging at_ decision).Dated T := by
  unfold Controller.apply_decision
  split
  · unfold apply_denial
    split
    · exact h
    · next denied _ =>
      split
      · exact h
      · exact (Drive.dated_transition (d := { ctl := c, job := denied, actions := some [] }) h _ _ _
          _).commit _ _
  · unfold apply_grant
    split
    · next current granted _ hgranted =>
      have hends : granted.Ends T := hstaging granted (Table.mem_of_find hgranted)
      -- A granted reservation ends where the staged one does, which is within the span.
      have hinserted : ({ c with store := (c.store.insert_authority granted).2 } :
          Controller).Dated T := by
        rcases c.store.insert_authority_cases granted with ⟨_, _, hb⟩ | ⟨adopted, hok, _, hb⟩
        · exact h.of_books hb
        · constructor
          · have hevidence := congrArg (fun b => b.evidence) hb
            unfold world
            rw [hevidence]
            exact h.evidence
          · have hledger := congrArg (fun b => b.ledger) hb
            unfold world
            rw [hledger, AuthorityLedger.adopt_ok hok]
            exact h.ledger.put hends _
      split
      · next heq =>
        rw [heq] at hinserted
        exact hinserted
      · next heq =>
        rw [heq] at hinserted
        exact hinserted.commit _ _
    · exact h
  · exact h

theorem Dated.arbitrate_locked (h : c.Dated T) (context : PassContext) (hnow : T.Has context.now) :
    (c.arbitrate_locked context).Dated T := by
  have hstaging : (arbitrate (c.arbitration_context context) c.store.state.ledger).2.Dated T :=
    dated_decide_all (c.arbitration_context context) hnow _ 0 0 h.ledger
  unfold Controller.arbitrate_locked
  refine Dated.foldl ?_ _ c h
  intro c decision hc
  exact hc.apply_decision hstaging context.now decision

/-! ## Answers -/

theorem Dated.record_drain (h : c.Dated T) (hnow : T.Has now)
    (job : MaintenanceJob) (drained : Bool) :
    (c.record_drain job drained now).Dated T := by
  unfold Controller.record_drain
  refine Dated.foldl ?_ _ c h
  intro c target hc
  exact hc.author_evidence hnow _ _ _ _ _ _

theorem Dated.apply_granted (h : c.Dated T) (hnow : T.Has now) (current : MaintenanceJob)
    (lease : DrainLease) : (c.apply_granted current lease now).Dated T := by
  have hstored : ({ c with store := (c.store.commit_lease lease).2 } : Controller).Dated T :=
    h.of_books (Store.books_commit_lease c.store lease)
  unfold Controller.apply_granted
  split
  · exact h
  · split
    · next heq =>
      rw [heq] at hstored
      exact hstored
    · next heq =>
      rw [heq] at hstored
      simp only
      split
      · exact (hstored.record_drain hnow _ _).commit _ _
      · exact hstored.commit _ _

theorem Dated.apply_failure (h : c.Dated T) (current : MaintenanceJob) (e : Error) (at_ : Nanos) :
    (c.apply_failure current e at_).Dated T := by
  unfold Controller.apply_failure
  simp only
  split
  · exact (Drive.dated_transition (d := { ctl := c, job := _ }) h _ _ _ _).commit _ _
  · exact h.commit _ _

theorem Dated.apply_release (h : c.Dated T) (action : DrainAction) (response : DrainResponse)
    (lease_id : DrainLeaseId) (at_ : Nanos) :
    (c.apply_release action response lease_id at_).Dated T := by
  unfold Controller.apply_release
  simp only
  split
  · have herased : ({ c with
        store := (c.store.commit_lease_erased lease_id).2
        queued_releases := c.queued_releases.filter (· ≠ action.lease) } : Controller).Dated T :=
      (h.of_books (Store.books_commit_lease_erased c.store lease_id)).of_world rfl rfl
    unfold forget_lease
    split
    · exact herased
    · exact herased.commit _ _
  · exact h.of_world rfl rfl

theorem Dated.apply_outcome (h : c.Dated T) (hnow : T.Has now) (action : DrainAction)
    (response : DrainResponse) : (c.apply_outcome action response now).Dated T := by
  have hforgot : ({ c with drain_inflight := c.drain_inflight.filter (· ≠ action.job) } :
      Controller).Dated T := h.of_world rfl rfl
  unfold Controller.apply_outcome
  simp only
  split
  · exact hforgot.apply_release _ _ _ _
  · split
    · exact hforgot.of_same (world_apply_stale _ _ _)
    · split
      · exact hforgot
      · split
        · exact hforgot.apply_failure _ _ _
        · exact hforgot.apply_granted hnow _ _

/-! ## Calls -/

theorem Dated.propose (h : c.Dated T) (request : MaintenanceRequest)
    (actor : Text) (clock : Nanos) :
    (c.propose request actor clock).2.Dated T := by
  unfold Controller.propose
  split
  · exact h
  · rcases Store.create_job_cases c.store (c.proposed_job request actor clock)
      with hb | ⟨_, _, _, hb⟩
    · exact h.of_books hb
    · exact h.of_world (congrArg (fun b => b.evidence) hb) (congrArg (fun b => b.ledger) hb)

theorem Dated.approve (h : c.Dated T) (job : JobId) (actor : Text) (entry_at commit_at : Nanos) :
    (c.approve job actor entry_at commit_at).2.Dated T := by
  unfold Controller.approve
  split
  · exact h
  · split
    · exact h
    · exact h.commit _ _

theorem Dated.rearm (h : c.Dated T) (job : JobId) (actor : Text) (at_ : Nanos) :
    (c.rearm job actor at_).2.Dated T := by
  unfold Controller.rearm
  split
  · exact h
  · next current _ =>
    have hreleased := Drive.dated_release_resources
      (d := { ctl := c, job := current, actions := some [] }) h
    split
    · exact h
    · split
      · exact h
      · simp only
        split
        · have hcommitted := hreleased.commit (c.reentered_job (rearmed_job
            (Drive.release_resources_locked { ctl := c, job := current, actions := some [] }).job
            actor at_) at_) at_
          split
          · next heq =>
            rw [heq] at hcommitted
            exact hcommitted
          · next heq =>
            rw [heq] at hcommitted
            exact hcommitted.of_world rfl rfl
        · exact hreleased

theorem Dated.cancel (h : c.Dated T) (job : JobId) (actor reason : Text) (at_ : Nanos) :
    (c.cancel job actor reason at_).2.Dated T := by
  unfold Controller.cancel
  split
  · exact h
  · next current _ =>
    have hmoved := Drive.dated_transition (d := { ctl := c, job := current, actions := some [] }) h
      .Cancelled .None (text "cancelled by " ++ actor ++ text ": " ++ reason) at_
    split
    · exact h
    · split
      · exact h
      · split
        · next heq =>
          rw [heq] at hmoved
          exact hmoved
        · next d heq =>
          rw [heq] at hmoved
          have hcommitted := hmoved.commit d.job at_
          split
          · next heq =>
            rw [heq] at hcommitted
            exact hcommitted
          · next heq =>
            rw [heq] at hcommitted
            exact hcommitted.of_world rfl rfl

/-- What is completed is still dated as it was. -/
theorem completed_evidence_dated (c : Controller) (evidence : EvidenceRecord) :
    (c.completed_evidence evidence).1.observed_at = evidence.observed_at ∧
      (c.completed_evidence evidence).2.world = c.world := by
  unfold completed_evidence
  simp only
  split
  · split
    · split <;> exact ⟨rfl, rfl⟩
    · split <;> exact ⟨rfl, rfl⟩
  · split
    · split <;> exact ⟨rfl, rfl⟩
    · split <;> exact ⟨rfl, rfl⟩

theorem Dated.observe (h : c.Dated T) {evidence : EvidenceRecord}
    (hat : T.Has evidence.observed_at) :
    (c.observe evidence).2.Dated T := by
  obtain ⟨hdated, hworld⟩ := c.completed_evidence_dated evidence
  have hcompleted := h.of_same hworld
  unfold Controller.observe
  simp only
  generalize c.completed_evidence evidence = completed at hdated hcompleted
  rcases Store.observe_evidence_cases completed.2.store completed.1 with
    ⟨_, _, hb, _⟩ | ⟨staging, hok, _, hb⟩
  · exact hcompleted.of_books hb
  · constructor
    · have hevidence := congrArg (fun b => b.evidence) hb
      unfold world
      rw [hevidence]
      exact hcompleted.evidence.observe (hdated ▸ hat) hok
    · have hledger := congrArg (fun b => b.ledger) hb
      unfold world
      rw [hledger]
      exact hcompleted.ledger

theorem Dated.record_completion (hnow : T.Has now) (job : JobId) (attempt : AttemptId)
    (succeeded : Bool) : ∀ (targets : List TargetId) (c : Controller), c.Dated T →
      (record_completion job attempt succeeded now c targets).2.Dated T
  | [], _, h => h
  | target :: rest, c, h => by
    have hwritten := h.author_evidence hnow .MaintenanceCompletion target ⟨1⟩
      { result := succeeded, health := if succeeded then .Degraded else .Down } job attempt
    unfold Controller.record_completion
    split
    · next heq =>
      rw [heq] at hwritten
      exact hwritten
    · next heq =>
      rw [heq] at hwritten
      exact record_completion hnow job attempt succeeded rest _ hwritten

theorem Dated.report_completion (h : c.Dated T) (hnow : T.Has now) (job : JobId)
    (attempt : AttemptId) (succeeded : Bool) (detail : Text) :
    (c.report_completion job attempt succeeded detail now).2.Dated T := by
  unfold Controller.report_completion
  split
  · exact h
  · next current _ =>
    split
    · exact h
    · split
      · exact h
      · have hrecorded := Dated.record_completion hnow job attempt succeeded current.removal_set c h
        split
        · next heq =>
          rw [heq] at hrecorded
          exact hrecorded
        · next heq =>
          rw [heq] at hrecorded
          exact hrecorded.commit _ _

theorem Dated.report_restoration (h : c.Dated T) (hnow : T.Has now) (job : JobId)
    (attempt : AttemptId) (target : TargetId) (restored : Bool) (detail : Text) :
    (c.report_restoration job attempt target restored detail now).2.Dated T := by
  unfold Controller.report_restoration
  split
  · exact h
  · split
    · exact h
    · split
      · exact h
      · have hwritten := h.author_evidence hnow .RestorationCheck target ⟨2⟩
          { result := restored, health := if restored then .Healthy else .Down } job attempt
        split
        · next heq =>
          rw [heq] at hwritten
          exact hwritten
        · next heq =>
          rw [heq] at hwritten
          exact hwritten.commit _ _

end Controller

/-- The instants an event hands to the controller. -/
def Label.instants : Label → List Nanos
  | .propose _ _ clock | .rearm _ _ clock | .cancel _ _ _ clock | .report_completion _ _ _ _ clock
  | .report_restoration _ _ _ _ _ clock | .clear_quarantine _ _ _ clock | .open _ clock _ => [clock]
  | .approve _ _ entry_at commit_at => [entry_at, commit_at]
  | .observe evidence => [evidence.observed_at]
  | .tick _ now => [now]
  | _ => []

namespace Controller

variable {c c' : Controller}

theorem Dated.call {label : Label} (h : c.Dated T) (hcall : c.call label = some c')
    (hinstants : ∀ t ∈ label.instants, T.Has t) : c'.Dated T := by
  unfold Controller.call at hcall
  split at hcall
  · cases hcall
    exact h.of_same (world_set_topology c _)
  · cases hcall
    exact h.of_same (world_set_policy c _)
  · cases hcall
    exact h.propose _ _ _
  · cases hcall
    exact h.approve _ _ _ _
  · cases hcall
    exact h.rearm _ _ _
  · cases hcall
    exact h.cancel _ _ _ _
  · cases hcall
    exact h.observe (hinstants _ List.mem_cons_self)
  · cases hcall
    exact h.report_completion (hinstants _ List.mem_cons_self) _ _ _ _
  · cases hcall
    exact h.report_restoration (hinstants _ List.mem_cons_self) _ _ _ _ _
  · cases hcall
    exact h.of_same (world_clear_quarantine c _ _ _ _)
  · cases hcall

/-! ## Restart -/

theorem Dated.reissue (h : c.Dated T) (hnow : T.Has now) (job : MaintenanceJob) :
    (c.reissue job now).2.Dated T := by
  have hreserved : ∀ r : AuthorityReservation, T.Has r.granted_at →
      ({ c with store := (c.store.reserve_authority r).2 } : Controller).Dated T := by
    intro r hr
    rcases c.store.reserve_authority_cases r with ⟨_, _, hb⟩ | ⟨_, staging, hok, _, hb⟩
    · exact h.of_books hb
    · constructor
      · have hevidence := congrArg (fun b => b.evidence) hb
        unfold world
        rw [hevidence]
        exact h.evidence
      · have hledger := congrArg (fun b => b.ledger) hb
        unfold world
        rw [hledger]
        exact h.ledger.reserve hr hok
  unfold Controller.reissue
  simp only
  generalize hreservation : c.reissued_reservation _ now = r
  have hgranted : T.Has r.granted_at := by
    rw [← hreservation]
    exact hnow
  have hreserved := hreserved r hgranted
  split
  · next heq =>
    rw [heq] at hreserved
    exact hreserved
  · next heq =>
    rw [heq] at hreserved
    exact hreserved

theorem Dated.reblocked (h : c.Dated T) (job : MaintenanceJob) (removed : Bool) (at_ : Nanos) :
    (c.reblocked job removed at_).2.ctl.Dated T := by
  unfold Controller.reblocked
  split
  · exact Drive.dated_transition (d := { ctl := c, job }) h _ _ _ _
  · exact h

theorem dated_reconcile_job {r : Reconciling} (h : r.ctl.Dated T) (hnow : T.Has now)
    (job : MaintenanceJob) : (reconcile_job r job now).ctl.Dated T := by
  rw [reconcile_job_eq]
  by_cases hneeds : r.ctl.needs_reconciling job = true
  · rw [if_pos hneeds]
    have hcopied : (r.copied job now).2.1.Dated T := by
      unfold Reconciling.copied
      by_cases hremoved : job.service_removed = true
      · rw [if_pos hremoved]
        exact h.reissue hnow job
      · rw [if_neg hremoved]
        unfold abandon_lease
        simp only
        split
        · exact h.of_world rfl rfl
        · exact h
    exact hcopied.reblocked (r.copied job now).1 job.service_removed now
  · rw [if_neg hneeds]
    exact h

theorem Dated.reconcile_locked (h : c.Dated T) (hnow : T.Has now) :
    (c.reconcile_locked now).2.Dated T := by
  have hfenced :
      ({ c with store := c.store.fence_authority c.incarnation } : Controller).Dated T := by
    rcases c.store.fence_authority_books c.incarnation with hb | hb
    · exact h.of_books hb
    · constructor
      · have hevidence := congrArg (fun b => b.evidence) hb
        unfold world
        rw [hevidence]
        exact h.evidence
      · have hledger := congrArg (fun b => b.ledger) hb
        unfold world
        rw [hledger]
        exact h.ledger.of_subset (fun r hr => (Table.mem_filter.mp hr).1)
  -- The induction is on the jobs; each one is reconciled at the instant of the restart.
  have hloop : ∀ (jobs : List MaintenanceJob) (r : Reconciling), r.ctl.Dated T →
      (jobs.foldl (fun r job => reconcile_job r job now) r).ctl.Dated T := by
    intro jobs
    induction jobs with
    | nil => exact fun _ hr => hr
    | cons job jobs ih => exact fun r hr => ih _ (dated_reconcile_job hr hnow job)
  have hreconciled := hloop (c.store.fence_authority c.incarnation).state.jobs.jobs.rows
    { ctl := { c with store := c.store.fence_authority c.incarnation } } hfenced
  unfold Controller.reconcile_locked
  simp only
  generalize List.foldl _ _ _ = r at hreconciled
  obtain ⟨hledger, hevidence⟩ := r.ctl.store.commit_jobs_aside (r.updates.map (r.ctl.stamped now))
  have hcommitted : ({ r.ctl with
      store := (r.ctl.store.commit_jobs (r.updates.map (r.ctl.stamped now))).2 } :
      Controller).Dated T := hreconciled.of_world hevidence hledger
  split
  · exact hreconciled.of_world rfl rfl
  · split
    · next heq =>
      rw [heq] at hcommitted
      exact hcommitted
    · next heq =>
      rw [heq] at hcommitted
      exact hcommitted.of_world rfl rfl

theorem Dated.open (h : c.Dated T) (hnow : T.Has now) (options : ControllerOptions) (steady : Nat) :
    (Controller.open c.store options now steady).2.Dated T := by
  unfold Controller.open
  simp only
  generalize hfound : ({ state := recovered c.store.state options, verdicts := c.store.verdicts
                         log := c.store.log, digests := c.store.digests } : Store) = found
  have hevidence : found.books.evidence.Dated T := by
    rw [← hfound]
    exact h.evidence
  have hledger : found.books.ledger.Dated T := by
    rw [← hfound]
    exact h.ledger
  have hcases := found.begin_incarnation_cases options.controller_id options.nonce steady
  generalize found.begin_incarnation options.controller_id options.nonce steady = begun at hcases
  obtain ⟨result, store⟩ := begun
  have hbooks : store.books.evidence = found.books.evidence ∧
    store.books.ledger = found.books.ledger := by
    rcases hcases with ⟨_, _, hb⟩ | ⟨_, _, _, hb⟩
    · exact ⟨congrArg (fun b => b.evidence) hb, congrArg (fun b => b.ledger) hb⟩
    · exact ⟨congrArg (fun b => b.evidence) hb, congrArg (fun b => b.ledger) hb⟩
  rw [← hbooks.1] at hevidence
  rw [← hbooks.2] at hledger
  cases result with
  | error e => exact ⟨hevidence, hledger⟩
  | ok incarnation => exact Dated.reconcile_locked ⟨hevidence, hledger⟩ hnow

end Controller

/-! ## Runs -/

namespace System

/-- Everything the system has been handed, and remembers, lies in the span. -/
structure Dated (T : Span) (s : System) : Prop where
  ctl : s.ctl.Dated T
  threads : ∀ t ∈ s.threads.rows, T.Has t.now
  pass : ∀ p, s.pass = some p → T.Has p.now

theorem dated_initial (T : Span) : initial.Dated T :=
  ⟨⟨fun _ h => (by cases h), fun _ h => (by cases h)⟩, fun _ h => (by cases h),
    fun _ h => (by cases h)⟩

/-- The event hands in no instant outside the span. -/
def Handed (T : Span) (_ : System) (e : Event) : Prop := ∀ t ∈ e.label.instants, T.Has t

instance (T : Span) (s : System) (e : Event) : Decidable (Handed T s e) :=
  inferInstanceAs (Decidable (∀ t ∈ e.label.instants, T.Has t))

theorem Dated.step {s : System} {e : Event} (h : s.Dated T) (hhanded : Handed T s e) :
    (s.step e).Dated T := by
  have hunder : (under s.ctl e.verdicts).Dated T := h.ctl.of_world rfl rfl
  have hthread : ∀ {thread : Nat} {t : Thread}, s.threads.find thread = some t → T.Has t.now :=
    fun found => h.threads _ (Table.mem_of_find found)
  have hput : ∀ {t' : Thread}, T.Has t'.now → ∀ t ∈ (s.threads.put t').rows, T.Has t.now := by
    intro t' ht' t ht
    rcases Table.mem_put.mp ht with rfl | ⟨ht, _⟩
    · exact ht'
    · exact h.threads t ht
  have hdid := s.step_did e
  generalize s.step e = s' at hdid
  -- Only a tick, a call and an `open` bring a new instant; the other steps use one of the thread.
  cases hdid with
  | nothing => exact ⟨hunder, h.threads, h.pass⟩
  | restarted label =>
    unfold Handed at hhanded
    rw [label] at hhanded
    exact ⟨hunder.open (hhanded _ List.mem_cons_self) _ _, fun _ ht => (by cases ht),
      fun _ hp => (by cases hp)⟩
  | drove label up pass remaining =>
    have hnow := h.pass _ pass
    refine ⟨hunder.drive_locked _ hnow _, h.threads, ?_⟩
    intro p hp
    cases hp
    exact hnow
  | @closed p label up pass remaining =>
    have hnow := h.pass _ pass
    have harbitrated := hunder.arbitrate_locked (p.context (under s.ctl e.verdicts)) hnow
    refine ⟨harbitrated.of_same (world_sweep_orphans _ p.actions), ?_, fun _ hp => (by cases hp)⟩
    split
    · exact h.threads
    · next t found =>
      have hnow := hthread found
      exact hput hnow
  | ticked label up pass unused =>
    unfold Handed at hhanded
    rw [label] at hhanded
    exact ⟨hunder, hput (hhanded _ List.mem_cons_self), h.pass⟩
  | began label up pass found ready =>
    have hnow := hthread found
    refine ⟨hunder.expire _ _, hput hnow, ?_⟩
    intro p hp
    cases hp
    exact hnow
  | marked label up pass found actions =>
    have hnow := hthread found
    refine ⟨?_, hput hnow, h.pass⟩
    split
    · exact hunder.of_world rfl rfl
    · exact hunder
  | answered label up pass found actions marked =>
    have hnow := hthread found
    exact ⟨hunder.apply_outcome hnow _ _, hput hnow, h.pass⟩
  | finished label up pass found done =>
    exact ⟨hunder, fun t ht => h.threads t (Table.mem_erase.mp ht).1, h.pass⟩
  | called up pass call => exact ⟨hunder.call call hhanded, h.threads, h.pass⟩

/-- A run that is handed nothing outside the span remembers nothing outside it. -/
theorem dated_run {events : List Event} (hhanded : Along step (Handed T) initial events) :
    (initial.run events).Dated T :=
  hhanded.invariant (fun _ _ hhanded h => h.step hhanded) (dated_initial T)

end System

end MaintenanceFabric
