import MaintenanceFabric.Drain.Exchange
import MaintenanceFabric.Lib.Lockstep
import MaintenanceFabric.Runtime.Calls

/-! # Two drain ports

    The in-process port and the remote one are meant to be interchangeable: the
    controller branches on the code of a status, so the same calls should meet
    the same codes.  The two services behind them do stay in step, and the
    service sends its code along, but the remote port drops it.  The ports
    agree on a call exactly where the service has nothing to refuse but a
    drain.
-/

namespace MaintenanceFabric

open Lib Transport

/-! ## Calls -/

/-- A call whose values are within the widths of their types. -/
def DrainCall.machine : DrainCall → Prop
  | .request_drain r => r.job.machine ∧ r.generation.machine ∧ r.attempt.machine ∧
      (∀ t ∈ r.targets, t.machine) ∧ i64_range r.lease_duration ∧ r.requester.machine
  | .refresh_drain lease extend requester => lease.machine ∧ i64_range extend ∧ requester.machine
  | .query_drain lease requester => lease.machine ∧ requester.machine
  | .release_drain lease requester => lease.machine ∧ requester.machine

namespace LocalDrainPort

/-- The service has nothing to refuse about this call, unless it is a request for a drain: the
    lease is there, the requester may refresh it, and it is refreshed by a positive time. -/
def Unrefused (p : LocalDrainPort) : DrainCall → Prop
  | .request_drain _ => True
  | .refresh_drain lease extend requester => ∃ held, p.leases.find lease = some held ∧
      (p.options.fence_refresh_by_owner = true → held.owner = requester) ∧ 0 < extend
  | .query_drain lease _ =>
      p.options.drop_leases_on_next_query = false ∧ (p.leases.find lease).isSome = true
  | .release_drain lease _ => (p.leases.find lease).isSome = true

def after (p : LocalDrainPort) (call : DrainCall) : LocalDrainPort := (p.perform call).2

def code (p : LocalDrainPort) (call : DrainCall) : Option ErrorCode :=
  status_code (p.perform call).1

end LocalDrainPort

namespace RemoteDrainPort

def after (r : RemoteDrainPort) (call : DrainCall) : RemoteDrainPort := (r.perform call).2

def code (r : RemoteDrainPort) (call : DrainCall) : Option ErrorCode :=
  status_code (r.perform call).1

end RemoteDrainPort

/-- The options of `mf-drain-sim` that say the same. -/
def LocalDrainOptions.sim (options : LocalDrainOptions) : DrainSimOptions :=
  { granted_state := options.granted_state, fail_next := options.fail_next_requests
    drop_on_query := options.drop_leases_on_next_query
    fence_refresh := options.fence_refresh_by_owner }

/-! ## Services in step -/

theorem validated_targets {request : DrainRequest} (h : validate_drain_request request = .ok ()) :
    request.targets.length ≤ limits.kMaxDrainTargetsPerRequest := by
  simp only [validate_drain_request, Result.bind_eq_ok, refuse_if_eq_ok] at h
  obtain ⟨_, _, _, _, _, _, _, hcount, _⟩ := h
  simpa using hcount

/-- What of a lease decides an answer. -/
def DrainLease.holder (l : DrainLease) : AttemptId × ControllerIncarnation := (l.attempt, l.owner)

/-- The two services know the same leases, held by the same, and will fail alike. -/
structure Alike (p : LocalDrainPort) (s : DrainService) : Prop where
  holders : ∀ id, (s.leases.find id).map DrainLease.holder =
    (p.leases.find id).map DrainLease.holder
  fail_next : s.fail_next = p.options.fail_next_requests
  drop_on_query : s.drop_on_query = p.options.drop_leases_on_next_query
  fence_refresh : s.options.fence_refresh = p.options.fence_refresh_by_owner
  next_id : s.next_id = p.next_id
  bounded : ∀ l ∈ s.leases.rows, l.targets.length ≤ limits.kMaxDrainTargetsPerRequest

namespace Alike

variable {p : LocalDrainPort} {s : DrainService}

theorem start (options : LocalDrainOptions) :
    Alike { options } (DrainService.start options.sim) where
  holders := fun _ => rfl
  fail_next := rfl
  drop_on_query := rfl
  fence_refresh := rfl
  next_id := rfl
  bounded := fun _ h => by cases h

theorem find_none (h : Alike p s) {id : DrainLeaseId} (hp : p.leases.find id = none) :
    s.leases.find id = none := by
  have hholders := h.holders id
  rw [hp] at hholders
  simpa using hholders

theorem find_some (h : Alike p s) {id : DrainLeaseId} {held : DrainLease}
    (hp : p.leases.find id = some held) :
    ∃ held', s.leases.find id = some held' ∧ held'.attempt = held.attempt ∧
      held'.owner = held.owner := by
  have hholders := h.holders id
  rw [hp] at hholders
  simp only [Option.map_some, Option.map_eq_some_iff] at hholders
  obtain ⟨held', hs, hsame⟩ := hholders
  exact ⟨held', hs, congrArg Prod.fst hsame, congrArg Prod.snd hsame⟩

/-- Whether an attempt has a lease already is the same on both sides. -/
theorem attempt_known (h : Alike p s) (attempt : AttemptId) :
    (s.leases.rows.find? (fun l => l.attempt = attempt)).isSome =
      (p.leases.rows.find? (fun l => l.attempt = attempt)).isSome := by
  have hmem : ∀ (t : Table DrainLease.id),
      (t.rows.find? (fun l => l.attempt = attempt)).isSome = true ↔
        ∃ id, ∃ x ∈ (t.find id).map DrainLease.holder, x.1 = attempt := by
    intro t
    simp only [List.find?_isSome, decide_eq_true_eq]
    constructor
    · rintro ⟨l, hl, hattempt⟩
      refine ⟨l.id, l.holder, ?_, hattempt⟩
      simp [Table.find_iff_mem.mpr hl]
    · rintro ⟨id, x, hx, hattempt⟩
      simp only [Option.mem_def, Option.map_eq_some_iff] at hx
      obtain ⟨l, hl, rfl⟩ := hx
      exact ⟨l, Table.mem_of_find hl, hattempt⟩
  rw [Bool.eq_iff_iff, hmem, hmem]
  simp only [h.holders]

/-- Putting leases of the same holder under the same identity. -/
theorem put_holders (h : Alike p s) {l l' : DrainLease} (hid : l'.id = l.id)
    (hsame : l'.holder = l.holder) (id : DrainLeaseId) :
    ((s.leases.put l').find id).map DrainLease.holder =
      ((p.leases.put l).find id).map DrainLease.holder := by
  rw [Table.find_put, Table.find_put, hid]
  by_cases hk : l.id = id
  · rw [if_pos hk, if_pos hk]
    simpa using hsame
  · rw [if_neg hk, if_neg hk]
    exact h.holders id

theorem put_bounded (h : Alike p s) {l : DrainLease}
    (hl : l.targets.length ≤ limits.kMaxDrainTargetsPerRequest) :
    ∀ x ∈ (s.leases.put l).rows, x.targets.length ≤ limits.kMaxDrainTargetsPerRequest := by
  intro x hx
  rcases Table.mem_put.mp hx with rfl | ⟨hx, _⟩
  · exact hl
  · exact h.bounded x hx

theorem erase_holders (h : Alike p s) (lease id : DrainLeaseId) :
    ((s.leases.erase lease).find id).map DrainLease.holder =
      ((p.leases.erase lease).find id).map DrainLease.holder := by
  rw [Table.find_erase, Table.find_erase]
  by_cases hk : lease = id
  · rw [if_pos hk, if_pos hk]
  · rw [if_neg hk, if_neg hk]
    exact h.holders id

/-- Both lose every lease at the same query. -/
theorem drop (h : Alike p s) : Alike p.drop_leases s.drop_leases := by
  unfold LocalDrainPort.drop_leases DrainService.drop_leases
  rw [h.drop_on_query]
  by_cases hdrop : p.options.drop_leases_on_next_query = true
  · rw [if_pos hdrop, if_pos hdrop]
    exact ⟨fun _ => rfl, h.fail_next, rfl, h.fence_refresh, h.next_id, fun _ hl => by cases hl⟩
  · rw [if_neg hdrop, if_neg hdrop]
    exact h

end Alike

/-! ## One call of each kind -/

/-- The ports agree on this call exactly where the condition says, and stay in step. -/
structure InStep (p : LocalDrainPort) (r : RemoteDrainPort) (call : DrainCall) : Prop where
  code : p.code call = r.code call ↔ p.Unrefused call
  alike : Alike (p.after call) (r.after call).service

namespace Alike

variable {p p' : LocalDrainPort} {r : RemoteDrainPort} {s : DrainService} {call : DrainCall}

/-- Both sides do what they are asked. -/
theorem in_step_of_ok (hlocal : p.perform call = (ok_status, p'))
    (hremote : (r.perform call).1 = ok_status ∧ (r.perform call).2.service = s)
    (hunrefused : p.Unrefused call) (alike : Alike p' s) : InStep p r call := by
  constructor
  · rw [LocalDrainPort.code, RemoteDrainPort.code, hlocal, hremote.1]
    exact ⟨fun _ => hunrefused, fun _ => rfl⟩
  · rw [LocalDrainPort.after, RemoteDrainPort.after, hlocal, hremote.2]
    exact alike

/-- Both sides refuse, and only the local port says what for. -/
theorem in_step_of_error {e : Error} (hlocal : p.perform call = (.error e, p'))
    (hcode : e.code ≠ .DrainFailed)
    (hremote : status_code (r.perform call).1 = some .DrainFailed ∧
      (r.perform call).2.service = s)
    (hrefused : ¬ p.Unrefused call) (alike : Alike p' s) : InStep p r call := by
  constructor
  · rw [LocalDrainPort.code, RemoteDrainPort.code, hlocal, hremote.1]
    refine ⟨?_, fun h => absurd h hrefused⟩
    intro hsame
    exact absurd (Option.some.inj hsame) hcode
  · rw [LocalDrainPort.after, RemoteDrainPort.after, hlocal, hremote.2]
    exact alike

theorem release_in_step (h : Alike p r.service) {lease : DrainLeaseId}
    {requester : ControllerIncarnation}
    (typed : (DrainCall.release_drain lease requester).machine) :
    InStep p r (.release_drain lease requester) := by
  have hread := decode_encode_drain_lease_ref typed.1 typed.2 (by decide : i64_range 0)
  have hfits := lease_ref_fits lease requester 0
  have hsent : RemoteDrainPort.Sent (.release_drain lease requester) := by
    intro request hrequest
    cases hrequest
  -- The lease is held on both sides or on neither; no owner is asked for.
  cases hp : p.leases.find lease with
  | none =>
    have hs := h.find_none hp
    have hhandled : r.service.handle
        (RemoteDrainPort.wire_envelope (.release_drain lease requester)) =
        (.error (make_error .NotFound (text "drain lease " ++ lease.to_string ++
          text " is not held")), r.service) := by
      simp [DrainService.handle, DrainService.release, RemoteDrainPort.wire_envelope,
        RemoteDrainPort.wire_op, RemoteDrainPort.wire_body, hread, hs]
    have hlocal : p.perform (.release_drain lease requester) =
        (.error (LocalDrainPort.not_held .NotFound lease), p) := by
      rw [LocalDrainPort.perform, LocalDrainPort.release_drain, hp]
    refine in_step_of_error hlocal (by simp [LocalDrainPort.not_held, make_error])
      (RemoteDrainPort.perform_of_error hsent hfits hhandled (by simp [make_error])) ?_ h
    simp [LocalDrainPort.Unrefused, hp]
  | some held =>
    obtain ⟨held', hs, _⟩ := h.find_some hp
    have hhandled : r.service.handle
        (RemoteDrainPort.wire_envelope (.release_drain lease requester)) =
        (.ok (encode_text_body (text "released " ++ lease.to_string)),
          { r.service with
            leases := r.service.leases.erase lease, released := r.service.released + 1 }) := by
      simp [DrainService.handle, DrainService.release, RemoteDrainPort.wire_envelope,
        RemoteDrainPort.wire_op, RemoteDrainPort.wire_body, hread, hs]
    have hlocal : p.perform (.release_drain lease requester) = (ok_status,
        { p with leases := p.leases.erase lease, releases := p.releases + 1 }) := by
      rw [LocalDrainPort.perform, LocalDrainPort.release_drain, hp]
    refine in_step_of_ok hlocal
      (RemoteDrainPort.perform_of_ok hsent hfits hhandled (text_body_fits _) rfl) ?_ ?_
    · simp [LocalDrainPort.Unrefused, hp]
    · refine ⟨h.erase_holders lease, h.fail_next, h.drop_on_query, h.fence_refresh, h.next_id, ?_⟩
      intro l hl
      exact h.bounded l (Table.mem_erase.mp hl).1

/-- A lease that is found after the drop was there before it, and nothing was dropped. -/
theorem unrefused_query_iff (p : LocalDrainPort) (lease : DrainLeaseId)
    (requester : ControllerIncarnation) :
    p.Unrefused (.query_drain lease requester) ↔
      (p.drop_leases.leases.find lease).isSome = true := by
  unfold LocalDrainPort.drop_leases
  by_cases hdrop : p.options.drop_leases_on_next_query = true
  · simp [LocalDrainPort.Unrefused, hdrop]
  · simp [LocalDrainPort.Unrefused, hdrop]

theorem query_in_step (h : Alike p r.service) {lease : DrainLeaseId}
    {requester : ControllerIncarnation} (typed : (DrainCall.query_drain lease requester).machine) :
    InStep p r (.query_drain lease requester) := by
  have hread := decode_encode_drain_lease_ref typed.1 typed.2 (by decide : i64_range 0)
  have hfits := lease_ref_fits lease requester 0
  have hdrop := h.drop
  have hsent : RemoteDrainPort.Sent (.query_drain lease requester) := by
    intro request hrequest
    cases hrequest
  -- A query first drops the leases that are to be lost, on both sides alike.
  cases hp : p.drop_leases.leases.find lease with
  | none =>
    have hs := hdrop.find_none hp
    have hhandled : r.service.handle
        (RemoteDrainPort.wire_envelope (.query_drain lease requester)) =
        (.error (DrainService.lost lease), r.service.drop_leases) := by
      simp [DrainService.handle, DrainService.query, RemoteDrainPort.wire_envelope,
        RemoteDrainPort.wire_op, RemoteDrainPort.wire_body, hread, hs]
    have hlocal : p.perform (.query_drain lease requester) =
        (.error (LocalDrainPort.not_held .DrainLeaseLost lease), p.drop_leases) := by
      simp [LocalDrainPort.perform, LocalDrainPort.query_drain, hp, LocalDrainPort.lost]
    refine in_step_of_error hlocal (by simp [LocalDrainPort.not_held, make_error])
      (RemoteDrainPort.perform_of_error hsent hfits hhandled
        (by simp [DrainService.lost, make_error])) ?_ hdrop
    rw [unrefused_query_iff, hp]
    simp
  | some held =>
    obtain ⟨held', hs, _⟩ := hdrop.find_some hp
    have hbounded := hdrop.bounded held' (Table.mem_of_find hs)
    have hhandled : r.service.handle
        (RemoteDrainPort.wire_envelope (.query_drain lease requester)) =
        (.ok (encode_drain_lease_body held'), r.service.drop_leases) := by
      simp [DrainService.handle, DrainService.query, RemoteDrainPort.wire_envelope,
        RemoteDrainPort.wire_op, RemoteDrainPort.wire_body, hread, hs]
    have hlocal : p.perform (.query_drain lease requester) = (ok_status, p.drop_leases) := by
      simp [LocalDrainPort.perform, LocalDrainPort.query_drain, hp]
    have hlease : RemoteDrainPort.read_status (.query_drain lease requester)
        (.ok (encode_drain_lease_body held')) = ok_status := by
      simp [RemoteDrainPort.read_status, RemoteDrainPort.lease_response,
        lease_body_understood hbounded]
    refine in_step_of_ok hlocal
      (RemoteDrainPort.perform_of_ok hsent hfits hhandled (lease_body_fits hbounded) hlease)
        ?_ hdrop
    rw [unrefused_query_iff, hp]
    rfl

theorem refresh_in_step (h : Alike p r.service) {lease : DrainLeaseId} {extend : Nanos}
    {requester : ControllerIncarnation}
    (typed : (DrainCall.refresh_drain lease extend requester).machine) :
    InStep p r (.refresh_drain lease extend requester) := by
  have hread := decode_encode_drain_lease_ref typed.1 typed.2.2 typed.2.1
  have hfits := lease_ref_fits lease requester extend
  have hsent : RemoteDrainPort.Sent (.refresh_drain lease extend requester) := by
    intro request hrequest
    cases hrequest
  have hhandle : r.service.handle
      (RemoteDrainPort.wire_envelope (.refresh_drain lease extend requester)) =
      r.service.refresh (encode_drain_lease_ref lease requester extend) := rfl
  cases hp : p.leases.find lease with
  -- The lease is lost on both sides.
  | none =>
    have hs := h.find_none hp
    have hhandled : r.service.refresh (encode_drain_lease_ref lease requester extend) =
        (.error (DrainService.lost lease), r.service) := by
      simp [DrainService.refresh, hread, hs]
    have hlocal : p.perform (.refresh_drain lease extend requester) =
        (.error (LocalDrainPort.not_held .DrainLeaseLost lease), p) := by
      simp [LocalDrainPort.perform, LocalDrainPort.refresh_drain, hp, LocalDrainPort.lost]
    refine in_step_of_error hlocal (by simp [LocalDrainPort.not_held, make_error])
      (RemoteDrainPort.perform_of_error hsent hfits (hhandle.trans hhandled)
        (by simp [DrainService.lost, make_error])) ?_ h
    rintro ⟨held, hheld, _⟩
    rw [hp] at hheld
    cases hheld
  | some held =>
    obtain ⟨held', hs, hattempt, howner⟩ := h.find_some hp
    have hbounded := h.bounded held' (Table.mem_of_find hs)
    by_cases hforeign : p.options.fence_refresh_by_owner = true ∧ held.owner ≠ requester
    · -- A foreign requester: fenced on both sides.
      have hhandled : r.service.refresh (encode_drain_lease_ref lease requester extend) =
          (.error (make_error .StaleIncarnation (text "drain lease " ++ lease.to_string ++
            text " is owned by a previous incarnation")), r.service) := by
        simp [DrainService.refresh, hread, hs, h.fence_refresh, howner, hforeign.1, hforeign.2]
      have hlocal : p.perform (.refresh_drain lease extend requester) =
          (.error (make_error .StaleIncarnation (text "drain lease " ++ lease.to_string ++
            text " is owned by " ++ held.owner.to_string)), p) := by
        simp [LocalDrainPort.perform, LocalDrainPort.refresh_drain, hp, hforeign.1, hforeign.2]
      refine in_step_of_error hlocal (by simp [make_error])
        (RemoteDrainPort.perform_of_error hsent hfits (hhandle.trans hhandled)
          (by simp [make_error])) ?_ h
      rintro ⟨found, hfound, howned, _⟩
      rw [hp] at hfound
      cases hfound
      exact hforeign.2 (howned hforeign.1)
    · have howned : p.options.fence_refresh_by_owner = true → held.owner = requester := by
        intro hfence
        by_contra hne
        exact hforeign ⟨hfence, hne⟩
      have hfence : (p.options.fence_refresh_by_owner && decide (held.owner ≠ requester)) =
        false := by
        simpa using howned
      -- The owner asks: both sides refuse an extension that is not positive.
      by_cases hextend : extend ≤ 0
      · have hhandled : r.service.refresh (encode_drain_lease_ref lease requester extend) =
            (.error (make_error .InvalidArgument (text "refresh requires a positive extension")),
              r.service) := by
          unfold DrainService.refresh
          simp only [hread, hs, h.fence_refresh, howner, hfence, Bool.false_eq_true, if_false,
            if_pos hextend]
        have hlocal : p.perform (.refresh_drain lease extend requester) =
            (.error (invalid_argument (text "drain refresh must extend by a positive duration")),
              p) := by
          rw [LocalDrainPort.perform, LocalDrainPort.refresh_drain]
          simp only [hp, hfence, Bool.false_eq_true, if_false, if_pos hextend]
        refine in_step_of_error hlocal (by simp [invalid_argument])
          (RemoteDrainPort.perform_of_error hsent hfits (hhandle.trans hhandled)
            (by simp [make_error])) ?_ h
        rintro ⟨_, _, _, hpositive⟩
        exact absurd hpositive (not_lt.mpr hextend)
      · have hhandled : r.service.refresh (encode_drain_lease_ref lease requester extend) =
            (.ok (encode_drain_lease_body { held' with
              expires_at := wrapped_i64 (held'.expires_at + extend), owner := requester
              epoch := r.service.epoch + 1 }),
              { r.service with
                epoch := r.service.epoch + 1
                leases := r.service.leases.put { held' with
                  expires_at := wrapped_i64 (held'.expires_at + extend), owner := requester
                  epoch := r.service.epoch + 1 } }) := by
          unfold DrainService.refresh
          simp only [hread, hs, h.fence_refresh, howner, hfence, Bool.false_eq_true, if_false,
            if_neg hextend]
        have hlocal : p.perform (.refresh_drain lease extend requester) =
            (ok_status, { p with
              refreshes := p.refreshes + 1, epoch := p.epoch + 1
              leases := p.leases.put { held with
                expires_at := wrapped_i64 (held.expires_at + extend), owner := requester
                epoch := p.epoch + 1 } }) := by
          rw [LocalDrainPort.perform, LocalDrainPort.refresh_drain]
          simp only [hp, hfence, Bool.false_eq_true, if_false, if_neg hextend]
        refine in_step_of_ok hlocal (RemoteDrainPort.perform_of_ok hsent hfits
          (hhandle.trans hhandled) (lease_body_fits hbounded) ?_) ?_ ?_
        · simp only [RemoteDrainPort.read_status, RemoteDrainPort.lease_response]
          rw [lease_body_understood (l := { held' with
            expires_at := wrapped_i64 (held'.expires_at + extend), owner := requester
            epoch := r.service.epoch + 1 }) hbounded]
        · exact ⟨held, hp, howned, not_le.mp hextend⟩
        -- Both sides put the refreshed lease in the place of the one they hold.
        · have hid : held'.id = held.id := (Table.key_of_find hs).trans (Table.key_of_find hp).symm
          refine ⟨?_, h.fail_next, h.drop_on_query, h.fence_refresh, h.next_id, ?_⟩
          · apply h.put_holders
            · exact hid
            · simp [DrainLease.holder, hattempt]
          · exact h.put_bounded hbounded

/-- A drain request is refused for what is wrong with it before it is sent, and for nothing else
    but a failed drain after that. -/
theorem request_in_step (h : Alike p r.service) {request : DrainRequest}
    (typed : (DrainCall.request_drain request).machine) :
    InStep p r (.request_drain request) := by
  obtain ⟨hjob, hgeneration, hattempt, htarget, hduration, hrequester⟩ := typed
  cases hvalid : validate_drain_request request with
  | error e =>
    have hlocal : p.perform (.request_drain request) = (.error e, p) := by
      simp [LocalDrainPort.perform, LocalDrainPort.request_drain, hvalid]
    have hremote : r.perform (.request_drain request) = (.error e, r) := by
      simp [RemoteDrainPort.perform, RemoteDrainPort.request_drain, hvalid]
    constructor
    · rw [LocalDrainPort.code, RemoteDrainPort.code, hlocal, hremote]
      exact ⟨fun _ => trivial, fun _ => rfl⟩
    · rw [LocalDrainPort.after, RemoteDrainPort.after, hlocal, hremote]
      exact h
  | ok u =>
    have hsent : RemoteDrainPort.Sent (.request_drain request) := by
      intro request' hsame
      cases hsame
      exact hvalid
    have htargets := validated_targets hvalid
    have hfits := request_body_fits htargets
    have hread := request_body_understood hjob hgeneration hattempt htarget hduration hrequester
      htargets
    have hrevalid : validate_drain_request
        { request with reason := clip limits.kMaxReasonLength request.reason } = .ok () := hvalid
    have hhandle : r.service.handle (RemoteDrainPort.wire_envelope (.request_drain request)) =
        r.service.request_drain (encode_drain_request_body request) := rfl
    by_cases hfail : p.options.fail_next_requests > 0
    · have hhandled : r.service.request_drain (encode_drain_request_body request) =
          (.error (make_error .DrainFailed (text "drain refused by injected failure")),
            { r.service with fail_next := r.service.fail_next - 1 }) := by
        unfold DrainService.request_drain
        simp only [hread, hrevalid, h.fail_next, if_pos hfail]
      have hcode : p.code (.request_drain request) = some .DrainFailed := by
        rw [LocalDrainPort.code, LocalDrainPort.perform, LocalDrainPort.request_drain]
        simp [hvalid, hfail, status_code, make_error]
      obtain ⟨hremote, hservice⟩ := RemoteDrainPort.perform_of_error hsent hfits
        (hhandle.trans hhandled) (by simp [make_error])
      constructor
      · rw [hcode, RemoteDrainPort.code, hremote]
        exact ⟨fun _ => trivial, fun _ => rfl⟩
      · rw [LocalDrainPort.after, RemoteDrainPort.after, hservice, LocalDrainPort.perform,
          LocalDrainPort.request_drain]
        simp only [hvalid, if_pos hfail]
        exact ⟨h.holders, by rw [h.fail_next], h.drop_on_query, h.fence_refresh, h.next_id,
          h.bounded⟩
    · have hknown := h.attempt_known request.attempt
      cases hp : p.leases.rows.find? (fun l => l.attempt = request.attempt) with
      | some held =>
        rw [hp] at hknown
        obtain ⟨held', hs⟩ := Option.isSome_iff_exists.mp hknown
        have hbounded := h.bounded held' (List.mem_of_find?_eq_some hs)
        have hhandled : r.service.request_drain (encode_drain_request_body request) =
            (.ok (encode_drain_lease_body held'), r.service) := by
          unfold DrainService.request_drain
          simp only [hread, hrevalid, h.fail_next, if_neg hfail, hs]
        have hlocal : p.perform (.request_drain request) =
            (ok_status, { p with requests := p.requests + 1 }) := by
          rw [LocalDrainPort.perform, LocalDrainPort.request_drain]
          simp only [hvalid, if_neg hfail, hp]
        refine in_step_of_ok hlocal (RemoteDrainPort.perform_of_ok hsent hfits
          (hhandle.trans hhandled) (lease_body_fits hbounded) ?_) trivial ?_
        · simp only [RemoteDrainPort.read_status, RemoteDrainPort.lease_response,
            lease_body_understood hbounded]
        · exact ⟨h.holders, h.fail_next, h.drop_on_query, h.fence_refresh, h.next_id, h.bounded⟩
      | none =>
        rw [hp] at hknown
        have hs : r.service.leases.rows.find? (fun l => l.attempt = request.attempt) = none := by
          simpa using hknown
        -- Both sides grant a lease under the same identity.
        let lease : DrainLease :=
          { id := r.service.next_id, targets := request.targets, granted_at := 0
            expires_at := request.lease_duration, state := r.service.options.granted_state
            attempt := request.attempt, owner := request.requester, epoch := r.service.epoch + 1 }
        have hhandled : r.service.request_drain (encode_drain_request_body request) =
            (.ok (encode_drain_lease_body lease),
              { r.service with
                next_id := r.service.next_id.next, epoch := r.service.epoch + 1
                leases := r.service.leases.put lease, granted := r.service.granted + 1 }) := by
          unfold DrainService.request_drain
          simp only [hread, hrevalid, h.fail_next, if_neg hfail, hs]
          rfl
        have hlocal : p.perform (.request_drain request) = (ok_status,
            { p with
              requests := p.requests + 1, next_id := p.next_id.next, epoch := p.epoch + 1
              leases := p.leases.put { id := p.next_id, targets := sort request.targets
                                       granted_at := 0, expires_at := request.lease_duration
                                       state := p.options.granted_state
                                       attempt := request.attempt, owner := request.requester
                                       epoch := p.epoch + 1 } }) := by
          rw [LocalDrainPort.perform, LocalDrainPort.request_drain]
          simp only [hvalid, if_neg hfail, hp]
        refine in_step_of_ok hlocal (RemoteDrainPort.perform_of_ok hsent hfits
          (hhandle.trans hhandled) (lease_body_fits htargets) ?_) trivial ?_
        · simp only [RemoteDrainPort.read_status, RemoteDrainPort.lease_response]
          rw [lease_body_understood (l := lease) htargets]
        · refine ⟨?_, h.fail_next, h.drop_on_query, h.fence_refresh, ?_, ?_⟩
          · apply h.put_holders
            · exact h.next_id
            · rfl
          · exact congrArg StrongId.next h.next_id
          · exact h.put_bounded htargets

theorem in_step (h : Alike p r.service) (typed : call.machine) : InStep p r call := by
  cases call with
  | request_drain request => exact h.request_in_step typed
  | refresh_drain lease extend requester => exact h.refresh_in_step typed
  | query_drain lease requester => exact h.query_in_step typed
  | release_drain lease requester => exact h.release_in_step typed

end Alike

/-! ## Runs -/

/-- The codes a run of calls meets at the port in front of the service agree with those it meets
    in process exactly when the service has nothing to refuse but a drain along the way. -/
theorem remote_codes_agree_iff (options : LocalDrainOptions) (calls : List DrainCall)
    (typed : ∀ call ∈ calls, call.machine) :
    answers LocalDrainPort.after LocalDrainPort.code { options } calls =
        answers RemoteDrainPort.after RemoteDrainPort.code
          { service := DrainService.start options.sim } calls ↔
      Along LocalDrainPort.after LocalDrainPort.Unrefused { options } calls := by
  refine answers_eq_iff (R := fun p r => Alike p r.service) (I := DrainCall.machine) ?_ ?_
    (Alike.start options) typed
  · intro p r call halike hcall
    exact (halike.in_step hcall).alike
  · intro p r call halike hcall
    exact (halike.in_step hcall).code

namespace Drill

def controller : ControllerIncarnation := { controller := ⟨1⟩, boot_epoch := ⟨1⟩, nonce := 7 }

def drain : DrainCall :=
  .request_drain { job := ⟨1⟩, generation := ⟨1⟩
                   attempt := { job := ⟨1⟩, generation := ⟨1⟩, ordinal := ⟨1⟩ }
                   targets := [{ kind := .Switch, index := 1 }], requester := controller }

end Drill

/-- A lease that is asked for, looked at and released is no trouble. -/
theorem remote_codes_agree_undisturbed :
    let calls := [Drill.drain, .query_drain ⟨1⟩ Drill.controller,
      .release_drain ⟨1⟩ Drill.controller]
    answers LocalDrainPort.after LocalDrainPort.code {} calls =
      answers RemoteDrainPort.after RemoteDrainPort.code
        { service := DrainService.start ({} : LocalDrainOptions).sim } calls := by
  intro calls
  refine (remote_codes_agree_iff {} calls ?_).mpr ?_
  · intro call hcall
    simp only [calls, List.mem_cons, List.not_mem_nil, or_false] at hcall
    rcases hcall with rfl | rfl | rfl
    · refine ⟨by decide, by decide, by decide, ?_, by decide, by decide⟩
      decide
    · exact ⟨by decide, by decide⟩
    · exact ⟨by decide, by decide⟩
  · refine ⟨trivial, ⟨rfl, ?_⟩, ?_, trivial⟩
    · decide +kernel
    · show (LocalDrainPort.leases _ |>.find _).isSome = true
      decide +kernel

/-- A lease that the service has lost is released. In process the release finds that the lease is
    gone; the remote port reports a failed drain, and the controller keeps the lease. -/
theorem lost_lease_is_not_gone :
    let calls := [DrainCall.release_drain ⟨1⟩ Drill.controller]
    answers LocalDrainPort.after LocalDrainPort.code {} calls = [some .NotFound] ∧
      answers RemoteDrainPort.after RemoteDrainPort.code
        { service := DrainService.start ({} : LocalDrainOptions).sim } calls =
          [some .DrainFailed] ∧
      Controller.lease_gone (.error (make_error .NotFound [])) = true ∧
      Controller.lease_gone (.error (make_error .DrainFailed [])) = false := by
  decide +kernel

end MaintenanceFabric
