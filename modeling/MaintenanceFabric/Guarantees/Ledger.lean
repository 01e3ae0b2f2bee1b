import MaintenanceFabric.Guarantees.Concurrency
import MaintenanceFabric.Runtime.Ledgers
import Mathlib.Tactic.Linarith

/-! # The authority ledger

    Whatever is asked of the ledger, a job generation holds at most one
    reservation and the ledger stays within its size; and so it is in every
    state of the system, where grants are staged on a copy of the ledger and
    restarts reissue what they fenced.
-/

namespace MaintenanceFabric

open Lib

namespace AuthorityLedger

/-! ## Calls -/

def consume (l : AuthorityLedger) (id : AuthorityId) (current : ControllerIncarnation) : Status :=
  match l.find id with
  | none => .error (not_held id)
  | some r =>
      if r.owner ≠ current then
        .error (make_error .StaleIncarnation (text "authority reservation " ++ id.to_string ++
          text " is owned by incarnation " ++ r.owner.to_string))
      else ok_status

/-- Forget a reservation, whoever owns it; how many there were. -/
def erase (l : AuthorityLedger) (id : AuthorityId) : Nat × AuthorityLedger :=
  (if (l.find id).isSome then 1 else 0, { l with reservations := l.reservations.erase id })

/-- A call on the ledger. -/
inductive Call where
  | reserve (request : AuthorityReservation)
  | renew (id : AuthorityId) (attempt : AttemptId) (current : ControllerIncarnation)
      (extend now : Nanos)
  | release (id : AuthorityId) (current : ControllerIncarnation)
  | consume (id : AuthorityId) (current : ControllerIncarnation)
  | expire (now : Nanos)
  | fence_older_incarnations (current : ControllerIncarnation)
  | erase (id : AuthorityId)

/-- The ledger a call leaves behind where it answers with a status. -/
def settled (l : AuthorityLedger) :
    Result AuthorityLedger → Result (Option AuthorityId) × AuthorityLedger
  | .ok l' => (.ok none, l')
  | .error e => (.error e, l)

/-- What a call answers, a grant with its identity, and the ledger it leaves behind. -/
def call (l : AuthorityLedger) : Call → Result (Option AuthorityId) × AuthorityLedger
  | .reserve request =>
      match l.reserve request with
      | .ok (granted, l') => (.ok (some granted.id), l')
      | .error e => (.error e, l)
  | .renew id attempt current extend now => l.settled (l.renew id attempt current extend now)
  | .release id current => l.settled (l.release id current)
  | .consume id current => l.settled ((l.consume id current).map (fun _ => l))
  | .expire now => (.ok none, l.expire now)
  | .fence_older_incarnations current => (.ok none, (l.fence_older_incarnations current).2)
  | .erase id => (.ok none, (l.erase id).2)

def calls (l : AuthorityLedger) (cs : List Call) : AuthorityLedger :=
  cs.foldl (fun l c => (l.call c).2) l

/-- The identities that a run of calls is granted, in the order of the grants. -/
def granted (l : AuthorityLedger) : List Call → List AuthorityId
  | [] => []
  | c :: cs =>
      match (l.call c).1 with
      | .ok (some id) => id :: granted (l.call c).2 cs
      | _ => granted (l.call c).2 cs

/-! ## One call -/

section

variable {l l' : AuthorityLedger}

/-- A call that answers with a status and grants nothing. -/
def Passive (l : AuthorityLedger)
    (outcome : Result (Option AuthorityId) × AuthorityLedger) : Prop :=
  Derives l outcome.2 ∧ outcome.2.next_id = l.next_id ∧ ∀ id, outcome.1 ≠ .ok (some id)

theorem passive_settled {result : Result AuthorityLedger}
    (h : ∀ l', result = .ok l' → Derives l l' ∧ l'.next_id = l.next_id) :
    l.Passive (l.settled result) := by
  cases result with
  | error e => exact ⟨derives_of_subset (fun _ h => h), rfl, fun _ h => by cases h⟩
  | ok l' => exact ⟨(h l' rfl).1, (h l' rfl).2, fun _ h => by cases h⟩

/-- Every call but a grant only takes from the ledger, or extends a lease. -/
theorem call_cases (l : AuthorityLedger) (c : Call) :
    (∃ r g, l.reserve r = .ok (g, (l.call c).2) ∧ (l.call c).1 = .ok (some g.id)) ∨
      l.Passive (l.call c) := by
  -- Only `reserve` adds a row; the other calls derive theirs from the rows that are there.
  cases c with
  | reserve request =>
    simp only [call]
    cases hreserve : l.reserve request with
    | error e => exact .inr ⟨derives_of_subset (fun _ h => h), rfl, fun _ h => by cases h⟩
    | ok answer => exact .inl ⟨request, answer.1, hreserve, rfl⟩
  | renew id attempt current extend now =>
    refine .inr (passive_settled ?_)
    intro l' h
    obtain ⟨r, e, v, hfind, _, rfl⟩ := renew_ok h
    exact ⟨derives_put (Table.mem_of_find hfind) e v, rfl⟩
  | release id current =>
    refine .inr (passive_settled ?_)
    intro l' h
    obtain ⟨r, _, rfl⟩ := release_ok h
    exact ⟨derives_of_subset (fun _ h => (Table.mem_erase.mp h).1), rfl⟩
  | consume id current =>
    refine .inr (passive_settled ?_)
    intro l' h
    cases hconsume : l.consume id current with
    | error e =>
      rw [hconsume] at h
      cases h
    | ok u =>
      rw [hconsume] at h
      cases h
      exact ⟨derives_of_subset (fun _ h => h), rfl⟩
  | expire now =>
    exact .inr ⟨derives_of_subset (fun _ h => (Table.mem_filter.mp h).1), rfl,
      fun _ h => by cases h⟩
  | fence_older_incarnations current =>
    exact .inr ⟨derives_of_subset (fun _ h => (Table.mem_filter.mp h).1), rfl,
      fun _ h => by cases h⟩
  | erase id =>
    exact .inr ⟨derives_of_subset (fun _ h => (Table.mem_erase.mp h).1), rfl, fun _ h => by cases h⟩

theorem Tidy.call (h : l.Tidy) (c : Call) : (l.call c).2.Tidy := by
  rcases l.call_cases c with ⟨r, g, hreserve, _⟩ | ⟨hderives, _⟩
  · exact h.reserve hreserve
  · exact hderives.tidy h

theorem Tidy.calls (h : l.Tidy) (cs : List Call) : (l.calls cs).Tidy := by
  unfold AuthorityLedger.calls
  induction cs generalizing l with
  | nil => exact h
  | cons c cs ih => exact ih (h.call c)

/-- Identities are handed out in ascending order, from the allocator up. -/
theorem granted_ascending (l : AuthorityLedger) (cs : List Call) :
    (l.granted cs).Pairwise (· < ·) ∧ ∀ id ∈ l.granted cs, l.next_id ≤ id := by
  induction cs generalizing l with
  | nil => exact ⟨.nil, fun _ h => by cases h⟩
  | cons c cs ih =>
    obtain ⟨hascending, hfloor⟩ := ih (l.call c).2
    rcases l.call_cases c with ⟨r, g, hreserve, hanswer⟩ | ⟨_, hnext, hanswer⟩
    · obtain ⟨hg, hl, _, _⟩ := reserve_ok hreserve
      have hid : g.id = l.next_id := by rw [hg]
      have hstep : (l.call c).2.next_id = g.id.next := by rw [hl, hid]
      have hlt : g.id < g.id.next := StrongId.lt_iff.mpr (Nat.lt_succ_self _)
      have hlist : l.granted (c :: cs) = g.id :: (l.call c).2.granted cs := by
        rw [granted, hanswer]
      rw [hlist]
      refine ⟨List.pairwise_cons.mpr ⟨?_, hascending⟩, ?_⟩
      · intro id hmem
        exact hlt.trans_le (hstep ▸ hfloor id hmem)
      · intro id hmem
        rcases List.mem_cons.mp hmem with rfl | hmem
        · exact hid.ge
        · exact hid.ge.trans (hlt.le.trans (hstep ▸ hfloor id hmem))
    · have hlist : l.granted (c :: cs) = (l.call c).2.granted cs := by
        rw [granted]
        split
        · next id heq => exact absurd heq (hanswer id)
        · rfl
      rw [hlist]
      exact ⟨hascending, hnext ▸ hfloor⟩

/-! ## Leases -/

/-- The numbers a renewal forms: what is left, what may be added, and the new end. -/
def renewal_sums (expires_at extend now : Nanos) : List Int :=
  let base := if expires_at > now then expires_at else now
  [base - now, limits.kMaxAuthorityLeaseNanos - (base - now)] ++
    if extend ≤ limits.kMaxAuthorityLeaseNanos - (base - now) then [base + extend] else []

/-- Within half of the machine's range. -/
def Half (t : Nanos) : Prop := -4611686018427387904 ≤ t ∧ t < 4611686018427387904

theorem renewal_fits {expires_at extend now : Nanos} (hend : Half expires_at) (hnow : Half now)
    (hextend : 0 < extend) : ∀ n ∈ renewal_sums expires_at extend now, i64_range n := by
  obtain ⟨hend_low, hend_high⟩ := hend
  obtain ⟨hnow_low, hnow_high⟩ := hnow
  have hmax : limits.kMaxAuthorityLeaseNanos = 7200000000000 := rfl
  unfold renewal_sums
  simp only [hmax]
  generalize hbase : (if expires_at > now then expires_at else now) = base
  have hbounds : now ≤ base ∧ base < 4611686018427387904 := by
    rw [← hbase]
    by_cases hlater : expires_at > now
    · rw [if_pos hlater]
      exact ⟨le_of_lt hlater, hend_high⟩
    · rw [if_neg hlater]
      exact ⟨le_refl _, hnow_high⟩
  obtain ⟨hle, hlt⟩ := hbounds
  intro n hn
  unfold i64_range
  by_cases hfits : extend ≤ 7200000000000 - (base - now)
  · rw [if_pos hfits] at hn
    simp only [List.mem_append, List.mem_cons, List.not_mem_nil, or_false] at hn
    rcases hn with (rfl | rfl) | rfl <;> constructor <;> linarith
  · rw [if_neg hfits] at hn
    simp only [List.append_nil, List.mem_cons, List.not_mem_nil, or_false] at hn
    rcases hn with rfl | rfl <;> constructor <;> linarith

/-- A renewal answers to the owner and to the attempt, and keeps the lease within its limit. -/
theorem renew_spec {id : AuthorityId} {attempt : AttemptId} {current : ControllerIncarnation}
    {extend now : Nanos} (h : l.renew id attempt current extend now = .ok l') :
    ∃ r r', l.find id = some r ∧ r.owner = current ∧ r.attempt = attempt ∧ l'.find id = some r' ∧
      r.expires_at ≤ r'.expires_at ∧ r'.expires_at ≤ now + limits.kMaxAuthorityLeaseNanos ∧
      (Half r.expires_at → Half now →
        ∀ n ∈ renewal_sums r.expires_at extend now, i64_range n) := by
  unfold renew at h
  cases hfind : l.find id with
  | none =>
    rw [hfind] at h
    cases h
  | some r =>
    simp only [hfind] at h
    split at h
    · cases h
    · next howner =>
      split at h
      · cases h
      · next hattempt =>
        split at h
        · cases h
        · next hextend =>
          -- The extension counts from the later of the old end and now.
          generalize hbase : (if r.expires_at > now then r.expires_at else now) = base at h
          have hle : r.expires_at ≤ base ∧ now ≤ base := by
            rw [← hbase]
            by_cases hlater : r.expires_at > now
            · rw [if_pos hlater]
              exact ⟨le_refl _, le_of_lt hlater⟩
            · rw [if_neg hlater]
              exact ⟨not_lt.mp hlater, le_refl _⟩
          split at h
          · cases h
          · next hlimit =>
            cases h
            have hid : r.id = id := Table.key_of_find hfind
            refine ⟨r, { r with expires_at := base + extend, revision := r.revision.next }, rfl,
              not_not.mp howner, not_not.mp hattempt, ?_, ?_, ?_, ?_⟩
            · rw [← hid]
              exact Table.find_put_self _ _
            · have hpos : (0 : Int) < extend := not_le.mp hextend
              show r.expires_at ≤ base + extend
              exact hle.1.trans (le_add_of_nonneg_right hpos.le)
            · have hroom : extend ≤ limits.kMaxAuthorityLeaseNanos - (base - now) :=
                not_lt.mp hlimit
              show base + extend ≤ now + limits.kMaxAuthorityLeaseNanos
              linarith
            · exact fun hend hnow => renewal_fits hend hnow (not_le.mp hextend)

theorem release_spec {id : AuthorityId} {current : ControllerIncarnation}
    (h : l.release id current = .ok l') : ∃ r, l.find id = some r ∧ r.owner = current := by
  unfold release at h
  cases hfind : l.find id with
  | none =>
    rw [hfind] at h
    cases h
  | some r =>
    simp only [hfind] at h
    split at h
    · cases h
    · next howner => exact ⟨r, rfl, not_not.mp howner⟩

/-- A call that fails leaves the ledger as it was. -/
theorem call_error {c : Call} {e : Error} (h : (l.call c).1 = .error e) : (l.call c).2 = l := by
  have hsettled : ∀ result, (l.settled result).1 = .error e → (l.settled result).2 = l := by
    intro result h
    cases result with
    | ok l' => cases h
    | error e' => rfl
  cases c with
  | reserve request =>
    simp only [call] at h ⊢
    cases hreserve : l.reserve request with
    | ok answer =>
      rw [hreserve] at h
      cases h
    | error e' => rfl
  | renew id attempt current extend now => exact hsettled _ h
  | release id current => exact hsettled _ h
  | consume id current => exact hsettled _ h
  | expire now => cases h
  | fence_older_incarnations current => cases h
  | erase id => cases h

end

end AuthorityLedger

/-! ## The system -/

namespace System

variable {s : System} {e : Event}

/-- A restart fences and reissues, the end of a pass arbitrates, and every other step only takes
    from the ledger or extends a lease. -/
theorem tidy_step (sound : s.Sound) (h : s.ctl.world.ledger.Tidy) (e : Event) :
    (s.step e).ctl.world.ledger.Tidy := by
  have hunder : (under s.ctl e.verdicts).world.ledger.Tidy := h
  by_cases hrestart : (s.license e).restarts
  · obtain ⟨options, clock, steady, label⟩ := restarts_spec (license_restarts hrestart)
    have hstep : s.step e = restart { s with ctl := under s.ctl e.verdicts }
      options clock steady := by
      unfold step
      rw [label]
    rw [hstep]
    exact Controller.tidy_open _ options clock steady hunder
  · by_cases hgrants : (s.license e).grants
    · obtain ⟨p, label, pass, remaining⟩ := license_grants hgrants
      have hnumbered : ∀ r ∈ (under s.ctl e.verdicts).world.ledger.reservations.rows,
          r.id < (under s.ctl e.verdicts).world.ledger.next_id :=
        fun r hr => (sound.world.ids.2 r hr).2
      unfold step
      rw [label]
      simp only [pass]
      by_cases hup : s.up = true
      · rw [if_pos hup]
        unfold pass_step
        simp only [remaining]
        rw [world_sweep_orphans]
        exact Controller.tidy_arbitrate_locked _ _ hnumbered hunder
      · rw [if_neg hup]
        exact hunder
    · exact ((changes_step sound e).derives hgrants hrestart).tidy h

theorem tidy_run (events : List Event) : (initial.run events).ctl.world.ledger.Tidy := by
  have hrun : ∀ (events : List Event) (s : System), s.Sound → s.ctl.world.ledger.Tidy →
      (s.run events).ctl.world.ledger.Tidy := by
    intro events
    induction events with
    | nil => exact fun _ _ h => h
    | cons e events ih => exact fun s sound h => ih _ (sound.step e) (tidy_step sound h e)
  exact hrun events initial sound_initial AuthorityLedger.tidy_empty

end System

/-- The ledger is tidy after any calls and in every reachable state; grants ascend, renewals and
    releases answer to the owner, and failures change nothing. -/
theorem ledger_invariants :
    (∀ cs : List AuthorityLedger.Call,
      (({} : AuthorityLedger).calls cs).Tidy ∧
      (({} : AuthorityLedger).granted cs).Pairwise (· < ·) ∧
      (∀ id attempt current extend now l',
        (({} : AuthorityLedger).calls cs).renew id attempt current extend now = .ok l' →
        ∃ r r', (({} : AuthorityLedger).calls cs).find id = some r ∧ r.owner = current ∧
          r.attempt = attempt ∧ l'.find id = some r' ∧ r.expires_at ≤ r'.expires_at ∧
          r'.expires_at ≤ now + limits.kMaxAuthorityLeaseNanos ∧
          (AuthorityLedger.Half r.expires_at → AuthorityLedger.Half now →
            ∀ n ∈ AuthorityLedger.renewal_sums r.expires_at extend now, i64_range n)) ∧
      (∀ id current l', (({} : AuthorityLedger).calls cs).release id current = .ok l' →
        ∃ r, (({} : AuthorityLedger).calls cs).find id = some r ∧ r.owner = current) ∧
      ∀ c e, ((({} : AuthorityLedger).calls cs).call c).1 = .error e →
        ((({} : AuthorityLedger).calls cs).call c).2 = ({} : AuthorityLedger).calls cs) ∧
    ∀ events, (System.initial.run events).ctl.store.state.ledger.Tidy := by
  refine ⟨?_, System.tidy_run⟩
  intro cs
  refine ⟨AuthorityLedger.tidy_empty.calls cs,
    (AuthorityLedger.granted_ascending {} cs).1, ?_, ?_, ?_⟩
  · intro id attempt current extend now l' h
    exact AuthorityLedger.renew_spec h
  · intro id current l' h
    exact AuthorityLedger.release_spec h
  · intro c e h
    exact AuthorityLedger.call_error h

end MaintenanceFabric
