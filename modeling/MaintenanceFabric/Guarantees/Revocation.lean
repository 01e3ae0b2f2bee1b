import MaintenanceFabric.Store.Books

/-! # Removing many reservations

    Expiry and fencing journal the removal of every reservation they remove in
    one transaction.  The journal takes `kMaxRecordsPerTransaction` records in
    a transaction and the ledger may hold eight times as many reservations, so
    a large removal is refused whole and every reservation stays.
-/

namespace MaintenanceFabric

open Lib

/-- The entries that erase reservations. -/
def erasures (removed : List AuthorityReservation) : List Entry :=
  removed.map (fun r => .reservation_erased r.id)

theorem transaction_size_erasures (removed : List AuthorityReservation) :
    transaction_size (erasures removed) = 6 + 16 * removed.length := by
  unfold transaction_size erasures
  induction removed with
  | nil => rfl
  | cons r removed ih =>
    simp only [List.map_cons, List.sum_cons, Entry.size, erased_size, List.length_cons] at ih ⊢
    omega

/-- Erasures are small: only their number can be too much for a transaction. -/
theorem admit_erasures {removed : List AuthorityReservation} :
    admit_transaction (erasures removed) = .ok () ↔
      removed ≠ [] ∧ removed.length ≤ limits.kMaxRecordsPerTransaction := by
  have hlength : (erasures removed).length = removed.length := List.length_map _
  have hempty : (erasures removed).isEmpty = removed.isEmpty := List.isEmpty_map
  have hentries : check_entries (erasures removed) = .ok () := by
    unfold check_entries
    rw [refuse_if_eq_ok, List.any_eq_false]
    intro e he
    obtain ⟨r, _, rfl⟩ := List.mem_map.mp he
    simp [Entry.size, erased_size, limits.kMaxJournalRecordBytes]
  simp only [admit_transaction, Result.bind_eq_ok, refuse_if_eq_ok, hentries, hempty, hlength,
    transaction_size_erasures, decide_eq_false_iff_not, Nat.not_lt, List.isEmpty_eq_false_iff]
  constructor
  · rintro ⟨_, hsome, _, hfew, _⟩
    exact ⟨hsome, hfew⟩
  · rintro ⟨hsome, hfew⟩
    refine ⟨(), hsome, (), hfew, (), trivial, ?_⟩
    simp only [limits.kMaxRecordsPerTransaction, limits.kMaxJournalRecordBytes] at hfew ⊢
    omega

namespace Store

/-- The ledger is replaced only when the journal takes the entries. -/
theorem install_ledger_of_admitted {s : Store} {entries : List Entry} {staging : AuthorityLedger}
    {digests : Digests} (hadm : admit_transaction entries = .ok ())
    (hverdict : s.next_verdict.1 = none) :
    (s.install_ledger entries staging digests).2.state.ledger = staging := by
  have hstate := (quiet_next_verdict s).1
  unfold install_ledger append_transaction
  rw [hadm]
  generalize s.next_verdict = answer at hverdict hstate ⊢
  obtain ⟨verdict, s'⟩ := answer
  rw [show verdict = none from hverdict]
  rfl

theorem install_ledger_of_refused {s : Store} {entries : List Entry} {staging : AuthorityLedger}
    {digests : Digests} (h : ¬ (admit_transaction entries = .ok () ∧ s.next_verdict.1 = none)) :
    (s.install_ledger entries staging digests).2.state.ledger = s.state.ledger := by
  have hstate := (quiet_next_verdict s).1
  unfold install_ledger append_transaction
  cases hadm : admit_transaction entries with
  | error e => rfl
  | ok u =>
    have hverdict : s.next_verdict.1 ≠ none := fun hnone => h ⟨hadm, hnone⟩
    generalize s.next_verdict = answer at hverdict hstate ⊢
    obtain ⟨verdict, s'⟩ := answer
    cases verdict with
    | none => exact absurd rfl hverdict
    | some fault => exact congrArg PersistedState.ledger hstate

theorem reserve_authority_of_admitted {s : Store} {r granted : AuthorityReservation}
    {staging : AuthorityLedger} (hreserve : s.state.ledger.reserve r = .ok (granted, staging))
    (hadm : admit_transaction [.reservation granted (reservation_digest granted)] = .ok ())
    (hverdict : s.next_verdict.1 = none) :
    (s.reserve_authority r).2.state.ledger = staging := by
  have hinstalled : (s.install_ledger [.reservation granted (reservation_digest granted)] staging
      (s.digests.with_reservation granted.id (reservation_digest granted))).2.state.ledger =
      staging := install_ledger_of_admitted hadm hverdict
  unfold reserve_authority
  rw [hreserve]
  simp only
  generalize s.install_ledger _ staging _ = out at hinstalled ⊢
  obtain ⟨status, s'⟩ := out
  cases status with
  | error e => exact hinstalled
  | ok u => exact hinstalled

/-- Remove the reservations that `doomed` selects. -/
def remove (s : Store) (doomed : AuthorityReservation → Bool) : Store :=
  let removed := s.state.ledger.reservations.rows.filter doomed
  if removed.isEmpty then s
  else (s.install_ledger (erasures removed)
    { s.state.ledger with
      reservations := s.state.ledger.reservations.filter (fun r => !doomed r) } s.digests).2

theorem expire_authority_eq (s : Store) (now : Nanos) :
    s.expire_authority now = s.remove (fun r => !r.live_at now) := by
  simp only [expire_authority, remove, AuthorityLedger.expire, erasures, Bool.not_not]

theorem fence_authority_eq (s : Store) (current : ControllerIncarnation) :
    s.fence_authority current = s.remove (fun r => is_fenced_by r.owner current) := rfl

/-- What a removal selects and how many that is. -/
def doomed_count (s : Store) (doomed : AuthorityReservation → Bool) : Nat :=
  (s.state.ledger.reservations.rows.filter doomed).length

/-- A removal leaves nothing behind exactly when there is nothing to remove, or one transaction
    takes all of it and the journal accepts the transaction. -/
theorem remove_complete_iff (s : Store) (doomed : AuthorityReservation → Bool) :
    (∀ r ∈ (s.remove doomed).state.ledger.reservations.rows, doomed r = false) ↔
      s.doomed_count doomed = 0 ∨
        s.doomed_count doomed ≤ limits.kMaxRecordsPerTransaction ∧ s.next_verdict.1 = none := by
  unfold remove doomed_count
  by_cases hnone : s.state.ledger.reservations.rows.filter doomed = []
  · simp only [hnone, List.isEmpty_nil, if_true, List.length_nil, true_or, iff_true]
    intro r hr
    simpa using List.filter_eq_nil_iff.mp hnone r hr
  · have hsome : (s.state.ledger.reservations.rows.filter doomed).isEmpty = false := by
      simpa using hnone
    have hcount : (s.state.ledger.reservations.rows.filter doomed).length ≠ 0 := by
      simpa using hnone
    simp only [hsome, Bool.false_eq_true, if_false, hcount, false_or]
    by_cases htaken : admit_transaction
        (erasures (s.state.ledger.reservations.rows.filter doomed)) = .ok () ∧
      s.next_verdict.1 = none
    · rw [install_ledger_of_admitted htaken.1 htaken.2]
      refine iff_of_true ?_ ⟨(admit_erasures.mp htaken.1).2, htaken.2⟩
      intro r hr
      simpa using (Table.mem_filter.mp hr).2
    · rw [install_ledger_of_refused htaken]
      refine iff_of_false ?_ ?_
      · intro hall
        obtain ⟨r, hr⟩ := List.exists_mem_of_ne_nil _ hnone
        obtain ⟨hmem, hdoomed⟩ := List.mem_filter.mp hr
        rw [hall r hmem] at hdoomed
        cases hdoomed
      · rintro ⟨hfew, hverdict⟩
        exact htaken ⟨admit_erasures.mpr ⟨hnone, hfew⟩, hverdict⟩

/-- As long as no write fails, fencing and expiry are complete exactly when at most
    `kMaxRecordsPerTransaction` reservations are to go and the journal is not at its bound. -/
theorem removal_complete_iff (s : Store) (hwrites : s.next_verdict.1 ≠ some .io)
    (current : ControllerIncarnation) (now : Nanos) :
    ((∀ r ∈ (s.fence_authority current).state.ledger.reservations.rows,
        is_fenced_by r.owner current = false) ↔
      s.doomed_count (fun r => is_fenced_by r.owner current) = 0 ∨
        s.doomed_count (fun r => is_fenced_by r.owner current) ≤
          limits.kMaxRecordsPerTransaction ∧ s.next_verdict.1 ≠ some .full) ∧
    ((∀ r ∈ (s.expire_authority now).state.ledger.reservations.rows, r.live_at now = true) ↔
      s.doomed_count (fun r => !r.live_at now) = 0 ∨
        s.doomed_count (fun r => !r.live_at now) ≤ limits.kMaxRecordsPerTransaction ∧
          s.next_verdict.1 ≠ some .full) := by
  have hverdict : s.next_verdict.1 = none ↔ s.next_verdict.1 ≠ some .full := by
    generalize s.next_verdict.1 = verdict at hwrites ⊢
    cases verdict with
    | none => simp
    | some fault =>
      cases fault with
      | io => exact absurd rfl hwrites
      | full => simp
  rw [← hverdict]
  refine ⟨?_, ?_⟩
  · rw [fence_authority_eq]
    exact s.remove_complete_iff _
  · rw [expire_authority_eq, ← remove_complete_iff]
    simp only [Bool.not_eq_false']

end Store

/-! ### A crowded ledger -/

namespace Crowd

def first : ControllerIncarnation := { controller := ⟨1⟩, boot_epoch := ⟨1⟩, nonce := 1 }

def second : ControllerIncarnation := { controller := ⟨1⟩, boot_epoch := ⟨2⟩, nonce := 1 }

/-- What job `n` asks for. -/
def wish (n : Nat) : AuthorityReservation :=
  { job := ⟨n⟩, generation := ⟨1⟩
    attempt := { job := ⟨n⟩, generation := ⟨1⟩, ordinal := ⟨1⟩ }, owner := first
    targets := [{ kind := .Switch, index := n }], expires_at := 10 }

/-- A new store after `n` jobs have reserved, one after the other. -/
def crowd : Nat → Store
  | 0 => {}
  | n + 1 => ((crowd n).reserve_authority (wish (n + 1))).2

/-- The ledger of `crowd n`. -/
structure Crowded (n : Nat) (s : Store) : Prop where
  quiet : s.verdicts = []
  next : s.state.ledger.next_id = ⟨n + 1⟩
  size : s.state.ledger.reservations.size = n
  jobs : ∀ r ∈ s.state.ledger.reservations.rows, r.job.value ≤ n ∧ r.id.value ≤ n
  owned : ∀ r ∈ s.state.ledger.reservations.rows, r.owner = first ∧ r.expires_at = 10

theorem reserve_wish {n : Nat} {l : AuthorityLedger} (hsize : l.reservations.size = n)
    (hroom : n < limits.kMaxLiveReservations)
    (hjobs : ∀ r ∈ l.reservations.rows, r.job.value ≤ n) :
    l.reserve (wish (n + 1)) = .ok ({ wish (n + 1) with id := l.next_id, revision := ⟨1⟩ },
      ⟨l.reservations.put { wish (n + 1) with id := l.next_id, revision := ⟨1⟩ },
        l.next_id.next⟩) := by
  have hnone : l.find_for_job (wish (n + 1)).job (wish (n + 1)).generation = none := by
    apply List.find?_eq_none.mpr
    intro r hr
    have hle := hjobs r hr
    intro hsame
    obtain ⟨hjob, _⟩ := of_decide_eq_true hsame
    rw [hjob] at hle
    exact absurd hle (by simp [wish])
  have hcheck : l.check_reservation (wish (n + 1)) = .ok () := by
    simp only [AuthorityLedger.check_reservation, hnone, hsize, Result.bind_eq_ok,
      refuse_if_eq_ok]
    have hpos : ¬ n + 1 = 0 := by omega
    refine ⟨(), ?_, (), ?_, (), rfl, (), rfl, (), rfl, (), rfl, (), rfl, ?_⟩
    · simp [wish, StrongId.valid]
    · simp [wish, AttemptId.valid, StrongId.valid]
    · simpa using hroom
  rw [AuthorityLedger.reserve, hcheck]
  rfl

theorem admit_wish (n : Nat) (id : AuthorityId) (digest : UInt64) :
    admit_transaction [.reservation { wish n with id, revision := ⟨1⟩ } digest] = .ok () := by
  apply Store.admit_single
  simp [Entry.size, reservation_size, words_size, wish]

theorem crowded {n : Nat} (hn : n ≤ limits.kMaxLiveReservations) : Crowded n (crowd n) := by
  -- The induction is on the size; the next id is above every row, so each wish adds a row.
  induction n with
  | zero =>
    refine ⟨rfl, rfl, rfl, ?_, ?_⟩
    · intro r hr
      cases hr
    · intro r hr
      cases hr
  | succ n ih =>
    obtain ⟨hquiet, hnext, hsize, hjobs, howned⟩ := ih (by omega)
    have hverdict : (crowd n).next_verdict.1 = none := by
      unfold Store.next_verdict
      rw [hquiet]
    have hreserve := reserve_wish hsize (by omega) (fun r hr => (hjobs r hr).1)
    have hledger := Store.reserve_authority_of_admitted hreserve (admit_wish _ _ _) hverdict
    have hfresh : (crowd n).state.ledger.reservations.find (crowd n).state.ledger.next_id =
      none := by
      refine List.find?_eq_none.mpr ?_
      intro r hr hkey
      have hle := (hjobs r hr).2
      have hid : r.id = (crowd n).state.ledger.next_id := by simpa using hkey
      rw [hid, hnext] at hle
      exact absurd hle (by simp)
    have hrows : ∀ r ∈ (crowd (n + 1)).state.ledger.reservations.rows,
        r = { wish (n + 1) with id := ⟨n + 1⟩, revision := ⟨1⟩ } ∨
          r ∈ (crowd n).state.ledger.reservations.rows := by
      intro r hr
      rw [crowd, hledger, hnext] at hr
      rcases Table.mem_put.mp hr with hnew | ⟨hold, _⟩
      · exact .inl hnew
      · exact .inr hold
    refine ⟨Store.verdicts_reserve_authority hquiet _, ?_, ?_, ?_, ?_⟩
    · rw [crowd, hledger]
      simp only [hnext]
      rfl
    · rw [crowd, hledger]
      simp only
      rw [Table.size_put_of_find_none hfresh, hsize]
    · intro r hr
      rcases hrows r hr with rfl | hold
      · exact ⟨le_refl _, le_refl _⟩
      · have := hjobs r hold
        omega
    · intro r hr
      rcases hrows r hr with rfl | hold
      · exact ⟨rfl, rfl⟩
      · exact howned r hold

/-- Everybody in the crowd is doomed, whether by the next incarnation or by the time. -/
theorem doomed_count_crowd {n : Nat} (hn : n ≤ limits.kMaxLiveReservations)
    {doomed : AuthorityReservation → Bool}
    (h : ∀ r : AuthorityReservation, r.owner = first ∧ r.expires_at = 10 → doomed r = true) :
    (crowd n).doomed_count doomed = n := by
  have hcrowd := crowded hn
  unfold Store.doomed_count
  rw [List.filter_eq_self.mpr (fun r hr => h r (hcrowd.owned r hr))]
  exact hcrowd.size

theorem fenced_of_first (r : AuthorityReservation) (h : r.owner = first ∧ r.expires_at = 10) :
    is_fenced_by r.owner second = true := by
  rw [h.1]
  rfl

theorem expired_of_first (r : AuthorityReservation) (h : r.owner = first ∧ r.expires_at = 10) :
    (!r.live_at 10) = true := by
  simp [AuthorityReservation.live_at, h.2]

end Crowd

namespace Store

/-- Two reservations are fenced, and expire, together. -/
theorem small_crowd_removed :
    (∀ r ∈ ((Crowd.crowd 2).fence_authority Crowd.second).state.ledger.reservations.rows,
      is_fenced_by r.owner Crowd.second = false) ∧
    (∀ r ∈ ((Crowd.crowd 2).expire_authority 10).state.ledger.reservations.rows,
      r.live_at 10 = true) := by
  have hwrites : (Crowd.crowd 2).next_verdict.1 = none := rfl
  have hiff := removal_complete_iff (Crowd.crowd 2) (by rw [hwrites]; simp) Crowd.second 10
  rw [Crowd.doomed_count_crowd (by decide) Crowd.fenced_of_first,
    Crowd.doomed_count_crowd (by decide) Crowd.expired_of_first, hwrites] at hiff
  exact ⟨hiff.1.mpr (by decide), hiff.2.mpr (by decide)⟩

/-- One reservation more than a transaction carries, all writes succeeding: neither fencing nor
    expiry removes anything. -/
theorem large_crowd_stays : (Crowd.crowd 513).verdicts = [] ∧
    (∃ r ∈ ((Crowd.crowd 513).fence_authority Crowd.second).state.ledger.reservations.rows,
      is_fenced_by r.owner Crowd.second = true) ∧
    (∃ r ∈ ((Crowd.crowd 513).expire_authority 10).state.ledger.reservations.rows,
      r.live_at 10 = false) := by
  have hcrowd := @Crowd.crowded 513 (by decide)
  have hfence := (Crowd.crowd 513).remove_complete_iff (fun r => is_fenced_by r.owner Crowd.second)
  have hexpire := (Crowd.crowd 513).remove_complete_iff (fun r => !r.live_at 10)
  rw [Crowd.doomed_count_crowd (by decide) Crowd.fenced_of_first] at hfence
  rw [Crowd.doomed_count_crowd (by decide) Crowd.expired_of_first] at hexpire
  refine ⟨hcrowd.quiet, ?_, ?_⟩
  · rw [fence_authority_eq]
    by_contra hall
    refine absurd (hfence.mp ?_) (by simp [limits.kMaxRecordsPerTransaction])
    intro r hr
    by_contra hdoomed
    exact hall ⟨r, hr, by simpa using hdoomed⟩
  · rw [expire_authority_eq]
    by_contra hall
    refine absurd (hexpire.mp ?_) (by simp [limits.kMaxRecordsPerTransaction])
    intro r hr
    by_contra hdoomed
    exact hall ⟨r, hr, by simpa using hdoomed⟩

end Store

end MaintenanceFabric
