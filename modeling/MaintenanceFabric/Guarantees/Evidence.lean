import MaintenanceFabric.Domain.Evidence
import Mathlib.Data.List.Induction

/-! # The evidence store

    What holds of the store whatever is reported to it, and in which order.
    `observe` in the source works in place: it answers with a status and leaves
    the store as it has become.  `observe_in_place` follows it there, eviction
    loop and all; `observe`, on which the rest of the development builds, is the
    same function with the store of a refusal left out.
-/

namespace MaintenanceFabric

open Lib

namespace EvidenceStore

/-! ## In place -/

/-- The loop that makes room: the records it keeps, and whether it has erased one. -/
def evict_expired (s : EvidenceStore) (at_ : Nanos) : EvidenceStore × Bool :=
  ({ s with records := s.records.filter (fun r => !evictable at_ r) },
    s.records.rows.any (evictable at_))

/-- `observe` as a call on the store. -/
def observe_in_place (s : EvidenceStore) (record : EvidenceRecord) : Status × EvidenceStore :=
  if record.valid = false then
    (.error (invalid_argument (text "evidence record is not well formed")), s)
  else
    match s.find record.key with
    | some existing =>
        if record.revision ≤ existing.revision then
          (.error (make_error .StaleRevision (text "evidence revision " ++
            record.revision.to_string ++ text " does not advance the stored revision " ++
            existing.revision.to_string ++ text " for " ++ record.key.to_string)), s)
        else if record.observed_at < existing.observed_at then
          (.error (make_error .StaleEvidence
            (text "evidence observation time regressed for " ++ record.key.to_string)), s)
        else (ok_status, { s with records := s.records.put record })
    | none =>
        if s.records.size ≥ s.capacity then
          let (evicted, freed) := s.evict_expired record.observed_at
          if !freed then
            (.error (make_error .LimitExceeded
              (text "evidence store is full and holds no expired record to evict")), evicted)
          else (ok_status, { evicted with records := evicted.records.put record })
        else (ok_status, { s with records := s.records.put record })

theorem evict_nothing {s : EvidenceStore} {at_ : Nanos}
    (h : s.records.rows.any (evictable at_) = false) : (s.evict_expired at_).1 = s := by
  have hkept : s.records.filter (fun r => !evictable at_ r) = s.records := by
    apply Table.ext_find
    intro k
    rw [Table.find_filter]
    cases hfind : s.records.find k with
    | none => rfl
    | some r =>
      have hno := List.any_eq_false.mp h r (Table.mem_of_find hfind)
      simp [Option.filter, hno]
  unfold evict_expired
  rw [hkept]

/-- A refusal leaves the store alone, also the one that comes after the eviction loop. -/
theorem observe_in_place_eq (s : EvidenceStore) (record : EvidenceRecord) :
    s.observe_in_place record = match s.observe record with
      | .ok s' => (ok_status, s')
      | .error e => (.error e, s) := by
  unfold observe_in_place observe
  by_cases hvalid : record.valid = false
  · rw [if_pos hvalid, if_pos hvalid]
  · rw [if_neg hvalid, if_neg hvalid]
    cases hfind : s.find record.key with
    | some existing =>
      simp only
      split
      · rfl
      · split <;> rfl
    | none =>
      simp only
      by_cases hfull : s.records.size ≥ s.capacity
      · rw [if_pos hfull, if_pos hfull]
        cases hany : s.records.rows.any (evictable record.observed_at) with
        | true =>
          have hfreed : (s.evict_expired record.observed_at).2 = true := hany
          simp only [hfreed]
          rfl
        | false =>
          have hfreed : (s.evict_expired record.observed_at).2 = false := hany
          simp only [hfreed, evict_nothing hany]
          rfl
      · rw [if_neg hfull, if_neg hfull]

/-- The store after an accepted record. -/
theorem observe_in_place_ok {s : EvidenceStore} {r : EvidenceRecord}
    (h : Status.isOk (s.observe_in_place r).1 = true) :
    ∃ s', s.observe r = .ok s' ∧ (s.observe_in_place r).2 = s' := by
  rw [observe_in_place_eq] at h ⊢
  cases hobserve : s.observe r with
  | ok s' => exact ⟨s', rfl, rfl⟩
  | error e =>
    rw [hobserve] at h
    cases h

theorem observe_in_place_error {s : EvidenceStore} {r : EvidenceRecord}
    (h : Status.isOk (s.observe_in_place r).1 = false) : (s.observe_in_place r).2 = s := by
  rw [observe_in_place_eq] at h ⊢
  cases hobserve : s.observe r with
  | ok s' =>
    rw [hobserve] at h
    cases h
  | error e => rfl

/-! ## One record -/

/-- A record is replaced only by a later one. -/
theorem observe_ordered {s s' : EvidenceStore} {r old : EvidenceRecord} (h : s.observe r = .ok s')
    (hfind : s.find r.key = some old) :
    old.revision < r.revision ∧ old.observed_at ≤ r.observed_at := by
  unfold observe at h
  split at h
  · cases h
  · rw [hfind] at h
    simp only at h
    split at h
    · cases h
    · next hrevision =>
      split at h
      · cases h
      · next htime => exact ⟨not_le.mp hrevision, not_lt.mp htime⟩

/-- Room is made before a record comes in. -/
theorem observe_size {s s' : EvidenceStore} {r : EvidenceRecord} (h : s.observe r = .ok s')
    (hbound : s.records.size ≤ s.capacity) : s'.records.size ≤ s.capacity := by
  unfold observe at h
  split at h
  · cases h
  · split at h
    · next old hfind =>
      split at h
      · cases h
      · split at h
        · cases h
        · -- A replacement takes the place of the record under its key.
          cases h
          have hput := (s.records.put_perm r).length_eq
          have hrows := (Table.rows_perm (t := s.records) hfind).length_eq
          refine le_trans (le_of_eq ?_) hbound
          exact hput.trans hrows.symm
    · next hnone =>
      split at h
      · next hfull =>
        split at h
        · next hany =>
          cases h
          obtain ⟨x, hx, hevicted⟩ := List.any_eq_true.mp hany
          -- Something is evicted, which makes room for the newcomer.
          have hshrinks : (s.records.filter (fun r' => !evictable r.observed_at r')).size <
              s.records.size := by
            refine List.length_filter_lt_length_iff_exists.mpr ⟨x, hx, ?_⟩
            simp [hevicted]
          have hput := (s.records.filter (fun r' => !evictable r.observed_at r')).size_put_le r
          exact hput.trans (hshrinks.trans_le hbound)
        · cases h
      · next hroom =>
        cases h
        exact (s.records.size_put_le r).trans (not_le.mp hroom)

/-- A record of a known key is refused for what it says, never for lack of space. -/
theorem observe_known {s : EvidenceStore} {r : EvidenceRecord} {e : Error}
    (hknown : (s.find r.key).isSome = true) (h : s.observe r = .error e) :
    e.code ≠ .LimitExceeded := by
  obtain ⟨old, hfind⟩ := Option.isSome_iff_exists.mp hknown
  unfold observe at h
  split at h
  · cases h
    decide
  · rw [hfind] at h
    simp only at h
    split at h
    · cases h
      exact ErrorCode.noConfusion
    · split at h
      · cases h
        exact ErrorCode.noConfusion
      · cases h

/-! ## Any sequence of records -/

/-- The store after a sequence of reports, each accepted or refused. -/
def observe_all (s : EvidenceStore) (records : List EvidenceRecord) : EvidenceStore :=
  records.foldl (fun s r => (s.observe_in_place r).2) s

/-- The store as it is constructed. -/
def constructed (capacity : Nat) : EvidenceStore := { capacity := bound capacity }

/-- What every report preserves. -/
structure Kept (s : EvidenceStore) : Prop where
  size : s.records.size ≤ s.capacity
  records : ∀ key r, s.find key = some r → r.valid = true ∧ r.key = key

theorem kept_constructed (capacity : Nat) : (constructed capacity).Kept :=
  ⟨Nat.zero_le _, fun _ _ h => by cases h⟩

theorem Kept.observe {s : EvidenceStore} (h : s.Kept) (r : EvidenceRecord) :
    (s.observe_in_place r).2.Kept ∧ (s.observe_in_place r).2.capacity = s.capacity := by
  cases haccepted : Status.isOk (s.observe_in_place r).1 with
  | false =>
    rw [observe_in_place_error haccepted]
    exact ⟨h, rfl⟩
  | true =>
    obtain ⟨s', hobserve, hstore⟩ := observe_in_place_ok haccepted
    obtain ⟨hvalid, _, hcapacity, _, hcases⟩ := observe_ok hobserve
    rw [hstore]
    refine ⟨⟨(observe_size hobserve h.size).trans hcapacity.ge, ?_⟩, hcapacity⟩
    intro key x hx
    rcases hcases key x hx with ⟨hkey, hsame⟩ | ⟨_, hbefore⟩
    · rw [hsame]
      exact ⟨hvalid, hkey.symm⟩
    · exact h.records key x hbefore

theorem kept_run (capacity : Nat) (records : List EvidenceRecord) :
    ((constructed capacity).observe_all records).Kept ∧
      ((constructed capacity).observe_all records).capacity = bound capacity := by
  induction records using List.reverseRecOn with
  | nil => exact ⟨kept_constructed capacity, rfl⟩
  | append_singleton records r ih =>
    obtain ⟨hkept, hcapacity⟩ := ih
    unfold observe_all
    rw [List.foldl_concat]
    exact ⟨(hkept.observe r).1, (hkept.observe r).2.trans hcapacity⟩

/-- The record that is under the key later is the same one, or came after it. -/
def Supersedes (old new : EvidenceRecord) : Prop :=
  new = old ∨ old.revision < new.revision ∧ old.observed_at ≤ new.observed_at

theorem Supersedes.trans {a b c : EvidenceRecord} (h : Supersedes a b) (h' : Supersedes b c) :
    Supersedes a c := by
  rcases h with rfl | ⟨hrevision, htime⟩
  · exact h'
  · rcases h' with rfl | ⟨hrevision', htime'⟩
    · exact .inr ⟨hrevision, htime⟩
    · exact .inr ⟨hrevision.trans hrevision', htime.trans htime'⟩

/-- One report: a key that stays in the store stays with its record or gets a later one. -/
theorem supersedes_step {s : EvidenceStore} (r : EvidenceRecord) {key : EvidenceKey}
    {old new : EvidenceRecord} (hold : s.find key = some old)
    (hnew : (s.observe_in_place r).2.find key = some new) : Supersedes old new := by
  cases haccepted : Status.isOk (s.observe_in_place r).1 with
  | false =>
    rw [observe_in_place_error haccepted, hold] at hnew
    exact .inl (Option.some.inj hnew).symm
  | true =>
    obtain ⟨s', hobserve, hstore⟩ := observe_in_place_ok haccepted
    rw [hstore] at hnew
    obtain ⟨_, _, _, _, hcases⟩ := observe_ok hobserve
    rcases hcases key new hnew with ⟨hkey, hsame⟩ | ⟨_, hbefore⟩
    · rw [hsame]
      exact .inr (observe_ordered hobserve (hkey ▸ hold))
    · rw [hold] at hbefore
      exact .inl (Option.some.inj hbefore).symm

/-- As long as a key stays in the store, every record under it supersedes the earlier ones. -/
theorem supersedes_run {key : EvidenceKey} : ∀ (records : List EvidenceRecord) (s : EvidenceStore)
    {old new : EvidenceRecord},
    (∀ mid, mid <+: records → ((s.observe_all mid).find key).isSome = true) →
    s.find key = some old → (s.observe_all records).find key = some new → Supersedes old new
  | [], _, _, _, _, hold, hnew => .inl (Option.some.inj (hold.symm.trans hnew)).symm
  | r :: records, s, old, new, hstays, hold, hnew => by
      obtain ⟨next, hnext⟩ := Option.isSome_iff_exists.mp
        (hstays [r] (by simp))
      refine (supersedes_step r hold hnext).trans
        (supersedes_run records _ (fun mid hmid => ?_) hnext hnew)
      exact hstays (r :: mid) (List.cons_prefix_cons.mpr ⟨rfl, hmid⟩)

/-- Whatever has been reported to a store of any capacity, and whatever is reported next. -/
theorem evidence_store_invariants (capacity : Nat) (records : List EvidenceRecord) :
    let s := (constructed capacity).observe_all records
    s.records.size ≤ bound capacity ∧
    (∀ key r, s.find key = some r → r.valid = true ∧ r.key = key) ∧
    (∀ more key old new,
      (∀ mid, mid <+: more → ((s.observe_all mid).find key).isSome = true) →
      s.find key = some old → (s.observe_all more).find key = some new → Supersedes old new) ∧
    ∀ r, (Status.isOk (s.observe_in_place r).1 = false → (s.observe_in_place r).2 = s) ∧
      ((s.find r.key).isSome = true → ∀ e, (s.observe_in_place r).1 = .error e →
        e.code ≠ .LimitExceeded) := by
  intro s
  obtain ⟨hkept, hcapacity⟩ := kept_run capacity records
  refine ⟨hcapacity ▸ hkept.size, hkept.records, ?_, ?_⟩
  · intro more key old new
    exact supersedes_run more s
  · intro r
    refine ⟨observe_in_place_error, ?_⟩
    intro hknown e herror
    rw [observe_in_place_eq] at herror
    cases hobserve : s.observe r with
    | ok s' =>
      rw [hobserve] at herror
      cases herror
    | error e' =>
      rw [hobserve] at herror
      cases herror
      exact observe_known hknown hobserve

/-! ## Eviction -/

/-- An accepted record leaves every record of another key that is fresh now where it is. -/
def Spares (s : EvidenceStore) (r : EvidenceRecord) (now : Nanos) : Prop :=
  ∀ key x, key ≠ r.key → s.find key = some x →
    (∃ current, (s.evaluate { key, current, now }).fresh = true) →
    (s.observe_in_place r).2.find key = some x

/-- The record needs no room, or no record runs out between now and the instant it bears, both
    included; records dated further ahead than clocks may differ are not counted. -/
def Roomy (s : EvidenceStore) (r : EvidenceRecord) (now : Nanos) : Prop :=
  (s.find r.key).isSome = true ∨ s.records.size < s.capacity ∨
    ∀ x ∈ s.records.rows, x.observed_at - now ≤ limits.kMaxClockSkewNanos →
      ¬ (now ≤ x.observed_at + x.ttl ∧ x.observed_at + x.ttl ≤ r.observed_at)

instance (s : EvidenceStore) (r : EvidenceRecord) (now : Nanos) : Decidable (s.Roomy r now) :=
  inferInstanceAs (Decidable (_ ∨ _ ∨ ∀ x ∈ s.records.rows, _))

/-- Some incarnation, that of the observer for one, may use the record now. -/
theorem usable_iff {s : EvidenceStore} {key : EvidenceKey} {x : EvidenceRecord} {now : Nanos}
    (hfind : s.find key = some x) :
    (∃ current, (s.evaluate { key, current, now }).fresh = true) ↔
      x.observed_at - now ≤ limits.kMaxClockSkewNanos ∧ now ≤ x.observed_at + x.ttl := by
  have hfresh : ∀ current, (s.evaluate { key, current, now }).fresh = true ↔
      ¬ x.observed_at - now > limits.kMaxClockSkewNanos ∧
        ¬ (x.klass = .Volatile ∧ is_fenced_by x.observed_by current = true) ∧
        ¬ now > x.observed_at + x.ttl := by
    intro current
    unfold evaluate
    simp only [hfind]
    unfold judge Freshness.fresh
    simp only [show (⟨0⟩ : JobId).valid = false from rfl,
      show ({} : AttemptId).valid = false from rfl, Bool.false_and, Bool.false_eq_true, if_false]
    split
    · next h => simp [h]
    · next hskew =>
      split
      · next h => simp [h]
      · next hfenced =>
        split
        · next h => simp [h]
        · next hlife => simp [hskew, hfenced, hlife]
  constructor
  · rintro ⟨current, h⟩
    obtain ⟨hskew, _, hlife⟩ := (hfresh current).mp h
    exact ⟨not_lt.mp hskew, not_lt.mp hlife⟩
  · rintro ⟨hskew, hlife⟩
    refine ⟨x.observed_by, (hfresh _).mpr ⟨not_lt.mpr hskew, ?_, not_lt.mpr hlife⟩⟩
    rintro ⟨_, hfenced⟩
    rw [is_fenced_by_self] at hfenced
    cases hfenced

/-- When a full store takes a new key, exactly the evictable records go. -/
theorem observe_evicts {s s' : EvidenceStore} {r : EvidenceRecord} (h : s.observe r = .ok s')
    (hnew : s.find r.key = none) (hfull : ¬ s.records.size < s.capacity) {key : EvidenceKey}
    (hkey : key ≠ r.key) :
    s'.find key = (s.find key).filter (fun x => !evictable r.observed_at x) := by
  unfold observe at h
  split at h
  · cases h
  · rw [hnew] at h
    simp only at h
    rw [if_pos (not_lt.mp hfull)] at h
    split at h
    · cases h
      unfold find
      simp only
      rw [Table.find_put_of_ne _ (Ne.symm hkey), Table.find_filter]
    · cases h

/-- An accepted record spares what is usable now exactly when it is roomy. -/
theorem eviction_spares_usable_iff (s : EvidenceStore) (r : EvidenceRecord) (now : Nanos)
    (haccepted : Status.isOk (s.observe_in_place r).1 = true) : s.Spares r now ↔ s.Roomy r now := by
  obtain ⟨s', hobserve, hstore⟩ := observe_in_place_ok haccepted
  unfold Spares
  rw [hstore]
  constructor
  -- A full store that is not roomy holds a usable record which the newcomer expires.
  · intro hspares
    by_cases hknown : (s.find r.key).isSome = true
    · exact .inl hknown
    · by_cases hroom : s.records.size < s.capacity
      · exact .inr (.inl hroom)
      · refine .inr (.inr ?_)
        intro x hx hskew ⟨hlasts, hexpired⟩
        have hnew : s.find r.key = none := by simpa using hknown
        have hfind : s.find x.key = some x := Table.find_iff_mem.mpr hx
        have hkey : x.key ≠ r.key := by
          intro hsame
          rw [hsame, hnew] at hfind
          cases hfind
        have hstays := hspares x.key x hkey hfind ((usable_iff hfind).mpr ⟨hskew, hlasts⟩)
        rw [observe_evicts hobserve hnew hroom hkey, hfind] at hstays
        simp [Option.filter, evictable, hexpired] at hstays
  · intro hroomy key x hkey hfind husable
    obtain ⟨hskew, hlasts⟩ := (usable_iff hfind).mp husable
    by_cases hnew : s.find r.key = none
    · by_cases hroom : s.records.size < s.capacity
      · -- There is room, so nothing is evicted.
        unfold observe at hobserve
        rw [hnew] at hobserve
        simp only at hobserve
        split at hobserve
        · cases hobserve
        · rw [if_neg (not_le.mpr hroom)] at hobserve
          cases hobserve
          exact (Table.find_put_of_ne s.records (Ne.symm hkey)).trans hfind
      · rcases hroomy with hknown | hroom' | hnone
        · rw [hnew] at hknown
          cases hknown
        · exact absurd hroom' hroom
        · have hno := hnone x (Table.mem_of_find hfind) hskew
          have hlater : ¬ x.observed_at + x.ttl ≤ r.observed_at := fun h => hno ⟨hlasts, h⟩
          rw [observe_evicts hobserve hnew hroom hkey, hfind]
          simp [Option.filter, evictable, hlater]
    · -- A known key takes the place of its own record only.
      obtain ⟨old, hold⟩ := Option.ne_none_iff_exists'.mp hnew
      unfold observe at hobserve
      rw [hold] at hobserve
      simp only at hobserve
      split at hobserve
      · cases hobserve
      · split at hobserve
        · cases hobserve
        · split at hobserve
          · cases hobserve
          · cases hobserve
            exact (Table.find_put_of_ne s.records (Ne.symm hkey)).trans hfind

/-! ### A store for one record -/

/-- A health record that lives for thirty seconds. -/
def beat (index : Nat) (observed_at : Nanos) : EvidenceRecord :=
  { id := ⟨1⟩, revision := ⟨1⟩, observed_at, ttl := 30 * kNanosPerSecond
    key := { subject := EvidenceSubject.of { kind := .Switch, index }, source := ⟨1⟩ }
    observed_by := { controller := ⟨1⟩, boot_epoch := ⟨1⟩, nonce := 1 } }

/-- The health of switch 1 at the epoch, and no room for more. -/
def single : EvidenceStore := (constructed 1).observe_all [beat 1 0]

/-- A minute later switch 2 takes the room, and nothing usable is lost. -/
theorem expired_beat_evicted :
    Status.isOk (single.observe_in_place (beat 2 (60 * kNanosPerSecond))).1 = true ∧
      single.Spares (beat 2 (60 * kNanosPerSecond)) (60 * kNanosPerSecond) :=
  ⟨by decide +kernel,
    (eviction_spares_usable_iff single _ _ (by decide +kernel)).mpr (by decide +kernel)⟩

/-- A report dated a minute ahead evicts a record that is one second old. -/
theorem fresh_beat_evicted :
    Status.isOk (single.observe_in_place (beat 2 (60 * kNanosPerSecond))).1 = true ∧
      ¬ single.Spares (beat 2 (60 * kNanosPerSecond)) kNanosPerSecond := by
  refine ⟨by decide +kernel, ?_⟩
  intro hspares
  have hkept := hspares (beat 1 0).key (beat 1 0) (by decide) (by decide +kernel)
    ⟨(beat 1 0).observed_by, by decide +kernel⟩
  revert hkept
  decide +kernel

end EvidenceStore

end MaintenanceFabric
