import MaintenanceFabric.Guarantees.Restoration
import MaintenanceFabric.Guarantees.Revisions

/-! # Verdicts on record

    Before a job completes, the controller writes one positive restoration
    check per target.  Whether the evidence store takes them is not asked.  It
    takes all of them when nothing newer is stored under their keys, the store
    has room for them, and the journal accepts.
-/

namespace MaintenanceFabric

open Lib

/-! ## Room for a set of keys -/

namespace EvidenceStore

/-- The records that neither make way at `now` nor are under one of the keys. -/
def crowd (s : EvidenceStore) (keys : List EvidenceKey) (now : Nanos) : List EvidenceRecord :=
  s.records.rows.filter (fun r => !evictable now r && decide (r.key ∉ keys))

/-- The store can hold a record under every key beside those that do not make way. -/
def Room (s : EvidenceStore) (keys : List EvidenceKey) (now : Nanos) : Prop :=
  (s.crowd keys now).length + keys.length ≤ s.capacity

instance (s : EvidenceStore) (keys : List EvidenceKey) (now : Nanos) :
    Decidable (s.Room keys now) :=
  inferInstanceAs (Decidable (_ ≤ _))

variable {s s' : EvidenceStore} {keys : List EvidenceKey} {now : Nanos} {r : EvidenceRecord}

/-- With room, a store that has nothing under one of the keys and nothing to evict is not full. -/
theorem Room.not_full (h : s.Room keys now) {key : EvidenceKey} (hkey : key ∈ keys)
    (hnone : s.find key = none) (hlast : s.records.rows.any (evictable now) = false) :
    s.records.size < s.capacity := by
  -- The rows are those of the crowd and at most one for each of the other keys.
  have hothers : (s.records.rows.filter (fun r => decide (r.key ∈ keys))).length ≤
      (keys.erase key).length := by
    have hnodup : ((s.records.rows.filter (fun r => decide (r.key ∈ keys))).map
        EvidenceRecord.key).Nodup :=
      s.records.nodup_keys.sublist (List.filter_sublist.map _)
    have hsub : (s.records.rows.filter (fun r => decide (r.key ∈ keys))).map EvidenceRecord.key ⊆
        keys.erase key := by
      intro k hk
      obtain ⟨x, hx, rfl⟩ := List.mem_map.mp hk
      obtain ⟨hx, hmem⟩ := List.mem_filter.mp hx
      refine (List.mem_erase_of_ne ?_).mpr (of_decide_eq_true hmem)
      intro heq
      have hfind : s.find x.key = some x := Table.find_iff_mem.mpr hx
      rw [heq, hnone] at hfind
      cases hfind
    have hle := (List.subperm_of_subset hnodup hsub).length_le
    rw [List.length_map] at hle
    exact hle
  have hcrowd : s.crowd keys now = s.records.rows.filter (fun r => !decide (r.key ∈ keys)) := by
    apply List.filter_congr
    intro x hx
    have hx := List.any_eq_false.mp hlast x hx
    simp [hx]
  have hsplit := List.length_eq_length_filter_add (l := s.records.rows)
    (fun r => decide (r.key ∈ keys))
  have herase := List.length_erase_of_mem hkey
  have hpos := List.length_pos_of_mem hkey
  unfold Room at h
  rw [hcrowd] at h
  unfold Table.size
  omega

/-- Records under the keys do not crowd the store. -/
theorem Room.observe (h : s.Room keys now) (hkey : r.key ∈ keys) (hok : s.observe r = .ok s') :
    s'.Room keys now := by
  obtain ⟨_, _, hcapacity, _, horigin⟩ := observe_ok hok
  have hsub : s'.crowd keys now ⊆ s.crowd keys now := by
    intro x hx
    obtain ⟨hx, hstays⟩ := List.mem_filter.mp hx
    refine List.mem_filter.mpr ⟨?_, hstays⟩
    rcases horigin x.key x (Table.find_iff_mem.mpr hx) with ⟨_, rfl⟩ | ⟨_, hold⟩
    · simp [hkey] at hstays
    · exact Table.mem_of_find hold
  have hle := (List.subperm_of_subset (s'.records.nodup_rows.filter _) hsub).length_le
  unfold Room at h ⊢
  rw [hcapacity]
  exact le_trans (Nat.add_le_add_right hle _) h

end EvidenceStore

/-! ## Writing the verdicts -/

namespace Controller

def verdict_key (t : TargetId) : EvidenceKey :=
  { kind := .RestorationCheck, subject := EvidenceSubject.of t, source := ⟨1⟩ }

/-- Everything the controller may write under these keys at `now` will be taken. -/
structure Unhindered (c : Controller) (keys : List EvidenceKey) (now : Nanos) : Prop where
  calm : c.Calm
  incarnation : c.incarnation.valid = true
  older : ∀ key ∈ keys, ∀ old, c.store.state.evidence.find key = some old →
    old.revision ≤ ⟨c.evidence_revision⟩ ∧ old.observed_at ≤ now
  room : c.store.state.evidence.Room keys now

theorem allocate_evidence_id_valid (s : Store) : s.allocate_evidence_id.1.valid = true := by
  refine StrongId.valid_iff.mpr ?_
  simp only [Store.allocate_evidence_id]
  intro hzero
  have hepoch := (Nat.or_eq_zero_iff.mp hzero).1
  rw [Nat.shiftLeft_eq] at hepoch
  have hnone : (if s.state.last_incarnation.boot_epoch.valid
      then s.state.last_incarnation.boot_epoch.value else 1) = 0 := by
    omega
  split at hnone
  · next hvalid => exact StrongId.valid_iff.mp hvalid hnone
  · cases hnone

/-- The record made for a target is well formed, and does not make way at the instant it is made. -/
theorem make_evidence_valid {c : Controller} (h : c.incarnation.valid = true) (kind : EvidenceKind)
    (t : TargetId) (now ttl : Nanos) (payload : EvidencePayload) (job : JobId)
    (attempt : AttemptId) :
    (c.make_evidence_locked kind (EvidenceSubject.of t) ⟨1⟩ now ttl payload job attempt).1.valid =
      true ∧
    EvidenceStore.evictable now
      (c.make_evidence_locked kind (EvidenceSubject.of t) ⟨1⟩ now ttl payload job attempt).1 =
      false := by
  have hid := allocate_evidence_id_valid c.store
  have hlife : ∀ asked : Nanos, 0 < (if asked ≤ 0 ∨ asked > limits.kMaxEvidenceTtlNanos
        then limits.kDefaultEvidenceTtlNanos else asked) ∧
      (if asked ≤ 0 ∨ asked > limits.kMaxEvidenceTtlNanos
        then limits.kDefaultEvidenceTtlNanos else asked) ≤ limits.kMaxEvidenceTtlNanos := by
    intro asked
    split
    · decide
    · next hno =>
      obtain ⟨h₁, h₂⟩ := not_or.mp hno
      exact ⟨not_le.mp h₁, not_lt.mp h₂⟩
  obtain ⟨hpos, hmax⟩ := hlife (if ttl > 0 then ttl else c.policy.ttl_for kind)
  have hrevision : (⟨c.evidence_revision + 1⟩ : Revision).valid = true :=
    StrongId.valid_iff.mpr (Nat.succ_ne_zero _)
  refine ⟨?_, ?_⟩
  · simp only [EvidenceRecord.valid, make_evidence_locked, hid, h, hrevision, Bool.true_and,
      Bool.and_true, Bool.and_eq_true]
    exact ⟨⟨⟨rfl, rfl⟩, decide_eq_true hpos⟩, decide_eq_true hmax⟩
  · exact decide_eq_false (not_le.mpr (Int.lt_add_of_pos_right now hpos))

/-- A positive check of the job's own attempt that will not make way at `now`. -/
def OnRecord (c : Controller) (now : Nanos) (job : JobId) (attempt : AttemptId) (t : TargetId) :
    Prop :=
  ∃ r, c.store.state.evidence.find (verdict_key t) = some r ∧
    r.payload.result = true ∧ r.job = job ∧
    r.attempt = attempt ∧ EvidenceStore.evictable now r = false

/-- An unhindered write is taken, hinders none of the following, and spares the earlier ones. -/
theorem Unhindered.author {c : Controller} {keys : List EvidenceKey} {now : Nanos}
    (h : c.Unhindered keys now) {t : TargetId} (ht : verdict_key t ∈ keys)
    (payload : EvidencePayload)
    (hresult : payload.result = true) (job : JobId) (attempt : AttemptId) {c' : Controller}
    (hc' : c' = (c.author_evidence .RestorationCheck t ⟨1⟩ now payload job attempt).2) :
    c'.Unhindered keys now ∧ c'.OnRecord now job attempt t ∧
      ∀ u, c.OnRecord now job attempt u → c'.OnRecord now job attempt u := by
  obtain ⟨hvalid, hlasts⟩ := make_evidence_valid h.incarnation .RestorationCheck t now
    (c.policy.ttl_for .RestorationCheck) payload job attempt
  unfold author_evidence at hc'
  simp only at hc'
  have hstate : (c.make_evidence_locked .RestorationCheck (EvidenceSubject.of t) ⟨1⟩ now
      (c.policy.ttl_for .RestorationCheck) payload job attempt).2.store.state = c.store.state := rfl
  have hcalm : (c.make_evidence_locked .RestorationCheck (EvidenceSubject.of t) ⟨1⟩ now
      (c.policy.ttl_for .RestorationCheck) payload job attempt).2.store.verdicts = [] := h.calm
  have hinc : (c.make_evidence_locked .RestorationCheck (EvidenceSubject.of t) ⟨1⟩ now
      (c.policy.ttl_for .RestorationCheck) payload job attempt).2.incarnation = c.incarnation := rfl
  have hcount : (c.make_evidence_locked .RestorationCheck (EvidenceSubject.of t) ⟨1⟩ now
      (c.policy.ttl_for .RestorationCheck) payload job attempt).2.evidence_revision =
      c.evidence_revision + 1 := rfl
  obtain ⟨r, hr⟩ : ∃ r, r = (c.make_evidence_locked .RestorationCheck (EvidenceSubject.of t) ⟨1⟩ now
      (c.policy.ttl_for .RestorationCheck) payload job attempt).1 := ⟨_, rfl⟩
  have hkey : r.key = verdict_key t := by rw [hr]; rfl
  have hrevision : r.revision = ⟨c.evidence_revision + 1⟩ := by rw [hr]; rfl
  have hobserved : r.observed_at = now := by rw [hr]; rfl
  have hfields : r.payload = payload ∧ r.job = job ∧ r.attempt = attempt := by
    rw [hr]
    exact ⟨rfl, rfl, rfl⟩
  rw [← hr] at hvalid hlasts hc'
  generalize (c.make_evidence_locked .RestorationCheck (EvidenceSubject.of t) ⟨1⟩ now
    (c.policy.ttl_for .RestorationCheck) payload job attempt).2 = m at hc' hstate hcalm hinc hcount
  -- The store takes the record.
  obtain ⟨staging, hok⟩ : ∃ staging, c.store.state.evidence.observe r = .ok staging := by
    refine EvidenceStore.observe_accepts hvalid ?_ ?_
    · intro old hold
      rw [hkey] at hold
      obtain ⟨hle, htime⟩ := h.older _ ht old hold
      rw [hrevision, hobserved]
      exact ⟨lt_of_le_of_lt hle (StrongId.lt_iff.mpr (Nat.lt_succ_self _)), htime⟩
    · intro hnone
      rw [hkey] at hnone
      rw [hobserved]
      by_cases hany : c.store.state.evidence.records.rows.any (EvidenceStore.evictable now) = true
      · exact .inr hany
      · exact .inl (h.room.not_full ht hnone (Bool.eq_false_iff.mpr hany))
  have hwritten := Store.observe_evidence_ok (s := m.store) hcalm (hstate ▸ hok)
  have hevidence : c'.store.state.evidence = staging := by
    rw [hc']
    exact congrArg PersistedState.evidence hwritten
  obtain ⟨_, hself, _, _, horigin⟩ := EvidenceStore.observe_ok hok
  rw [hkey] at hself
  refine ⟨⟨?_, ?_, ?_, ?_⟩, ?_, ?_⟩
  · rw [hc']
    exact Store.verdicts_observe_evidence hcalm r
  · rw [hc']
    exact hinc ▸ h.incarnation
  · have hcounter : c'.evidence_revision = c.evidence_revision + 1 := by
      rw [hc']
      exact hcount
    rw [hevidence, hcounter]
    intro key hmem old hold
    rcases horigin key old hold with ⟨_, rfl⟩ | ⟨_, hold⟩
    · exact ⟨le_of_eq hrevision, le_of_eq hobserved⟩
    · obtain ⟨hle, htime⟩ := h.older key hmem old hold
      exact ⟨hle.trans (StrongId.le_iff.mpr (Nat.le_succ _)), htime⟩
  · rw [hevidence]
    exact h.room.observe (hkey ▸ ht) hok
  · refine ⟨r, hevidence ▸ hself, ?_, hfields.2.1, hfields.2.2, hlasts⟩
    rw [hfields.1]
    exact hresult
  · intro u hu
    obtain ⟨x, hx, hxresult, hxjob, hxattempt, hxlasts⟩ := hu
    by_cases hsame : verdict_key u = r.key
    · refine ⟨r, ?_, ?_, hfields.2.1, hfields.2.2, hlasts⟩
      · rw [hevidence, hsame, hkey]
        exact hself
      · rw [hfields.1]
        exact hresult
    · refine ⟨x, ?_, hxresult, hxjob, hxattempt, hxlasts⟩
      rw [hevidence]
      exact EvidenceStore.observe_keeps hok hsame hx (hobserved ▸ hxlasts)

/-- The loop that writes the verdicts leaves one for every target. -/
theorem Unhindered.record {keys : List EvidenceKey} {now : Nanos}
    (job : JobId) (attempt : AttemptId)
    (payload : TargetId → EvidencePayload) (hresult : ∀ t, (payload t).result = true)
    (targets : List TargetId) (ht : ∀ t ∈ targets, verdict_key t ∈ keys) {c : Controller}
    (h : c.Unhindered keys now) :
    let c' := targets.foldl (fun c t =>
      (c.author_evidence .RestorationCheck t ⟨1⟩ now (payload t) job attempt).2) c
    (∀ t ∈ targets, c'.OnRecord now job attempt t) ∧
      ∀ u, c.OnRecord now job attempt u → c'.OnRecord now job attempt u := by
  induction targets generalizing c with
  | nil => exact ⟨by simp, fun _ hu => hu⟩
  | cons t rest ih =>
    obtain ⟨hnext, hnew, hkept⟩ := h.author (ht t List.mem_cons_self) (payload t) (hresult t) job
      attempt rfl
    obtain ⟨hrest, hlater⟩ := ih (fun u hu => ht u (List.mem_cons_of_mem _ hu)) hnext
    refine ⟨?_, fun u hu => hlater u (hkept u hu)⟩
    intro u hu
    rcases List.mem_cons.mp hu with rfl | hu
    · exact hlater _ hnew
    · exact hrest u hu

end Controller

namespace System

variable {s : System} {e : Event}

/-- A process that is up has an incarnation. -/
theorem incarnation_run (events : List Event) (hup : (initial.run events).up = true) :
    (initial.run events).ctl.incarnation.valid = true := by
  induction events using List.reverseRecOn with
  | nil => cases hup
  | append_singleton events e ih =>
    rw [run_snoc] at hup ⊢
    have hs := sound_run events
    generalize initial.run events = s at *
    cases hrestart : e.restarts with
    | true =>
      obtain ⟨options, clock, steady, label⟩ := restarts_spec hrestart
      have hstep : s.step e = restart { s with ctl := under s.ctl e.verdicts }
        options clock steady := by
        unfold step
        simp only [label]
      rw [hstep] at hup ⊢
      exact Controller.valid_open (c := under s.ctl e.verdicts) hup
    | false =>
      rw [step_up hrestart] at hup
      have hkept := (changes_step hs e).incarnation_eq (by
        intro hr
        rw [license_restarts hr] at hrestart
        cases hrestart)
      rw [show (s.step e).ctl.incarnation = s.ctl.incarnation from hkept]
      exact ih hup

/-- Where a restoring job is driven, its verdicts are admitted: nothing newer is stored under their
    keys, neither by revision nor by time, there is room for them, and the journal accepts. -/
def VerdictsAdmitted (s : System) (e : Event) : Prop :=
  ∀ d ∈ s.driving e, d.2.state = .Restoring →
    e.verdicts = [] ∧
    (∀ t ∈ d.2.removal_set, ∀ old ∈ s.ctl.store.state.evidence.find (Controller.verdict_key t),
      old.revision ≤ ⟨s.ctl.evidence_revision⟩ ∧ old.observed_at ≤ d.1.now) ∧
    s.ctl.store.state.evidence.Room (d.2.removal_set.map Controller.verdict_key) d.1.now

instance (s : System) (e : Event) : Decidable (VerdictsAdmitted s e) :=
  inferInstanceAs (Decidable (∀ d ∈ s.driving e, _))

/-- Where its verdicts are admitted, a job that completes has a positive restoration check on
    record for every target of its scope, under the attempt it was verified with. -/
theorem verdict_on_record (events : List Event) (e : Event) (id : JobId) (j' : MaintenanceJob)
    (hcond : VerdictsAdmitted (initial.run events) e)
    (hj' : (initial.run (events ++ [e])).job id = some j') (hafter : j'.state = .Complete)
    (hbefore : ∀ j, (initial.run events).job id = some j → j.state ≠ .Complete) :
    ∃ p j, (initial.run events).driving e = some (p, j) ∧ (initial.run events).job id = some j ∧
      Verified events id j ∧ j'.removal_set = j.removal_set ∧
      ∀ t ∈ j.removal_set, ∃ r,
        (initial.run (events ++ [e])).ctl.store.state.evidence.find
          (Controller.verdict_key t) = some r ∧
        r.payload.result = true ∧ r.job = id ∧ r.attempt = j.active_attempt := by
  have hs := sound_run events
  have hup := incarnation_run events
  have hverified := verified_run events id
  rw [run_snoc] at hj' ⊢
  generalize hrun : initial.run events = s at *
  obtain ⟨p, j, hj, hdriving, hstate, up, hcompleted⟩ := hs.completion_entered hj' hafter hbefore
  obtain ⟨hcalm, holder, hroom⟩ := hcond (p, j) hdriving hstate
  refine ⟨p, j, hdriving, hj, hverified j hj hstate, hcompleted.scope, ?_⟩
  have hunhindered : (under s.ctl e.verdicts).Unhindered
      (j.removal_set.map Controller.verdict_key) p.now := by
    refine ⟨hcalm, hup up, ?_, hroom⟩
    intro key hkey old hold
    obtain ⟨t, ht, rfl⟩ := List.mem_map.mp hkey
    exact holder t ht old hold
  have hrecorded := (hunhindered.record j.id j.active_attempt
    (fun t => { result := true, health := (p.context s.ctl).readiness.health_of t })
    (fun _ => rfl) j.removal_set (fun t ht => List.mem_map_of_mem ht)).1
  intro t ht
  obtain ⟨r, hfind, hresult, hjob, hattempt, _⟩ := hrecorded t ht
  refine ⟨r, ?_, hresult, hjob.trans (Table.key_of_find hj), hattempt⟩
  rw [show (s.step e).ctl.store.state.evidence = _ from hcompleted.evidence]
  exact hfind

end System

namespace Drill

/-- Job 2, which a restart separates from job 1, is reported done by another source and verified. -/
def unrecorded : List Event :=
  successor ++
    [call (.observe { key := { kind := .MaintenanceCompletion, subject := EvidenceSubject.of switch
                               source := ⟨2⟩ }
                      revision := ⟨1⟩, observed_at := ms 850, job := ⟨2⟩, attempt := first 2
                      payload := { result := true, health := .Degraded } })] ++
    tick (ms 900) 1 ++ tick (ms 1000) 1 ++ [call (.tick 0 (ms 1100)), call (.begin_pass 0)]

end Drill

namespace System

/-- Job 1 of the undisturbed drill completes with its verdict on record. -/
theorem verdict_on_record_drill :
    ∃ j, (initial.run Drill.returning).job ⟨1⟩ = some j ∧ ∀ t ∈ j.removal_set, ∃ r,
      (initial.run (Drill.returning ++ [Drill.call .pass_step])).ctl.store.state.evidence.find
        (Controller.verdict_key t) = some r ∧
      r.payload.result = true ∧ r.job = ⟨1⟩ ∧ r.attempt = j.active_attempt := by
  obtain ⟨j', hj', hafter⟩ := job_of_field
    (initial.run (Drill.returning ++ [Drill.call .pass_step])) ⟨1⟩ MaintenanceJob.state
    (a := .Complete) (by decide +kernel)
  obtain ⟨x, hx, hrestoring⟩ := job_of_field (initial.run Drill.returning) ⟨1⟩ MaintenanceJob.state
    (a := .Restoring) (by decide +kernel)
  obtain ⟨_, j, _, hj, _, _, hrecorded⟩ :=
    verdict_on_record Drill.returning (Drill.call .pass_step) ⟨1⟩ j'
      (by decide +kernel) hj' hafter (by
      intro y hy
      cases Option.some.inj (hx.symm.trans hy)
      rw [hrestoring]
      decide)
  exact ⟨j, hj, hrecorded⟩

/-- Job 2 completes although its verdict was refused: the counter has started again, and the
    verdict on job 1 is still there. -/
theorem verdict_refused_job_completes :
    ((initial.run Drill.unrecorded).job ⟨2⟩).map (fun j => (j.state, j.removal_set)) =
      some (.Restoring, [Drill.switch]) ∧
    ((initial.run (Drill.unrecorded ++ [Drill.call .pass_step])).job ⟨2⟩).map MaintenanceJob.state =
      some .Complete ∧
    ¬ ∃ r ∈ (initial.run (Drill.unrecorded ++
        [Drill.call .pass_step])).ctl.store.state.evidence.records.rows,
      r.key.kind = .RestorationCheck ∧ r.job = ⟨2⟩ := by
  refine ⟨by decide +kernel, by decide +kernel, ?_⟩
  rintro ⟨r, hr, hkind, hjob⟩
  have hnone : ∀ r ∈ (initial.run (Drill.unrecorded ++
      [Drill.call .pass_step])).ctl.store.state.evidence.records.rows,
      ¬ (r.key.kind = .RestorationCheck ∧ r.job = ⟨2⟩) := by
    decide +kernel
  exact hnone r hr ⟨hkind, hjob⟩

end System

end MaintenanceFabric
