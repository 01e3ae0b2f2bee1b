import MaintenanceFabric.Guarantees.Capacity
import MaintenanceFabric.Guarantees.Revisions
import MaintenanceFabric.Guarantees.Verdicts

/-! # Completion reports

    `report_completion` writes one record per target of the scope, each in a
    transaction of its own, and then the job.  Nothing takes back the records
    that went through when a later one is refused.
-/

namespace MaintenanceFabric

open Lib

/-! ## What a store bears -/

namespace EvidenceStore

/-- A record with the property is under the key, and is not about to make way. -/
def Bears (s : EvidenceStore) (P : EvidenceRecord → Prop) (now : Nanos)
    (key : EvidenceKey) : Prop :=
  ∃ r, s.find key = some r ∧ P r ∧ evictable now r = false

variable {s s' : EvidenceStore} {P : EvidenceRecord → Prop} {now : Nanos} {r : EvidenceRecord}

theorem bears_observed (hok : s.observe r = .ok s') (hr : P r) (hlasts : evictable now r = false) :
    s'.Bears P now r.key :=
  ⟨r, (observe_ok hok).2.1, hr, hlasts⟩

/-- Another record of the same instant takes nothing away. -/
theorem Bears.observe {key : EvidenceKey} (h : s.Bears P now key) (hok : s.observe r = .ok s')
    (hr : P r) (hnow : r.observed_at = now) (hlasts : evictable now r = false) :
    s'.Bears P now key := by
  by_cases hkey : key = r.key
  · rw [hkey]
    exact bears_observed hok hr hlasts
  · obtain ⟨x, hfind, hx, hstays⟩ := h
    exact ⟨x, observe_keeps hok hkey hfind (by rw [hnow]; exact hstays), hx, hstays⟩

end EvidenceStore

namespace Controller

/-! ## The records of a report -/

def completion_payload (succeeded : Bool) : EvidencePayload :=
  { result := succeeded, health := if succeeded then .Degraded else .Down }

def make_completion (c : Controller) (job : JobId) (attempt : AttemptId) (succeeded : Bool)
    (now : Nanos) (target : TargetId) : EvidenceRecord × Controller :=
  c.make_evidence_locked .MaintenanceCompletion (EvidenceSubject.of target) ⟨1⟩ now
    (c.policy.ttl_for .MaintenanceCompletion) (completion_payload succeeded) job attempt

/-- The records a report makes, one for each target. -/
def completion_records (job : JobId) (attempt : AttemptId) (succeeded : Bool) (now : Nanos) :
    Controller → List TargetId → List EvidenceRecord
  | _, [] => []
  | c, target :: rest =>
      let made := c.make_completion job attempt succeeded now target
      made.1 :: completion_records job attempt succeeded now made.2 rest

/-- A completion record made after `c`: no record made before has its number. -/
structure Reports (c : Controller) (job : JobId) (attempt : AttemptId) (succeeded : Bool)
    (now : Nanos) (r : EvidenceRecord) : Prop where
  payload : r.payload = completion_payload succeeded
  job : r.job = job
  attempt : r.attempt = attempt
  observed_by : r.observed_by = c.incarnation
  observed_at : r.observed_at = now
  number : c.evidence_revision < r.revision.value

/-- Two controllers that make the same records. -/
structure Alike (c c' : Controller) : Prop where
  incarnation : c'.incarnation = c.incarnation
  policy : c'.policy = c.policy
  number : c'.evidence_revision = c.evidence_revision
  sequence : c'.store.evidence_sequence = c.store.evidence_sequence
  boots : c'.store.state.last_incarnation = c.store.state.last_incarnation

theorem Alike.make {c c' : Controller} (h : Alike c c') (job : JobId) (attempt : AttemptId)
    (succeeded : Bool) (now : Nanos) (target : TargetId) :
    (c'.make_completion job attempt succeeded now target).1 =
        (c.make_completion job attempt succeeded now target).1 ∧
      Alike (c.make_completion job attempt succeeded now target).2
        (c'.make_completion job attempt succeeded now target).2 := by
  obtain ⟨hincarnation, hpolicy, hnumber, hsequence, hboots⟩ := h
  refine ⟨?_, ⟨hincarnation, hpolicy, ?_, ?_, hboots⟩⟩
  · simp only [make_completion, make_evidence_locked, Store.allocate_evidence_id, hincarnation,
      hpolicy, hnumber, hsequence, hboots]
  · simp only [make_completion, make_evidence_locked, hnumber]
  · simp only [make_completion, make_evidence_locked, Store.allocate_evidence_id, hsequence]

theorem Alike.records (job : JobId) (attempt : AttemptId) (succeeded : Bool) (now : Nanos) :
    ∀ (targets : List TargetId) {c c' : Controller}, Alike c c' →
      completion_records job attempt succeeded now c' targets =
        completion_records job attempt succeeded now c targets
  | [], _, _, _ => rfl
  | target :: rest, c, c', h => by
      obtain ⟨hrecord, hnext⟩ := h.make job attempt succeeded now target
      unfold completion_records
      simp only
      rw [hrecord, Alike.records job attempt succeeded now rest hnext]

/-! ## One record -/

/-- The first of the records is refused, by the evidence store or by the journal. -/
def RefusedAtOnce (c : Controller) (records : List EvidenceRecord) : Prop :=
  ∃ r, records.head? = some r ∧
    (Status.isOk (c.store.state.evidence.observe r) = false ∨
      ∃ fault, c.store.verdicts.head? = some (some fault))

/-- A record is refused and nothing has changed, or it is installed and the counters go on. -/
theorem author_completion (c : Controller) (job : JobId) (attempt : AttemptId) (succeeded : Bool)
    (now : Nanos) (target : TargetId) :
    let made := c.make_completion job attempt succeeded now target
    let out := c.author_evidence .MaintenanceCompletion target ⟨1⟩ now
      (completion_payload succeeded) job attempt
    (∃ e, out.1 = .error e ∧ out.2.store.state = c.store.state ∧ c.RefusedAtOnce [made.1]) ∨
    ∃ staging, out.1 = ok_status ∧ c.store.state.evidence.observe made.1 = .ok staging ∧
      (∀ v ∈ c.store.verdicts.take 1, v = none) ∧
      out.2.store.state = { c.store.state with evidence := staging } ∧
      out.2.store.verdicts = c.store.verdicts.drop 1 ∧ Alike made.2 out.2 := by
  intro made out
  have hout : out = made.2.write_evidence_locked made.1 := rfl
  have hstate : made.2.store.state = c.store.state := rfl
  have hverdicts : made.2.store.verdicts = c.store.verdicts := rfl
  have hboots : c.store.state.last_incarnation = made.2.store.state.last_incarnation := rfl
  have hsize : (Entry.evidence made.1 0).size ≤ 4000000 := show evidence_size ≤ 4000000 by decide
  clear_value made out
  subst hout
  unfold write_evidence_locked Store.observe_evidence Store.append_transaction Store.next_verdict
  rw [hstate, hverdicts, Store.admit_single hsize]
  -- The store looks at the record first, then asks the journal once.
  cases hobserve : c.store.state.evidence.observe made.1 with
  | error e =>
    refine .inl ⟨e, rfl, hstate, made.1, rfl, .inl ?_⟩
    rw [hobserve]
    rfl
  | ok staging =>
    cases hv : c.store.verdicts with
    | nil =>
      refine .inr ⟨staging, rfl, rfl, by simp, ?_, hverdicts.trans hv, rfl, rfl, rfl, rfl, rfl⟩
      rw [← hstate]
      rfl
    | cons v rest =>
      cases v with
      | none =>
        exact .inr ⟨staging, rfl, rfl, by simp, rfl, rfl, rfl, rfl, rfl, rfl, hboots⟩
      | some fault =>
        refine .inl ⟨fault.error, rfl, rfl, made.1, rfl, .inr ⟨fault, ?_⟩⟩
        rw [hv]
        rfl

/-! ## All of them -/

/-- The evidence store takes the records one after the other, and the journal each of them. -/
def TakesAll (c : Controller) (records : List EvidenceRecord) : Prop :=
  Status.isOk (records.foldlM EvidenceStore.observe c.store.state.evidence) = true ∧
    ∀ v ∈ c.store.verdicts.take records.length, v = none

theorem RefusedAtOnce.not_takes {c : Controller} {records : List EvidenceRecord}
    (h : c.RefusedAtOnce records) : ¬ c.TakesAll records := by
  obtain ⟨r, hhead, hrefused⟩ := h
  obtain ⟨rest, rfl⟩ : ∃ rest, records = r :: rest := List.head?_eq_some_iff.mp hhead
  rintro ⟨hall, hnone⟩
  rcases hrefused with hrefused | ⟨fault, hfault⟩
  · rw [List.foldlM_cons] at hall
    cases hobserve : c.store.state.evidence.observe r with
    | error e =>
      rw [hobserve] at hall
      cases hall
    | ok staging =>
      rw [hobserve] at hrefused
      cases hrefused
  · obtain ⟨others, hothers⟩ := List.head?_eq_some_iff.mp hfault
    rw [hothers] at hnone
    have := hnone (some fault) (by simp)
    cases this

/-- The first record has been taken, and the rest are taken from there. -/
theorem takes_all_cons {c c' : Controller} {r : EvidenceRecord} {staging : EvidenceStore}
    (records : List EvidenceRecord) (hobserve : c.store.state.evidence.observe r = .ok staging)
    (hverdict : ∀ v ∈ c.store.verdicts.take 1, v = none)
    (hstate : c'.store.state = { c.store.state with evidence := staging })
    (hverdicts : c'.store.verdicts = c.store.verdicts.drop 1) :
    c.TakesAll (r :: records) ↔ c'.TakesAll records := by
  unfold TakesAll
  rw [List.foldlM_cons, hobserve, hverdicts, hstate]
  refine and_congr Iff.rfl ?_
  cases hv : c.store.verdicts with
  | nil => simp
  | cons v rest =>
    rw [hv] at hverdict
    have hnone : v = none := hverdict v (by simp)
    simp [hnone]

theorem not_refused_at_once {c : Controller} {r : EvidenceRecord} {staging : EvidenceStore}
    (records : List EvidenceRecord) (hobserve : c.store.state.evidence.observe r = .ok staging)
    (hverdict : ∀ v ∈ c.store.verdicts.take 1, v = none) : ¬ c.RefusedAtOnce (r :: records) := by
  rintro ⟨r', hhead, hrefused⟩
  cases hhead
  rcases hrefused with hrefused | ⟨fault, hfault⟩
  · rw [hobserve] at hrefused
    cases hrefused
  · obtain ⟨others, hothers⟩ := List.head?_eq_some_iff.mp hfault
    rw [hothers] at hverdict
    have := hverdict (some fault) (by simp)
    cases this

/-- A record made later is one of the report. -/
theorem make_completion_reports (job : JobId) (attempt : AttemptId) (succeeded : Bool) (now : Nanos)
    {c₀ c : Controller} (hincarnation : c.incarnation = c₀.incarnation)
    (hnumber : c₀.evidence_revision ≤ c.evidence_revision) (target : TargetId) :
    Reports c₀ job attempt succeeded now (c.make_completion job attempt succeeded now target).1 ∧
      EvidenceStore.evictable now (c.make_completion job attempt succeeded now target).1 =
        false := by
  refine ⟨⟨rfl, rfl, rfl, hincarnation, rfl, Nat.lt_succ_of_le hnumber⟩, ?_⟩
  have hlife : ∀ asked : Nanos, 0 < (if asked ≤ 0 ∨ asked > limits.kMaxEvidenceTtlNanos
      then limits.kDefaultEvidenceTtlNanos else asked) := by
    intro asked
    split
    · decide
    · next hno => exact not_le.mp (not_or.mp hno).1
  exact decide_eq_false (not_le.mpr (Int.lt_add_of_pos_right now (hlife _)))

/-- What writing the records does. The induction is on the targets; what the report has written
    stays, and after a refusal it is only the first record that decides whether there is
    anything. -/
theorem record_completion_ends (job : JobId) (attempt : AttemptId) (succeeded : Bool) (now : Nanos)
    (c₀ : Controller) :
    ∀ (targets : List TargetId) (c : Controller), c.incarnation = c₀.incarnation →
      c₀.evidence_revision ≤ c.evidence_revision →
      let records := completion_records job attempt succeeded now c targets
      let out := record_completion job attempt succeeded now c targets
      out.2.store.state.jobs = c.store.state.jobs ∧
      (∀ key, c.store.state.evidence.Bears (Reports c₀ job attempt succeeded now) now key →
        out.2.store.state.evidence.Bears (Reports c₀ job attempt succeeded now) now key) ∧
      ((Status.isOk out.1 = true ∧ c.TakesAll records ∧
          out.2.store.verdicts = c.store.verdicts.drop targets.length ∧
          ∀ t ∈ targets, out.2.store.state.evidence.Bears (Reports c₀ job attempt succeeded now) now
            (completion_key t)) ∨
        Status.isOk out.1 = false ∧ ¬ c.TakesAll records ∧
          (c.RefusedAtOnce records ∧ out.2.store.state = c.store.state ∨
            ¬ c.RefusedAtOnce records ∧ ∃ t, targets.head? = some t ∧
              out.2.store.state.evidence.Bears (Reports c₀ job attempt succeeded now) now
                (completion_key t)))
  | [], c, _, _ => by
      intro records out
      exact ⟨rfl, fun _ h => h, .inl ⟨rfl,
        ⟨rfl, by simp [records, completion_records]⟩, rfl, by simp⟩⟩
  | target :: rest, c, hincarnation, hnumber => by
      intro records out
      have hone := c.author_completion job attempt succeeded now target
      obtain ⟨hreports, hlasts⟩ := make_completion_reports job attempt succeeded now hincarnation
        hnumber target
      have hkey : (c.make_completion job attempt succeeded now target).1.key =
          completion_key target := rfl
      have hcounters : (c.make_completion job attempt succeeded now target).2.incarnation =
            c.incarnation ∧
          (c.make_completion job attempt succeeded now target).2.evidence_revision =
            c.evidence_revision + 1 := ⟨rfl, rfl⟩
      have hrecords : records = (c.make_completion job attempt succeeded now target).1 ::
        completion_records job attempt succeeded now
          (c.make_completion job attempt succeeded now target).2 rest := rfl
      have hout : out = record_completion job attempt succeeded now c (target :: rest) := rfl
      have hpayload : completion_payload succeeded =
          { result := succeeded, health := if succeeded then .Degraded else .Down } := rfl
      rw [record_completion, ← hpayload] at hout
      clear_value records out
      simp only at hone
      generalize c.make_completion job attempt succeeded now target = made at *
      generalize c.author_evidence .MaintenanceCompletion target ⟨1⟩ now
        (completion_payload succeeded) job attempt = one at *
      obtain ⟨r, m⟩ := made
      obtain ⟨status, c'⟩ := one
      rcases hone with ⟨e, hstatus, hstate, hrefused⟩ |
        ⟨staging, hstatus, hobserve, hverdict, hstate, hverdicts, halike⟩
      · -- The first record is refused.
        simp only at hstatus hstate hrefused
        subst hstatus
        have hrefused : c.RefusedAtOnce records := by
          obtain ⟨r', hhead, hr'⟩ := hrefused
          exact ⟨r', by rw [hrecords]; exact hhead, hr'⟩
        rw [hout]
        refine ⟨congrArg PersistedState.jobs hstate,
          ?_, .inr ⟨rfl, hrefused.not_takes, .inl ⟨hrefused, hstate⟩⟩⟩
        intro key h
        rw [congrArg PersistedState.evidence hstate]
        exact h
      · simp only
          at hstatus hobserve hstate hverdicts halike hreports hlasts hcounters hrecords hkey
        subst hstatus
        have hevidence : c'.store.state.evidence = staging :=
          congrArg PersistedState.evidence hstate
        -- The first record is taken: the rest is written by a controller that has counted it.
        have hnext := record_completion_ends job attempt succeeded now c₀ rest c'
          (halike.incarnation.trans (hcounters.1.trans hincarnation))
          (by rw [halike.number, hcounters.2]; omega)
        simp only at hnext
        rw [halike.records job attempt succeeded now rest] at hnext
        rw [show out = record_completion job attempt succeeded now c' rest from hout]
        obtain ⟨hjobs, hkeeps, hends⟩ := hnext
        have hfirst := hkeeps (completion_key target) (by
          rw [hevidence, ← hkey]
          exact EvidenceStore.bears_observed hobserve hreports hlasts)
        have htakes := takes_all_cons
          (completion_records job attempt succeeded now m rest) hobserve hverdict hstate hverdicts
        have hstored : c'.store.state.jobs = c.store.state.jobs := by rw [hstate]
        refine ⟨hjobs.trans hstored, ?_, ?_⟩
        · intro key h
          apply hkeeps
          rw [hevidence]
          exact h.observe hobserve hreports hreports.observed_at hlasts
        · rw [hrecords, htakes]
          -- A refusal further on is not one at once, and the first target keeps its record.
          rcases hends with ⟨hok, hall, hleft, hbears⟩ | ⟨hno, hnot, _⟩
          · refine .inl ⟨hok, hall, ?_, ?_⟩
            · rw [hleft, hverdicts, List.drop_drop, List.length_cons, Nat.add_comm]
            · intro t ht
              rcases List.mem_cons.mp ht with rfl | ht
              · exact hfirst
              · exact hbears t ht
          · exact .inr ⟨hno, hnot, .inr ⟨not_refused_at_once _ hobserve hverdict, target,
              rfl, hfirst⟩⟩

/-! ## The call -/

/-- After an error no record and no job has changed; after a success every target of the scope has
    its completion record. -/
structure ReportsAllOrNothing (c : Controller) (job : JobId)
    (attempt : AttemptId) (succeeded : Bool)
    (detail : Text) (now : Nanos) : Prop where
  refused : Status.isOk (c.report_completion job attempt succeeded detail now).1 = false →
    (c.report_completion job attempt succeeded detail now).2.store.state.evidence.records =
        c.store.state.evidence.records ∧
      (c.report_completion job attempt succeeded detail now).2.store.state.jobs = c.store.state.jobs
  reported : Status.isOk (c.report_completion job attempt succeeded detail now).1 = true →
    ∃ current, c.store.state.jobs.find job = some current ∧ ∀ t ∈ current.removal_set, ∃ r,
      (c.report_completion job attempt succeeded detail now).2.store.state.evidence.find
          (completion_key t) = some r ∧ Reports c job attempt succeeded now r

/-- The journal takes the job once it has answered for `written` records, and the job's record can
    be applied. -/
def TakesJob (s : Store) (written : Nat) (job : MaintenanceJob) : Prop :=
  Status.isOk (Store.append_and_flush { s with verdicts := s.verdicts.drop written } [.job job]).1 =
      true ∧ check_job_record job = .ok ()

/-- The job as a completion report commits it. -/
def reported_job (current : MaintenanceJob) (detail : Text) (now : Nanos) : MaintenanceJob :=
  revised { current with last_detail := text "completion reported: " ++ detail }
    current.revision.next now

/-- If the report is admitted, nothing has to be written, or the first record is already refused,
    or every record is taken and the job after them. -/
def ReportWhole (c : Controller) (job : JobId) (attempt : AttemptId) (succeeded : Bool)
    (detail : Text) (now : Nanos) : Prop :=
  ∀ current, c.store.state.jobs.find job = some current →
    Status.isOk (check_token (text "completion") current attempt) = true →
    current.state = .InMaintenance →
    let records := completion_records job attempt succeeded now c current.removal_set
    current.removal_set = [] ∨ c.RefusedAtOnce records ∨
      c.TakesAll records ∧
        TakesJob c.store current.removal_set.length (reported_job current detail now)

/-- The commit that ends a report. -/
theorem commit_reported (c : Controller) (current : MaintenanceJob) (detail : Text) (now : Nanos)
    (hfind : c.store.state.jobs.find current.id = some current) :
    let out := c.commit_job_locked
      { current with last_detail := text "completion reported: " ++ detail } now
    out.2.store.state.evidence = c.store.state.evidence ∧
      (Status.isOk out.1 = true ↔ TakesJob c.store 0 (reported_job current detail now)) ∧
      (Status.isOk out.1 = false → out.2.store.state.jobs = c.store.state.jobs) := by
  intro out
  obtain ⟨table, hput⟩ : ∃ table,
    c.store.state.jobs.put (reported_job current detail now) = .ok table := by
    unfold JobTable.put
    rw [show c.store.state.jobs.find (reported_job current detail now).id = some current from hfind]
    simp [reported_job, revised]
  have hout : out = ((c.store.commit_job (reported_job current detail now)).1,
      { c with store := (c.store.commit_job (reported_job current detail now)).2 }) := by
    show c.commit_job_locked _ now = _
    unfold commit_job_locked
    rw [hfind]
    rfl
  clear_value out
  subst hout
  have happend := (c.store.quiet_append_and_flush [.job (reported_job current detail now)]).1
  have htakes : TakesJob c.store 0 (reported_job current detail now) ↔
      Status.isOk (c.store.append_and_flush [.job (reported_job current detail now)]).1 = true ∧
        check_job_record (reported_job current detail now) = .ok () := Iff.rfl
  simp only
  rw [htakes]
  generalize reported_job current detail now = j at *
  unfold Store.commit_job
  rw [hput]
  simp only
  generalize c.store.append_and_flush [.job j] = flushed at *
  obtain ⟨status, s'⟩ := flushed
  simp only at happend
  -- The flush comes first; after it the job has to pass the checks of its own record.
  cases status with
  | error e =>
    exact ⟨congrArg PersistedState.evidence happend, by simp [Status.isOk],
      fun _ => congrArg PersistedState.jobs happend⟩
  | ok _ =>
    cases himage : recorded_job j with
    | error e =>
      refine ⟨congrArg PersistedState.evidence happend, ?_,
        fun _ => congrArg PersistedState.jobs happend⟩
      constructor
      · intro h
        cases h
      · rintro ⟨_, hcheck⟩
        rw [recorded_job, hcheck] at himage
        cases himage
    | ok image =>
      obtain ⟨_, hcheck⟩ := recorded_job_ok himage
      refine ⟨?_, ⟨fun _ => ⟨rfl, hcheck⟩, fun _ => rfl⟩, fun h => by cases h⟩
      show s'.state.evidence = c.store.state.evidence
      rw [happend]

/-- Whatever stands under the key of the first target, the record of the report is another. -/
theorem bears_changed {c : Controller} {evidence : EvidenceStore} {target : TargetId}
    {rest : List TargetId}
    (htaken : ¬ c.RefusedAtOnce (completion_records job attempt succeeded now c (target :: rest)))
    (hbears : evidence.Bears (Reports c job attempt succeeded now) now (completion_key target)) :
    evidence.records ≠ c.store.state.evidence.records := by
  intro hsame
  obtain ⟨x, hfind, hx, _⟩ := hbears
  have hold : c.store.state.evidence.find (completion_key target) = some x := by
    rw [EvidenceStore.find, ← hsame]
    exact hfind
  cases hobserve : c.store.state.evidence.observe
      (c.make_completion job attempt succeeded now target).1 with
  | error e =>
    apply htaken
    refine ⟨_, rfl, .inl ?_⟩
    rw [hobserve]
    rfl
  | ok staging =>
    have hless := (EvidenceStore.observe_ok hobserve).2.2.2.1 x hold
    have hless : x.revision.value < c.evidence_revision + 1 := StrongId.lt_iff.mp hless
    have hafter := hx.number
    omega

/-- The journal's answers alone decide the status of a write. -/
theorem append_and_flush_status {s s' : Store} (h : s.verdicts = s'.verdicts)
    (entries : List Entry) :
    (s.append_and_flush entries).1 = (s'.append_and_flush entries).1 := by
  obtain ⟨state, sequence, verdicts, log, digests⟩ := s
  obtain ⟨state', sequence', verdicts', log', digests'⟩ := s'
  simp only at h
  subst h
  unfold Store.append_and_flush Store.append_transaction
  cases check_entries entries with
  | error e => rfl
  | ok _ =>
    cases admit_transaction entries with
    | error e => rfl
    | ok _ =>
      -- One answer is for the append and one for the sync.
      match verdicts with
      | [] => rfl
      | some fault :: rest => rfl
      | [none] => rfl
      | none :: none :: rest => rfl
      | none :: some fault :: rest => rfl

/-- A report that has been admitted. -/
theorem report_admitted {c : Controller} {current : MaintenanceJob} {detail : Text}
    (hfind : c.store.state.jobs.find job = some current)
    (hreport : c.report_completion job attempt succeeded detail now =
      match record_completion job attempt succeeded now c current.removal_set with
      | (.error e, c) => (.error e, c)
      | (.ok _, c) => c.commit_job_locked
          { current with last_detail := text "completion reported: " ++ detail } now) :
    c.ReportsAllOrNothing job attempt succeeded detail now ↔
      (current.removal_set = [] ∨
        c.RefusedAtOnce (completion_records job attempt succeeded now c current.removal_set) ∨
        c.TakesAll (completion_records job attempt succeeded now c current.removal_set) ∧
          TakesJob c.store current.removal_set.length (reported_job current detail now)) := by
  have hid : current.id = job := Table.key_of_find hfind
  obtain ⟨hjobs, _, hends⟩ := record_completion_ends job attempt succeeded now c
    current.removal_set c rfl (Nat.le_refl _)
  have hnothing : current.removal_set = [] →
      (record_completion job attempt succeeded now c current.removal_set).2 = c := by
    intro hnone
    rw [hnone]
    rfl
  have hcommit := commit_reported
    (record_completion job attempt succeeded now c current.removal_set).2 current detail now
    (by rw [hjobs, hid]; exact hfind)
  generalize record_completion job attempt succeeded now c current.removal_set = rc at *
  obtain ⟨status, c'⟩ := rc
  simp only at hjobs hends hcommit hreport hnothing
  rcases hends with ⟨hok, hall, hleft, hbears⟩ | ⟨hno, hnot, hends⟩
  · -- Every record has been taken; the job decides.
    cases status with
    | error e => cases hok
    | ok _ =>
      obtain ⟨hevidence, htaken, hkept⟩ := hcommit
      have hjob : TakesJob c'.store 0 (reported_job current detail now) ↔
          TakesJob c.store current.removal_set.length (reported_job current detail now) := by
        unfold TakesJob
        have hanswers : ({ c'.store with verdicts := c'.store.verdicts.drop 0 } : Store).verdicts =
            ({ c.store with
              verdicts := c.store.verdicts.drop current.removal_set.length } : Store).verdicts :=
          hleft
        rw [append_and_flush_status hanswers]
      rw [hjob] at htaken
      -- `commit_job_locked` is the last write of the report.
      by_cases hjob : TakesJob c.store current.removal_set.length (reported_job current detail now)
      · refine iff_of_true ⟨?_, ?_⟩ (.inr (.inr ⟨hall, hjob⟩))
        · rw [hreport, htaken.mpr hjob]
          intro hno
          cases hno
        · rw [hreport]
          refine fun _ => ⟨current, hfind, ?_⟩
          intro t ht
          obtain ⟨r, hr, hreports, _⟩ := hbears t ht
          exact ⟨r, by rw [hevidence]; exact hr, hreports⟩
      · have hfailed := Bool.eq_false_iff.mpr (mt htaken.mp hjob)
        cases hscope : current.removal_set with
        -- No target is out of service, so no record went before the job that is refused.
        | nil =>
          refine iff_of_true ⟨?_, ?_⟩ (.inl rfl)
          · rw [hreport]
            exact fun _ => ⟨by rw [hevidence, hnothing hscope], (hkept hfailed).trans hjobs⟩
          · rw [hreport, hfailed]
            intro hok
            cases hok
        -- The job is refused after its records were taken: the evidence stays behind.
        | cons target rest =>
          refine iff_of_false ?_ ?_
          · intro h
            have hsame := (h.refused (by rw [hreport]; exact hfailed)).1
            rw [hreport] at hsame
            have htaken : ¬ c.RefusedAtOnce (completion_records job attempt succeeded now c
                (target :: rest)) := by
              rw [hscope] at hall
              exact fun hrefused => hrefused.not_takes hall
            refine bears_changed htaken
              (hbears target (by rw [hscope]; exact List.mem_cons_self)) ?_
            rw [← hevidence]
            exact hsame
          · rintro (hnone | hrefused | ⟨_, htakes⟩)
            · cases hnone
            · rw [hscope] at hall
              exact hrefused.not_takes hall
            · rw [hscope] at hjob
              exact hjob htakes
  -- A record is refused: the first one leaves everything, a later one leaves those before it.
  · cases status with
    | ok _ => cases hno
    | error e =>
      rcases hends with ⟨hrefused, hstate⟩ | ⟨htaken, target, hhead, hbears⟩
      · refine iff_of_true ⟨?_, ?_⟩ (.inr (.inl hrefused))
        · intro _
          rw [hreport]
          exact ⟨by rw [hstate], by rw [hstate]⟩
        · rw [hreport]
          intro hok
          cases hok
      · obtain ⟨rest, hscope⟩ := List.head?_eq_some_iff.mp hhead
        refine iff_of_false ?_ ?_
        · intro h
          have hsame := (h.refused (by rw [hreport]; rfl)).1
          rw [hreport] at hsame
          rw [hscope] at htaken
          exact bears_changed htaken hbears hsame
        · rintro (hnone | hrefused | ⟨hall, _⟩)
          · rw [hscope] at hnone
            cases hnone
          · exact htaken hrefused
          · exact hnot hall

/-- Nothing takes back the records before the one that is refused. -/
theorem report_completion_all_or_nothing_iff (c : Controller) (job : JobId) (attempt : AttemptId)
    (succeeded : Bool) (detail : Text) (now : Nanos) :
    c.ReportsAllOrNothing job attempt succeeded detail now ↔
      c.ReportWhole job attempt succeeded detail now := by
  -- A call that is turned away has done nothing.
  have haway : ∀ {e : Error}, c.report_completion job attempt succeeded detail now = (.error e, c) →
      c.ReportsAllOrNothing job attempt succeeded detail now := by
    intro e h
    refine ⟨?_, ?_⟩
    · rw [h]
      exact fun _ => ⟨rfl, rfl⟩
    · rw [h]
      intro hok
      cases hok
  cases hfind : c.store.state.jobs.find job with
  | none =>
    refine iff_of_true (haway (e := no_such_job job) ?_) ?_
    · unfold report_completion
      rw [hfind]
    · intro current h
      rw [hfind] at h
      cases h
  | some current =>
    have hid : current.id = job := Table.key_of_find hfind
    cases htoken : check_token (text "completion") current attempt with
    | error e =>
      refine iff_of_true (haway (e := e) ?_) ?_
      · unfold report_completion
        rw [hfind]
        simp only [htoken]
      · intro current' h hok
        rw [hfind] at h
        cases h
        rw [htoken] at hok
        cases hok
    | ok _ =>
      by_cases hstate : current.state = .InMaintenance
      · have hwhole : c.ReportWhole job attempt succeeded detail now ↔
            (current.removal_set = [] ∨
              c.RefusedAtOnce (completion_records job attempt succeeded now c current.removal_set) ∨
              c.TakesAll (completion_records job attempt succeeded now c current.removal_set) ∧
                TakesJob c.store current.removal_set.length (reported_job current detail now)) := by
          constructor
          · intro h
            exact h current hfind (by rw [htoken]; rfl) hstate
          · intro h current' hfind' _ _
            rw [hfind] at hfind'
            cases hfind'
            exact h
        rw [hwhole]
        refine report_admitted hfind ?_
        unfold report_completion
        rw [hfind]
        simp only [htoken]
        exact (if_neg (not_not.mpr hstate)).trans rfl
      · refine iff_of_true (haway (e := make_error .StateConflict (text "job " ++ job.to_string ++
          text " is " ++ current.state.to_string ++
          text " and cannot accept a completion report")) ?_) ?_
        · unfold report_completion
          rw [hfind]
          simp only [htoken]
          rw [if_pos hstate]
        · intro current' h _ hstate'
          rw [hfind] at h
          cases h
          exact absurd hstate' hstate

end Controller

namespace Drill

/-- One job for both switches is in maintenance, and somebody has already handed in a record for the
    second one, under a revision the controller has not reached. -/
def outdone : List Event :=
  [boot 0, call (.set_topology pair), call (.set_policy policy), health 1 0, peer_health 1 0,
    call (.propose { request with targets := [switch, peer] } (text "operator") 0), approve 1 0] ++
    tick 0 1 ++ tick (ms 100) 1 ++ tick (ms 200) 1 ++
    [call (.observe
      { key := Controller.completion_key peer, revision := ⟨1000⟩, observed_at := ms 205
        payload := { result := false, health := .Down } })]

end Drill

namespace System

/-- The report is refused, and the first switch has its record. -/
theorem refused_report_leaves_record :
    ((initial.run Drill.outdone).job ⟨1⟩).map MaintenanceJob.state = some .InMaintenance ∧
      ¬ (initial.run Drill.outdone).ctl.ReportsAllOrNothing ⟨1⟩ (Drill.first 1) true
        [] (Drill.ms 210) := by
  refine ⟨by decide +kernel, ?_⟩
  intro h
  obtain ⟨hrecords, _⟩ := h.refused (by decide +kernel)
  have hlength := congrArg (fun records => records.rows.length) hrecords
  revert hlength
  decide +kernel

end System

end MaintenanceFabric
