import MaintenanceFabric.Lib.Run
import MaintenanceFabric.Store.Strictness

/-! # Sessions of a store

    A store in use over any number of process lifetimes: the calls of its API,
    compactions, and reopening the journal file, in any order.  Beside the
    store stands the journal as it is on disk; a call of the store reaches it
    through the transactions that it adds to `log`.
-/

namespace MaintenanceFabric

open Lib Journal

/-! ## Calls -/

/-- The calls of the store API. -/
inductive StoreCall where
  | begin_incarnation (controller : ControllerId) (nonce steady : Nat)
  | commit_topology (topology : Topology)
  | commit_policy (policy : Policy)
  | create_job (job : MaintenanceJob)
  | allocate_evidence_id
  | quarantine_target (target : TargetId) (job : JobId) (generation : GenerationId)
      (reason : BlockReason) (detail : Text) (now : Nanos) (created_by : ControllerIncarnation)
  | commit_job (job : MaintenanceJob)
  | commit_jobs (jobs : List MaintenanceJob)
  | commit_job_erased (job : JobId)
  | observe_evidence (evidence : EvidenceRecord) (digest : UInt64)
  | reserve_authority (reservation : AuthorityReservation)
  | insert_authority (reservation : AuthorityReservation) (digest : UInt64)
  | release_authority (id : AuthorityId) (current : ControllerIncarnation)
  | renew_authority (id : AuthorityId) (attempt : AttemptId) (current : ControllerIncarnation)
      (extend now : Nanos)
  | expire_authority (now : Nanos)
  | fence_authority (current : ControllerIncarnation)
  | commit_lease (lease : DrainLease)
  | commit_lease_erased (id : DrainLeaseId)
  | commit_quarantine (record : QuarantineRecord) (digest : UInt64)
  | flush

/-- An identity that a successful call hands out. -/
inductive Issued where
  | job (id : JobId)
  | authority (id : AuthorityId)
  | quarantine (id : QuarantineId)
  deriving DecidableEq

/-- What a call that allocates hands out. -/
def issued {α : Type} (kind : α → Issued) (answer : Result α) : List Issued :=
  match answer with
  | .error _ => []
  | .ok id => [kind id]

namespace Store

def call (s : Store) : StoreCall → List Issued × Store
  | .begin_incarnation controller nonce steady =>
      ([], (s.begin_incarnation controller nonce steady).2)
  | .commit_topology topology => ([], (s.commit_topology topology).2)
  | .commit_policy policy => ([], (s.commit_policy policy).2)
  | .create_job job => (issued .job (s.create_job job).1, (s.create_job job).2)
  | .allocate_evidence_id => ([], s.allocate_evidence_id.2)
  | .quarantine_target target job generation reason detail now created_by =>
      let out := s.quarantine_target target job generation reason detail now created_by
      (issued .quarantine out.1, out.2)
  | .commit_job job => ([], (s.commit_job job).2)
  | .commit_jobs jobs => ([], (s.commit_jobs jobs).2)
  | .commit_job_erased job => ([], (s.commit_job_erased job).2)
  | .observe_evidence evidence digest => ([], (s.observe_evidence evidence digest).2)
  | .reserve_authority r => (issued .authority (s.reserve_authority r).1, (s.reserve_authority r).2)
  | .insert_authority r digest => ([], (s.insert_authority r digest).2)
  | .release_authority id current => ([], (s.release_authority id current).2)
  | .renew_authority id attempt current extend now =>
      ([], (s.renew_authority id attempt current extend now).2)
  | .expire_authority now => ([], s.expire_authority now)
  | .fence_authority current => ([], s.fence_authority current)
  | .commit_lease lease => ([], (s.commit_lease lease).2)
  | .commit_lease_erased id => ([], (s.commit_lease_erased id).2)
  | .commit_quarantine record digest => ([], (s.commit_quarantine record digest).2)
  | .flush => ([], s.flush.2)

/-! ## Compaction -/

/-- The records a compacted journal starts from. `prior` is the boot epoch before this one.
    Volatile evidence that is past its life is dropped. -/
def snapshot (s : Store) (prior : BootEpoch) (now : Nanos) : List Entry :=
  [.topology s.state.topology, .policy s.state.policy] ++
    s.state.jobs.jobs.rows.map .job ++
    s.state.ledger.reservations.rows.map (fun r => .reservation r (s.digests.reservations r.id)) ++
    s.state.leases.rows.map .lease ++
    s.state.quarantines.records.rows.map (fun q => .quarantine q (s.digests.quarantines q.id)) ++
    (s.state.evidence.records.rows.filter (fun e =>
      !(decide (e.klass = .Volatile) && decide (now > e.observed_at + e.ttl)))).map
        (fun e => .evidence e (s.digests.evidence e.key)) ++
    if s.state.last_incarnation.valid then [.boot s.state.last_incarnation prior] else []

def compact (s : Store) (journal : Journal) (prior : BootEpoch) (now : Nanos) : Result Journal := do
  refuse_if ((s.snapshot prior now).length > limits.kMaxJournalRecords)
    (make_error .LimitExceeded (text "compacted state exceeds the journal record bound"))
  journal.rewrite ((s.snapshot prior now).map Entry.record)

end Store

/-! ## Sessions -/

/-- The running store, its journal on disk, and the identities handed out so far. -/
structure Session where
  journal : Journal
  store : Store
  issued : List Issued := []

inductive SessionEvent where
  /-- A call, with what the journal answers to its writes. -/
  | call (verdicts : List (Option JournalFault)) (c : StoreCall)
  | compact (prior : BootEpoch) (now : Nanos)
  /-- The process ends, and another one opens the file it left. -/
  | reopen (options : StoreOptions)

namespace Session

/-- The call as the store carries it out. -/
def called (s : Session) (verdicts : List (Option JournalFault)) (c : StoreCall) :
    List Issued × Store :=
  { s.store with verdicts, log := [] }.call c

/-- One event. Events that cannot happen (the journal refuses what the verdicts let through) and
    operations that fail change nothing. -/
def step (s : Session) : SessionEvent → Session
  | .call verdicts c =>
      let out := s.called verdicts c
      match appends s.journal (out.2.log.map transaction_call) with
      | .error _ => s
      | .ok journal => { journal, store := out.2, issued := s.issued ++ out.1 }
  | .compact prior now =>
      match s.store.compact s.journal prior now with
      | .error _ => s
      | .ok journal => { s with journal }
  | .reopen options =>
      match Store.open options (some s.journal.file) with
      | .error _ => s
      | .ok (journal, store) => { s with journal, store }

def run (s : Session) (events : List SessionEvent) : Session := events.foldl step s

theorem run_nil (s : Session) : s.run [] = s := rfl

theorem run_cons (s : Session) (e : SessionEvent) (events : List SessionEvent) :
    s.run (e :: events) = (s.step e).run events := rfl

/-- The first process opens whatever file is at the path, or creates one. -/
def Opens (options : StoreOptions) (disk : Option Text) (s : Session) : Prop :=
  Store.open options disk = .ok (s.journal, s.store) ∧ s.issued = []

end Session

/-! ## Journals that were never compacted -/

namespace Store

/-- A store created on a file that is not there starts on an empty journal. -/
theorem open_created {options : StoreOptions} (hpath : options.journal_path ≠ [])
    (hcreate : options.create_if_missing = true) :
    Store.open options none = .ok (holding options.journal [], recovered options []) := by
  obtain ⟨created, hcreated⟩ : ∃ created, Journal.open options.journal none = .ok created ∧
      created.file = file_header ++ [] ∧ created.options = options.journal := by
    have hp : options.journal.path.isEmpty = false := by
      simpa [StoreOptions.journal] using hpath
    have hc : options.journal.create_if_missing = true := hcreate
    unfold Journal.open
    rw [hp, hc]
    exact ⟨_, rfl, rfl, rfl⟩
  obtain ⟨hopened, hfile, hoptions⟩ := hcreated
  obtain ⟨stats, hreplay, -⟩ := replay_header (j := created) rfl hfile
  rw [hoptions, List.take_nil, replay_frames_nil] at hreplay
  unfold Store.open
  rw [hopened, Result.ok_bind, hreplay]
  rfl

end Store

namespace Journal

/-- The frames of admissible calls continue a stretch of frames. -/
theorem Intact.laid {first next : UInt64} {data : Text} {delivered : List Record}
    (h : Intact first data next delivered) {calls : List AppendCall}
    (hcalls : ∀ c ∈ calls, c.Admissible) :
    Intact first (data ++ laid next calls) (next + UInt64.ofNat calls.length)
      (delivered ++ calls.flatMap AppendCall.committed) := by
  induction calls generalizing data next delivered with
  | nil => simpa [Journal.laid] using h
  | cons c calls ih =>
    have hc := hcalls c List.mem_cons_self
    have hnext := ih (h.snoc hc.writable hc.deliver)
      (fun x hx => hcalls x (List.mem_cons_of_mem _ hx))
    have hlen : next + 1 + UInt64.ofNat calls.length = next + UInt64.ofNat (c :: calls).length := by
      simp [UInt64.ofNat_add, UInt64.add_assoc, UInt64.add_comm]
    rw [hlen] at hnext
    simpa [Journal.laid] using hnext

end Journal

namespace Session

/-- A session on a journal that holds the transactions of `log`. -/
def on (options : JournalOptions) (log : List (List Entry)) (store : Store)
    (issued : List Issued) : Session :=
  { journal := holding options (log.map transaction_call), store, issued }

theorem transaction_call_size {entries : List Entry} (hadm : admit_transaction entries = .ok ()) :
    (transaction_call entries).size = kFrameHeaderBytes + transaction_size entries := by
  have hwritable : ∀ e ∈ entries, e.record.writable = true := by
    simp only [admit_transaction, Result.bind_eq_ok] at hadm
    obtain ⟨_, _, _, _, _, hentries, _⟩ := hadm
    exact check_entries_ok.mp hentries
  rw [AppendCall.size, ← transaction_payload_length hwritable]
  rfl

theorem boundary_log {log : List (List Entry)}
    (hadm : ∀ entries ∈ log, admit_transaction entries = .ok ()) :
    boundary (log.map transaction_call) = kFileHeaderBytes +
      (log.map (fun entries => kFrameHeaderBytes + transaction_size entries)).sum := by
  rw [boundary, List.map_map]
  congr 2
  apply List.map_congr_left
  intro entries hentries
  exact transaction_call_size (hadm entries hentries)

/-- A call that journals one transaction for which there is room. -/
theorem step_call_on {options : JournalOptions} {log : List (List Entry)} {s : Store}
    {handed : List Issued} {verdicts : List (Option JournalFault)} {c : StoreCall}
    {entries : List Entry} {out : List Issued × Store}
    (hout : { s with verdicts, log := [] }.call c = out) (hlog : out.2.log = [entries])
    (hadm : ∀ entries' ∈ log ++ [entries], admit_transaction entries' = .ok ())
    (hbytes : kFileHeaderBytes + ((log ++ [entries]).map
      (fun entries => kFrameHeaderBytes + transaction_size entries)).sum ≤ options.max_bytes.toNat)
    (hrecords : log.length < options.max_records.toNat) :
    (on options log s handed).step (.call verdicts c) =
      on options (log ++ [entries]) out.2 (handed ++ out.1) := by
  -- The transaction is within its own bounds and within those of the journal.
  have hrun : (transaction_call entries).run (holding options (log.map transaction_call)) =
      .ok ((holding options (log.map transaction_call)).wrote
        (transaction_call entries).record) := by
    have hlast := hadm entries (by simp)
    refine AppendCall.run_eq_ok_iff.mpr ⟨admit_transaction_ok.mp hlast, rfl, ?_, ?_, rfl⟩
    · have hheld := boundary_log (fun x hx => hadm x (List.mem_append_left _ hx))
      rw [transaction_call_size hlast]
      simp only [List.map_append, List.map_cons, List.map_nil, List.sum_append, List.sum_cons,
        List.sum_nil] at hbytes
      simp only [holding, hheld]
      omega
    · simpa [holding] using hrecords
  have happ : appends (holding options (log.map transaction_call)) [transaction_call entries] =
      .ok ((holding options (log.map transaction_call)).wrote
        (transaction_call entries).record) := by
    rw [appends, List.foldlM_cons, hrun]
    rfl
  obtain ⟨-, hholding⟩ := appends_holding happ
  have hcalled : (on options log s handed).called verdicts c = out := hout
  unfold step
  simp only [hcalled, hlog, List.map_cons, List.map_nil]
  rw [show (on options log s handed).journal = holding options (log.map transaction_call) from rfl,
    happ]
  simp only [hholding, on, List.map_append, List.map_cons, List.map_nil]

/-- Reopening finds everything that was journaled. -/
theorem step_reopen_on {options : StoreOptions} (hpath : options.journal_path ≠ [])
    {log : List (List Entry)} (hadm : ∀ entries ∈ log, admit_transaction entries = .ok ())
    (s : Store) (handed : List Issued) :
    (on options.journal log s handed).step (.reopen options) =
      on options.journal log (Store.recovered options (log.flatten.map Entry.record)) handed := by
  have hopen : Store.open options (some (holding options.journal (log.map transaction_call)).file) =
      .ok (holding options.journal (log.map transaction_call),
        Store.recovered options (log.flatten.map Entry.record)) := Store.open_file_of hpath hadm
  unfold step on
  simp only [hopen]

end Session

end MaintenanceFabric
