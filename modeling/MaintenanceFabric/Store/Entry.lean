import MaintenanceFabric.Store.TopologyCodec

/-! # Journal entries

    What the store hands to its journal: an entity, or the identity of one to
    forget.  `Entry.record` is the record the source encodes for it and
    `Entry.size` the number of payload bytes of that record, counted without
    building them.
-/

namespace MaintenanceFabric

open Lib

/-! ## Sizes -/

/-- Bytes of a string field. -/
def str_size (max_length : Nat) (t : Text) : Nat := 2 + (clip max_length t).length

/-- Bytes of a counted list. -/
def list_size {α : Type} (size : α → Nat) (l : List α) : Nat := 4 + (l.map size).sum

@[simp] theorem strBytes_length (max_length : Nat) (t : Text) :
    (strBytes max_length t).length = str_size max_length t := by
  simp [strBytes, str_size]

theorem str_size_le (max_length : Nat) (t : Text) : str_size max_length t ≤ 2 + max_length := by
  have := clip_length_le max_length t
  unfold str_size
  omega

theorem list_bytes_length {α : Type} {bytes : α → Text} {size : α → Nat}
    (h : ∀ a, (bytes a).length = size a) (l : List α) :
    (list_bytes bytes l).length = list_size size l := by
  simp [list_bytes, list_size, List.length_flatMap, h]

/-- A list whose elements have at most `n` bytes each. -/
theorem list_size_le {α : Type} {size : α → Nat} {n : Nat} (h : ∀ a, size a ≤ n) (l : List α) :
    list_size size l ≤ 4 + n * l.length := by
  unfold list_size
  induction l with
  | nil => simp
  | cons a l ih =>
    have := h a
    simp only [List.map_cons, List.sum_cons, List.length_cons, Nat.mul_succ]
    omega

@[simp] theorem target_bytes_length (id : TargetId) : (target_bytes id).length = 8 := rfl

@[simp] theorem domain_bytes_length (id : DomainId) : (domain_bytes id).length = 8 := rfl

@[simp] theorem attempt_bytes_length (id : AttemptId) : (attempt_bytes id).length = 24 := rfl

@[simp] theorem incarnation_bytes_length (i : ControllerIncarnation) :
    (incarnation_bytes i).length = 24 := rfl

/-- A list of eight-byte elements. -/
def words_size {α : Type} (l : List α) : Nat := 4 + 8 * l.length

theorem words_length {α : Type} {bytes : α → Text} (h : ∀ a, (bytes a).length = 8) (l : List α) :
    (list_bytes bytes l).length = words_size l := by
  rw [list_bytes_length h]
  simp [list_size, words_size, Nat.mul_comm]

@[simp] theorem target_list_length (l : List TargetId) :
    (list_bytes target_bytes l).length = words_size l := words_length target_bytes_length l

@[simp] theorem domain_list_length (l : List DomainId) :
    (list_bytes domain_bytes l).length = words_size l := words_length domain_bytes_length l

@[simp] theorem id_list_length {tag : IdTag} (l : List (StrongId tag)) :
    (list_bytes (fun id : StrongId tag => u64Bytes id.value) l).length = words_size l :=
  words_length (fun _ => rfl) l

/-! ### Jobs -/

def attempt_size (a : AttemptRecord) : Nat := 44 + str_size limits.kMaxDetailLength a.detail

def history_entry_size (e : HistoryEntry) : Nat := 44 + str_size limits.kMaxDetailLength e.detail

theorem attempt_record_bytes_length (a : AttemptRecord) :
    (attempt_record_bytes a).length = attempt_size a := by
  simp [attempt_record_bytes, attempt_size]
  omega

theorem history_entry_bytes_length (e : HistoryEntry) :
    (history_entry_bytes e).length = history_entry_size e := by
  simp [history_entry_bytes, history_entry_size]
  omega

def job_size (job : MaintenanceJob) : Nat :=
  285 + str_size limits.kMaxTitleLength job.title + str_size limits.kMaxReasonLength job.reason +
    words_size job.targets + words_size job.removal_set + words_size job.depends_on +
    words_size job.window_filter + str_size limits.kMaxDetailLength job.block_detail +
    str_size limits.kMaxDetailLength job.last_detail + list_size attempt_size job.attempts +
    list_size history_entry_size job.history + str_size limits.kMaxNameLength job.approved_by

theorem job_record_length (job : MaintenanceJob) :
    (encode_job_record job).payload.length = job_size job := by
  rw [encode_job_record_payload]
  simp only [job_fields, List.length_flatten, List.map_cons, List.map_nil, List.sum_cons,
    List.sum_nil, u16Bytes_length, u32Bytes_length, u64Bytes_length, i64Bytes_length,
    boolBytes_length, strBytes_length, target_list_length, id_list_length, attempt_bytes_length,
    incarnation_bytes_length, list_bytes_length attempt_record_bytes_length,
    list_bytes_length history_entry_bytes_length, job_size]
  omega

/-- A job record that decodes is far below the record bound. -/
theorem job_size_le {job : MaintenanceJob} (h : check_job_record job = .ok ()) :
    job_size job ≤ 2000000 := by
  simp only [check_job_record, check_target_list, Result.bind_eq_ok, refuse_if_eq_ok,
    decide_eq_false_iff_not, gt_iff_lt, Nat.not_lt] at h
  obtain ⟨_, ⟨_, htargets, _⟩, _, ⟨_, hremoval, _⟩, _, hdepends, _, hwindows, _, hattempts, _,
    hhistory, _⟩ := h
  have htitle := str_size_le limits.kMaxTitleLength job.title
  have hreason := str_size_le limits.kMaxReasonLength job.reason
  have hblock := str_size_le limits.kMaxDetailLength job.block_detail
  have hlast := str_size_le limits.kMaxDetailLength job.last_detail
  have happroved := str_size_le limits.kMaxNameLength job.approved_by
  have hattempt : ∀ a, attempt_size a ≤ 1070 := by
    intro a
    have := str_size_le limits.kMaxDetailLength a.detail
    simp only [attempt_size, limits.kMaxDetailLength] at this ⊢
    omega
  have hentry : ∀ e, history_entry_size e ≤ 1070 := by
    intro e
    have := str_size_le limits.kMaxDetailLength e.detail
    simp only [history_entry_size, limits.kMaxDetailLength] at this ⊢
    omega
  have hattempt_list := list_size_le hattempt job.attempts
  have hhistory_list := list_size_le hentry job.history
  simp only [limits.kMaxTargetsPerJob, limits.kMaxTargetsPerTopology,
    limits.kMaxDependenciesPerJob, limits.kMaxWindowRules, limits.kMaxAttemptsPerJob,
    limits.kMaxJobHistoryEntries, limits.kMaxTitleLength, limits.kMaxReasonLength,
    limits.kMaxDetailLength, limits.kMaxNameLength] at *
  simp only [job_size, words_size, limits.kMaxTitleLength, limits.kMaxReasonLength,
    limits.kMaxDetailLength, limits.kMaxNameLength]
  omega

/-! ### The smaller entities -/

def evidence_size : Nat := 167

theorem evidence_record_length (r : EvidenceRecord) (digest : UInt64) :
    (encode_evidence_record r digest).payload.length = evidence_size := by
  rw [encode_evidence_record_payload]
  simp [evidence_fields, evidence_size]

def reservation_size (r : AuthorityReservation) : Nat :=
  106 + words_size r.targets + words_size r.domains + words_size r.pools

theorem reservation_record_length (r : AuthorityReservation) (digest : UInt64) :
    (encode_reservation_record r digest).payload.length = reservation_size r := by
  rw [encode_reservation_record_payload]
  simp [reservation_fields, reservation_size]
  omega

def lease_size (l : DrainLease) : Nat := 86 + words_size l.targets

theorem lease_record_length (l : DrainLease) :
    (encode_lease_record l).payload.length = lease_size l := by
  rw [encode_lease_record_payload]
  simp [lease_fields, lease_size]
  omega

def quarantine_size (q : QuarantineRecord) : Nat :=
  87 + str_size limits.kMaxDetailLength q.detail + str_size limits.kMaxNameLength q.cleared_by

theorem quarantine_record_length (q : QuarantineRecord) (digest : UInt64) :
    (encode_quarantine_record q digest).payload.length = quarantine_size q := by
  rw [encode_quarantine_record_payload]
  simp [quarantine_fields, quarantine_size]
  omega

def boot_size : Nat := 34

theorem boot_record_length (i : ControllerIncarnation) (prior : BootEpoch) :
    (encode_boot_record i prior).payload.length = boot_size := by
  rw [encode_boot_record_payload]
  simp [boot_size]

def erased_size : Nat := 8

theorem erased_record_length {tag : IdTag} (type : RecordType) (id : StrongId tag) :
    (encode_erased type id).payload.length = erased_size := by
  simp [encode_erased, erased_size]

/-! ### Policies and topologies -/

/-- Bytes of a name. -/
def name_size (name : Text) : Nat := str_size limits.kMaxNameLength name

def redundancy_size (r : RedundancyRule) : Nat := 16 + name_size r.name
def domain_limit_size (r : DomainLimitRule) : Nat := 12 + name_size r.name
def headroom_size (r : HeadroomRule) : Nat := 12 + name_size r.name
def contract_size (c : Contract) : Nat := 13 + name_size c.name + words_size c.members
def window_size (w : Window) : Nat := 44 + name_size w.name + words_size w.targets
def tier_size (t : PriorityTier) : Nat := 4 + name_size t.name
def ttl_size (_ : EvidenceKind × Nanos) : Nat := 12

theorem redundancy_bytes_length (r : RedundancyRule) :
    (redundancy_bytes r).length = redundancy_size r := by
  simp [redundancy_bytes, redundancy_size, name_size]
  omega

theorem domain_limit_bytes_length (r : DomainLimitRule) :
    (domain_limit_bytes r).length = domain_limit_size r := by
  simp [domain_limit_bytes, domain_limit_size, name_size]
  omega

theorem headroom_bytes_length (r : HeadroomRule) : (headroom_bytes r).length = headroom_size r := by
  simp [headroom_bytes, headroom_size, name_size]
  omega

theorem contract_bytes_length (c : Contract) : (contract_bytes c).length = contract_size c := by
  simp [contract_bytes, contract_size, name_size]
  omega

theorem window_bytes_length (w : Window) : (window_bytes w).length = window_size w := by
  simp [window_bytes, window_size, name_size]
  omega

theorem tier_bytes_length (t : PriorityTier) : (tier_bytes t).length = tier_size t := by
  simp [tier_bytes, tier_size, name_size]

theorem ttl_bytes_length (e : EvidenceKind × Nanos) : (ttl_bytes e).length = ttl_size e := by
  simp [ttl_bytes, ttl_size]

def policy_size (p : Policy) : Nat :=
  59 + list_size redundancy_size p.redundancy + list_size domain_limit_size p.domain_limits +
    list_size headroom_size p.headroom + list_size contract_size p.contracts +
    list_size window_size p.windows + list_size tier_size p.tiers +
    list_size ttl_size p.evidence_ttl.rows

theorem policy_record_length (p : Policy) :
    (encode_policy_record p).payload.length = policy_size p := by
  rw [encode_policy_record_payload]
  simp only [policy_fields, List.length_flatten, List.map_cons, List.map_nil, List.sum_cons,
    List.sum_nil, u16Bytes_length, u32Bytes_length, i64Bytes_length, boolBytes_length,
    list_bytes_length redundancy_bytes_length, list_bytes_length domain_limit_bytes_length,
    list_bytes_length headroom_bytes_length, list_bytes_length contract_bytes_length,
    list_bytes_length window_bytes_length, list_bytes_length tier_bytes_length,
    list_bytes_length ttl_bytes_length, policy_size]
  omega

def domain_record_size (d : DomainRecord) : Nat := 9 + name_size d.name

def target_record_size (t : TargetRecord) : Nat :=
  13 + name_size t.name + (if t.parent.isSome then 9 else 1) + words_size t.domains

def pool_record_size (p : PoolRecord) : Nat := 8 + name_size p.name + words_size p.members

theorem domain_record_bytes_length (d : DomainRecord) :
    (domain_record_bytes d).length = domain_record_size d := by
  simp [domain_record_bytes, domain_record_size, name_size]
  omega

theorem target_record_bytes_length (t : TargetRecord) :
    (target_record_bytes t).length = target_record_size t := by
  have hparent : (parent_bytes t.parent).length = if t.parent.isSome then 9 else 1 := by
    cases t.parent <;> simp [parent_bytes]
  simp only [target_record_bytes, target_record_size, name_size, List.length_flatten,
    List.map_cons, List.map_nil, List.sum_cons, List.sum_nil, target_bytes_length, strBytes_length,
    hparent, domain_list_length, u32Bytes_length, boolBytes_length]
  omega

theorem pool_record_bytes_length (p : PoolRecord) :
    (pool_record_bytes p).length = pool_record_size p := by
  simp [pool_record_bytes, pool_record_size, name_size]
  omega

def topology_size (t : Topology) : Nat :=
  6 + list_size domain_record_size t.domains.rows + list_size target_record_size t.targets.rows +
    list_size pool_record_size t.pools.rows

theorem topology_record_length (t : Topology) :
    (encode_topology_record t).payload.length = topology_size t := by
  have hperm := recorded_order_perm t
  have horder : list_size target_record_size (recorded_order t) =
      list_size target_record_size t.targets.rows := by
    unfold list_size
    rw [(hperm.map target_record_size).sum_nat]
  rw [encode_topology_record_payload]
  simp only [topology_fields, List.length_flatten, List.map_cons, List.map_nil, List.sum_cons,
    List.sum_nil, u16Bytes_length, u32Bytes_length, list_bytes_length domain_record_bytes_length,
    list_bytes_length target_record_bytes_length, list_bytes_length pool_record_bytes_length,
    horder, topology_size]
  omega

/-! ## Entries -/

inductive Entry where
  | topology (t : Topology)
  | policy (p : Policy)
  | job (j : MaintenanceJob)
  | job_erased (id : JobId)
  | evidence (r : EvidenceRecord) (digest : UInt64)
  | reservation (r : AuthorityReservation) (digest : UInt64)
  | reservation_erased (id : AuthorityId)
  | lease (l : DrainLease)
  | lease_erased (id : DrainLeaseId)
  | quarantine (q : QuarantineRecord) (digest : UInt64)
  | boot (incarnation : ControllerIncarnation) (prior_epoch : BootEpoch)

namespace Entry

/-- The record that is journaled for the entry. -/
def record : Entry → Record
  | .topology t => encode_topology_record t
  | .policy p => encode_policy_record p
  | .job j => encode_job_record j
  | .job_erased id => encode_job_erased_record id
  | .evidence r digest => encode_evidence_record r digest
  | .reservation r digest => encode_reservation_record r digest
  | .reservation_erased id => encode_reservation_erased_record id
  | .lease l => encode_lease_record l
  | .lease_erased id => encode_lease_erased_record id
  | .quarantine q digest => encode_quarantine_record q digest
  | .boot incarnation prior_epoch => encode_boot_record incarnation prior_epoch

/-- Payload bytes of the record. -/
def size : Entry → Nat
  | .topology t => topology_size t
  | .policy p => policy_size p
  | .job j => job_size j
  | .job_erased _ => erased_size
  | .evidence _ _ => evidence_size
  | .reservation r _ => reservation_size r
  | .reservation_erased _ => erased_size
  | .lease l => lease_size l
  | .lease_erased _ => erased_size
  | .quarantine q _ => quarantine_size q
  | .boot _ _ => boot_size

theorem record_length (e : Entry) : e.record.payload.length = e.size := by
  cases e with
  | topology t => exact topology_record_length t
  | policy p => exact policy_record_length p
  | job j => exact job_record_length j
  | job_erased id => exact erased_record_length _ id
  | evidence r digest => exact evidence_record_length r digest
  | reservation r digest => exact reservation_record_length r digest
  | reservation_erased id => exact erased_record_length _ id
  | lease l => exact lease_record_length l
  | lease_erased id => exact erased_record_length _ id
  | quarantine q digest => exact quarantine_record_length q digest
  | boot i prior => exact boot_record_length i prior

/-- The type of the record. -/
def type : Entry → RecordType
  | .topology _ => .Topology
  | .policy _ => .Policy
  | .job _ => .Job
  | .job_erased _ => .JobErased
  | .evidence _ _ => .Evidence
  | .reservation _ _ => .Reservation
  | .reservation_erased _ => .ReservationErased
  | .lease _ => .Lease
  | .lease_erased _ => .LeaseErased
  | .quarantine _ _ => .Quarantine
  | .boot _ _ => .Boot

theorem record_type (e : Entry) : e.record.type = e.type := by cases e <;> rfl

/-- Every entry is an ordinary record of a known type. -/
theorem type_known (e : Entry) :
    is_known_record_type e.type.code = true ∧ e.type ≠ .Transaction ∧ e.type ≠ .Unknown := by
  cases e <;> simp [type, is_known_record_type, RecordType.code]

end Entry

/-! ## Transactions -/

/-- Payload bytes of the transaction that carries the entries. -/
def transaction_size (entries : List Entry) : Nat := 6 + (entries.map (fun e => 8 + e.size)).sum

/-- `validate_record` of every record. -/
def check_entries (entries : List Entry) : Status :=
  refuse_if (entries.any (fun e => decide (e.size > limits.kMaxJournalRecordBytes)))
    (make_error .LimitExceeded (text "record payload exceeds the journal bound"))

/-- What `append_transaction` checks before it writes. -/
def admit_transaction (entries : List Entry) : Status := do
  refuse_if entries.isEmpty (invalid_argument (text "transaction must contain at least one record"))
  refuse_if (entries.length > limits.kMaxRecordsPerTransaction)
    (make_error .LimitExceeded (text "transaction contains too many records"))
  check_entries entries
  refuse_if (transaction_size entries > limits.kMaxJournalRecordBytes)
    (make_error .LimitExceeded (text "transaction exceeds the journal record bound"))

end MaintenanceFabric
