import MaintenanceFabric.Store.Entities

/-! # Job records

    The job record is the longest one.  Its lists (targets, removal set,
    dependencies, windows, attempts, history) are bounded by the decoder; its
    strings are clipped by the encoder.  Decoding what was encoded is exactly
    `recorded_job`.
-/

namespace MaintenanceFabric

open Lib

/-! ## Enumerations -/

def kJobStateCount : Nat := 11

def JobState.code : JobState → Nat
  | .Proposed => 0
  | .Validated => 1
  | .Prerequisites => 2
  | .Ready => 3
  | .InMaintenance => 4
  | .Verifying => 5
  | .Restoring => 6
  | .Complete => 7
  | .Blocked => 8
  | .Cancelled => 9
  | .Failed => 10

def JobState.ofCode : Nat → JobState :=
  enumerator [.Proposed, .Validated, .Prerequisites, .Ready, .InMaintenance, .Verifying, .Restoring,
    .Complete, .Blocked, .Cancelled, .Failed] .Proposed

@[simp] theorem JobState.ofCode_code (s : JobState) : ofCode s.code = s := by cases s <;> rfl

theorem JobState.code_lt (s : JobState) : s.code < kJobStateCount := by cases s <;> decide

def AttemptOutcome.code : AttemptOutcome → Nat
  | .Running => 0
  | .Succeeded => 1
  | .Failed => 2
  | .Fenced => 3
  | .Cancelled => 4

def AttemptOutcome.ofCode : Nat → AttemptOutcome :=
  enumerator [.Running, .Succeeded, .Failed, .Fenced, .Cancelled] .Running

@[simp] theorem AttemptOutcome.ofCode_code (o : AttemptOutcome) : ofCode o.code = o := by
  cases o <;> rfl

def OnWindowClose.ofCode : Nat → OnWindowClose :=
  enumerator [.FinishActiveStep, .ExtendToComplete, .AbortAndRestore] .FinishActiveStep

@[simp] theorem OnWindowClose.ofCode_code (o : OnWindowClose) : ofCode o.code = o := by
  cases o <;> rfl

/-! ## Attempts -/

structure AttemptRecord.machine (a : AttemptRecord) : Prop where
  id : a.id.machine
  started_at : i64_range a.started_at
  ended_at : i64_range a.ended_at

def write_attempt (w : ByteWriter) (a : AttemptRecord) : ByteWriter :=
  let w := ((write_attempt_id w a.id).i64 a.started_at).i64 a.ended_at
  (w.u32 a.outcome.code).str a.detail limits.kMaxDetailLength

def attempt_record_bytes (a : AttemptRecord) : Text :=
  [attempt_bytes a.id, i64Bytes a.started_at, i64Bytes a.ended_at, u32Bytes a.outcome.code,
   strBytes limits.kMaxDetailLength a.detail].flatten

theorem write_attempt_buffer (w : ByteWriter) (a : AttemptRecord) :
    (write_attempt w a).buffer = w.buffer ++ attempt_record_bytes a := by
  have hdetail : limits.kMaxDetailLength ≤ 65535 := by decide
  simp [write_attempt, attempt_record_bytes, ByteWriter.str_buffer, hdetail]

def read_attempt : Reader AttemptRecord := do
  let id ← read_attempt_id
  let started_at ← Reader.i64
  let ended_at ← Reader.i64
  let outcome ← Reader.u32
  Reader.refuse (outcome > AttemptOutcome.Cancelled.code)
    (corrupt (text "job record carries an unknown attempt outcome"))
  let detail ← Reader.str limits.kMaxDetailLength
  pure { id, started_at, ended_at, outcome := AttemptOutcome.ofCode outcome, detail }

theorem ReadsAs.attempt {a : AttemptRecord} (h : a.machine) :
    ReadsAs read_attempt (attempt_record_bytes a) (.ok (recorded_attempt a)) := by
  have houtcome : a.outcome.code < u32_range := by cases a.outcome <;> decide
  have hknown : decide (a.outcome.code > AttemptOutcome.Cancelled.code) = false := by
    cases a.outcome <;> decide
  refine Reads.field (ReadsAs.attempt_id h.id) ?_
  refine Reads.field (ReadsAs.i64 h.started_at) ?_
  refine Reads.field (ReadsAs.i64 h.ended_at) ?_
  refine Reads.field (ReadsAs.u32 houtcome) ?_
  refine Reads.pass (ReadsAs.accepts hknown _) ?_
  refine Reads.field (ReadsAs.str (by decide) a.detail) ?_
  rw [AttemptOutcome.ofCode_code]
  exact Reads.pure (recorded_attempt a)

/-! ## History -/

structure HistoryEntry.machine (e : HistoryEntry) : Prop where
  at_ : i64_range e.at_
  by_ : e.by_.machine

def write_history_entry (w : ByteWriter) (e : HistoryEntry) : ByteWriter :=
  let w := ((w.i64 e.at_).u32 e.from_state.code).u32 e.to_state.code
  write_incarnation ((w.u32 e.reason.code).str e.detail limits.kMaxDetailLength) e.by_

def history_entry_bytes (e : HistoryEntry) : Text :=
  [i64Bytes e.at_, u32Bytes e.from_state.code, u32Bytes e.to_state.code, u32Bytes e.reason.code,
   strBytes limits.kMaxDetailLength e.detail, incarnation_bytes e.by_].flatten

theorem write_history_entry_buffer (w : ByteWriter) (e : HistoryEntry) :
    (write_history_entry w e).buffer = w.buffer ++ history_entry_bytes e := by
  have hdetail : limits.kMaxDetailLength ≤ 65535 := by decide
  simp [write_history_entry, history_entry_bytes, ByteWriter.str_buffer, hdetail]

def read_history_entry : Reader HistoryEntry := do
  let at_ ← Reader.i64
  let from_state ← Reader.u32
  let to_state ← Reader.u32
  let reason ← Reader.u32
  Reader.refuse (from_state ≥ kJobStateCount ∨ to_state ≥ kJobStateCount ∨
    reason ≥ kBlockReasonCount) (corrupt (text "job history entry is malformed"))
  let detail ← Reader.str limits.kMaxDetailLength
  let by_ ← read_incarnation
  pure { at_, from_state := JobState.ofCode from_state, to_state := JobState.ofCode to_state
         reason := BlockReason.ofCode reason, detail, by_ }

theorem ReadsAs.history_entry {e : HistoryEntry} (h : e.machine) :
    ReadsAs read_history_entry (history_entry_bytes e) (.ok (recorded_entry e)) := by
  have hfrom := e.from_state.code_lt
  have hto := e.to_state.code_lt
  have hreason := e.reason.code_lt
  have hstates : kJobStateCount < u32_range := by decide
  have hreasons : kBlockReasonCount < u32_range := by decide
  have hknown : decide (e.from_state.code ≥ kJobStateCount ∨ e.to_state.code ≥ kJobStateCount ∨
      e.reason.code ≥ kBlockReasonCount) = false := by
    simp only [decide_eq_false_iff_not]
    omega
  refine Reads.field (ReadsAs.i64 h.at_) ?_
  refine Reads.field (ReadsAs.u32 (by omega)) ?_
  refine Reads.field (ReadsAs.u32 (by omega)) ?_
  refine Reads.field (ReadsAs.u32 (by omega)) ?_
  refine Reads.pass (ReadsAs.accepts hknown _) ?_
  refine Reads.field (ReadsAs.str (by decide) e.detail) ?_
  refine Reads.field (ReadsAs.incarnation h.by_) ?_
  rw [JobState.ofCode_code, JobState.ofCode_code, BlockReason.ofCode_code]
  exact Reads.pure (recorded_entry e)

/-! ## Jobs -/

def kJobLayout : Nat := 1

/-- The request half of a job record. -/
def write_job_request (w : ByteWriter) (job : MaintenanceJob) : ByteWriter :=
  let w := ((w.u64 job.id.value).u64 job.generation.value).u64 job.revision.value
  let w := (w.str job.title limits.kMaxTitleLength).str job.reason limits.kMaxReasonLength
  let w := write_target_list (write_target_list w job.targets) job.removal_set
  let w := write_list (fun w id => w.u64 id.value) w job.depends_on
  let w := write_list (fun w id => w.u64 id.value) w job.window_filter
  let w := (w.u32 job.priority).i64 job.estimated_duration
  (w.boolean job.requires_drain).u64 job.requestor.value

/-- Position, bindings, attempts and history. -/
def write_job_progress (w : ByteWriter) (job : MaintenanceJob) : ByteWriter :=
  let w := (w.u32 job.state.code).u32 job.block.code
  let w := w.str job.block_detail limits.kMaxDetailLength
  let w := w.str job.last_detail limits.kMaxDetailLength
  let w := (w.u64 job.policy_revision.value).u64 job.topology_revision.value
  let w := (w.u64 job.policy_digest.toNat).u64 job.topology_digest.toNat
  let w := (w.u64 job.authority.value).u64 job.lease.value
  let w := (write_attempt_id w job.active_attempt).u64 job.next_attempt.value
  let w := write_list write_attempt w job.attempts
  (write_list write_history_entry w job.history).u32 job.history_dropped

/-- Flags, times and counters. -/
def write_job_outcome (w : ByteWriter) (job : MaintenanceJob) : ByteWriter :=
  let w := ((w.boolean job.service_removed).boolean job.overrun).boolean job.approved
  let w := w.str job.approved_by limits.kMaxNameLength
  let w := ((w.i64 job.created_at).i64 job.updated_at).i64 job.started_at
  let w := (w.i64 job.completed_at).i64 job.preconditions_at
  let w := w.u64 job.preconditions_digest.toNat
  let w := w.u64 job.preconditions_policy_revision.value
  let w := w.u64 job.preconditions_topology_revision.value
  let w := (w.boolean job.preconditions_satisfied).u32 job.verification_passes
  let w := (w.u32 job.verification_failures).u32 job.restoration_failures
  let w := (w.u32 job.drain_failures).i64 job.verification_started_at
  let w := (w.i64 job.restoration_started_at).boolean job.maintenance_failed
  let w := ((w.boolean job.window_extended).u64 job.window.value).u32 job.on_close.code
  write_incarnation (w.i64 job.window_closes_at) job.owner

def encode_job_record (job : MaintenanceJob) : Record :=
  let w := write_job_request (({} : ByteWriter).u16 kJobLayout) job
  ⟨.Job, (write_job_outcome (write_job_progress w job) job).buffer⟩

def read_job : Reader MaintenanceJob := do
  Reader.layout kJobLayout (text "job")
  let id ← Reader.id
  let generation ← Reader.id
  let revision ← Reader.id
  let title ← Reader.str limits.kMaxTitleLength
  let reason ← Reader.str limits.kMaxReasonLength
  let targets ← read_target_list limits.kMaxTargetsPerJob
  let removal_set ← read_target_list limits.kMaxTargetsPerTopology
  let depends_on ← read_list limits.kMaxDependenciesPerJob
    (corrupt (text "job dependency count exceeds the bound")) Reader.id
  let window_filter ← read_list limits.kMaxWindowRules
    (corrupt (text "job window-filter count exceeds the bound")) Reader.id
  let priority ← Reader.u32
  let estimated_duration ← Reader.i64
  let requires_drain ← Reader.boolean
  let requestor ← Reader.id
  let state ← Reader.u32
  Reader.refuse (state ≥ kJobStateCount)
    (corrupt (text "job record carries an unknown lifecycle state"))
  let block ← Reader.u32
  Reader.refuse (block ≥ kBlockReasonCount)
    (corrupt (text "job record carries an unknown block reason"))
  let block_detail ← Reader.str limits.kMaxDetailLength
  let last_detail ← Reader.str limits.kMaxDetailLength
  let policy_revision ← Reader.id
  let topology_revision ← Reader.id
  let policy_digest ← Reader.u64
  let topology_digest ← Reader.u64
  let authority ← Reader.id
  let lease ← Reader.id
  let active_attempt ← read_attempt_id
  let next_attempt ← Reader.id
  let attempts ← read_list limits.kMaxAttemptsPerJob
    (corrupt (text "job attempt count exceeds the bound")) read_attempt
  let history ← read_list limits.kMaxJobHistoryEntries
    (corrupt (text "job history count exceeds the bound")) read_history_entry
  let history_dropped ← Reader.u32
  let service_removed ← Reader.boolean
  let overrun ← Reader.boolean
  let approved ← Reader.boolean
  let approved_by ← Reader.str limits.kMaxNameLength
  let created_at ← Reader.i64
  let updated_at ← Reader.i64
  let started_at ← Reader.i64
  let completed_at ← Reader.i64
  let preconditions_at ← Reader.i64
  let preconditions_digest ← Reader.u64
  let preconditions_policy_revision ← Reader.id
  let preconditions_topology_revision ← Reader.id
  let preconditions_satisfied ← Reader.boolean
  let verification_passes ← Reader.u32
  let verification_failures ← Reader.u32
  let restoration_failures ← Reader.u32
  let drain_failures ← Reader.u32
  let verification_started_at ← Reader.i64
  let restoration_started_at ← Reader.i64
  let maintenance_failed ← Reader.boolean
  let window_extended ← Reader.boolean
  let window ← Reader.id
  let on_close ← Reader.u32
  Reader.refuse (on_close > OnWindowClose.AbortAndRestore.code)
    (corrupt (text "job record carries an unknown window policy"))
  let window_closes_at ← Reader.i64
  let owner ← read_incarnation
  pure
    { id, generation, revision, title, reason, targets, removal_set, depends_on, window_filter
      priority, estimated_duration, requires_drain, requestor, state := JobState.ofCode state
      block := BlockReason.ofCode block, block_detail, last_detail, policy_revision
      topology_revision, policy_digest := UInt64.ofNat policy_digest
      topology_digest := UInt64.ofNat topology_digest, authority, lease, active_attempt
      next_attempt, attempts, history, history_dropped, service_removed, overrun, approved
      approved_by, created_at, updated_at, started_at, completed_at, preconditions_at
      preconditions_digest := UInt64.ofNat preconditions_digest, preconditions_policy_revision
      preconditions_topology_revision, preconditions_satisfied, verification_passes
      verification_failures, restoration_failures, drain_failures, verification_started_at
      restoration_started_at, maintenance_failed, window_extended, window
      on_close := OnWindowClose.ofCode on_close, window_closes_at, owner }

def decode_job_record (record : Record) : Result MaintenanceJob := do
  refuse_if (record.type ≠ .Job) (invalid_argument (text "record is not a job record"))
  let job ← read_job.decode (corrupt (text "job record is malformed or has trailing bytes"))
    record.payload
  refuse_if (!job.id.valid || !job.generation.valid)
    (corrupt (text "job record has an invalid identity"))
  .ok job

structure MaintenanceJob.machine (job : MaintenanceJob) : Prop where
  id : job.id.machine
  generation : job.generation.machine
  revision : job.revision.machine
  targets : machine_list TargetId.machine job.targets
  removal_set : machine_list TargetId.machine job.removal_set
  depends_on : machine_list StrongId.machine job.depends_on
  window_filter : machine_list StrongId.machine job.window_filter
  priority : job.priority < u32_range
  estimated_duration : i64_range job.estimated_duration
  requestor : job.requestor.machine
  policy_revision : job.policy_revision.machine
  topology_revision : job.topology_revision.machine
  authority : job.authority.machine
  lease : job.lease.machine
  active_attempt : job.active_attempt.machine
  next_attempt : job.next_attempt.machine
  attempts : machine_list AttemptRecord.machine job.attempts
  history : machine_list HistoryEntry.machine job.history
  history_dropped : job.history_dropped < u32_range
  created_at : i64_range job.created_at
  updated_at : i64_range job.updated_at
  started_at : i64_range job.started_at
  completed_at : i64_range job.completed_at
  preconditions_at : i64_range job.preconditions_at
  preconditions_policy_revision : job.preconditions_policy_revision.machine
  preconditions_topology_revision : job.preconditions_topology_revision.machine
  verification_passes : job.verification_passes < u32_range
  verification_failures : job.verification_failures < u32_range
  restoration_failures : job.restoration_failures < u32_range
  drain_failures : job.drain_failures < u32_range
  verification_started_at : i64_range job.verification_started_at
  restoration_started_at : i64_range job.restoration_started_at
  window : job.window.machine
  window_closes_at : i64_range job.window_closes_at
  owner : job.owner.machine

/-! ### Round trip -/

def job_fields (job : MaintenanceJob) : List Text :=
  [u16Bytes kJobLayout, u64Bytes job.id.value, u64Bytes job.generation.value,
   u64Bytes job.revision.value, strBytes limits.kMaxTitleLength job.title,
   strBytes limits.kMaxReasonLength job.reason, list_bytes target_bytes job.targets,
   list_bytes target_bytes job.removal_set,
   list_bytes (fun id => u64Bytes id.value) job.depends_on,
   list_bytes (fun id => u64Bytes id.value) job.window_filter, u32Bytes job.priority,
   i64Bytes job.estimated_duration, boolBytes job.requires_drain, u64Bytes job.requestor.value,
   u32Bytes job.state.code, u32Bytes job.block.code,
   strBytes limits.kMaxDetailLength job.block_detail,
   strBytes limits.kMaxDetailLength job.last_detail, u64Bytes job.policy_revision.value,
   u64Bytes job.topology_revision.value, u64Bytes job.policy_digest.toNat,
   u64Bytes job.topology_digest.toNat, u64Bytes job.authority.value, u64Bytes job.lease.value,
   attempt_bytes job.active_attempt, u64Bytes job.next_attempt.value,
   list_bytes attempt_record_bytes job.attempts, list_bytes history_entry_bytes job.history,
   u32Bytes job.history_dropped, boolBytes job.service_removed, boolBytes job.overrun,
   boolBytes job.approved, strBytes limits.kMaxNameLength job.approved_by,
   i64Bytes job.created_at, i64Bytes job.updated_at, i64Bytes job.started_at,
   i64Bytes job.completed_at, i64Bytes job.preconditions_at,
   u64Bytes job.preconditions_digest.toNat, u64Bytes job.preconditions_policy_revision.value,
   u64Bytes job.preconditions_topology_revision.value, boolBytes job.preconditions_satisfied,
   u32Bytes job.verification_passes, u32Bytes job.verification_failures,
   u32Bytes job.restoration_failures, u32Bytes job.drain_failures,
   i64Bytes job.verification_started_at, i64Bytes job.restoration_started_at,
   boolBytes job.maintenance_failed, boolBytes job.window_extended, u64Bytes job.window.value,
   u32Bytes job.on_close.code, i64Bytes job.window_closes_at, incarnation_bytes job.owner]

theorem encode_job_record_payload (job : MaintenanceJob) :
    (encode_job_record job).payload = (job_fields job).flatten := by
  have htitle : limits.kMaxTitleLength ≤ 65535 := by decide
  have hreason : limits.kMaxReasonLength ≤ 65535 := by decide
  have hdetail : limits.kMaxDetailLength ≤ 65535 := by decide
  have hname : limits.kMaxNameLength ≤ 65535 := by decide
  simp [encode_job_record, write_job_request, write_job_progress, write_job_outcome, job_fields,
    ByteWriter.str_buffer, htitle, hreason, hdetail, hname, write_list_buffer write_attempt_buffer,
    write_list_buffer write_history_entry_buffer]

/-- The bounds on the lists of a job record. -/
def check_job_lists (job : MaintenanceJob) : Status := do
  check_target_list limits.kMaxTargetsPerJob job.targets
  check_target_list limits.kMaxTargetsPerTopology job.removal_set
  refuse_if (job.depends_on.length > limits.kMaxDependenciesPerJob)
    (corrupt (text "job dependency count exceeds the bound"))
  refuse_if (job.window_filter.length > limits.kMaxWindowRules)
    (corrupt (text "job window-filter count exceeds the bound"))
  refuse_if (job.attempts.length > limits.kMaxAttemptsPerJob)
    (corrupt (text "job attempt count exceeds the bound"))
  refuse_if (job.history.length > limits.kMaxJobHistoryEntries)
    (corrupt (text "job history count exceeds the bound"))

theorem ReadsAs.job {job : MaintenanceJob} (h : job.machine) :
    ReadsAs read_job (job_fields job).flatten
      (do check_job_lists job
          .ok (clipped_job job)) := by
  have hstate := job.state.code_lt
  have hblock := job.block.code_lt
  have hstates : kJobStateCount < u32_range := by decide
  have hreasons : kBlockReasonCount < u32_range := by decide
  have hclose : job.on_close.code < u32_range := by cases job.on_close <;> decide
  have hpolicy : decide (job.on_close.code > OnWindowClose.AbortAndRestore.code) = false := by
    cases job.on_close <;> decide
  -- One rule for each field, in the order in which `read_job` reads them. The enumerations are
  -- checked after they are read, the lists before their elements are.
  simp only [check_job_lists, bind_assoc]
  refine Reads.field (ReadsAs.layout (by decide) _) ?_
  refine Reads.field (ReadsAs.id h.id) ?_
  refine Reads.field (ReadsAs.id h.generation) ?_
  refine Reads.field (ReadsAs.id h.revision) ?_
  refine Reads.field (ReadsAs.str (by decide) job.title) ?_
  refine Reads.field (ReadsAs.str (by decide) job.reason) ?_
  refine Reads.guarded (ReadsAs.target_list h.targets _) ?_
  refine Reads.guarded (ReadsAs.target_list h.removal_set _) ?_
  refine Reads.guarded (ReadsAs.id_list h.depends_on _ _) ?_
  refine Reads.guarded (ReadsAs.id_list h.window_filter _ _) ?_
  refine Reads.field (ReadsAs.u32 h.priority) ?_
  refine Reads.field (ReadsAs.i64 h.estimated_duration) ?_
  refine Reads.field (ReadsAs.boolean _) ?_
  refine Reads.field (ReadsAs.id h.requestor) ?_
  refine Reads.field (ReadsAs.u32 (by omega)) ?_
  refine Reads.pass (ReadsAs.accepts (by simpa using hstate) _) ?_
  refine Reads.field (ReadsAs.u32 (by omega)) ?_
  refine Reads.pass (ReadsAs.accepts (by simpa using hblock) _) ?_
  refine Reads.field (ReadsAs.str (by decide) job.block_detail) ?_
  refine Reads.field (ReadsAs.str (by decide) job.last_detail) ?_
  refine Reads.field (ReadsAs.id h.policy_revision) ?_
  refine Reads.field (ReadsAs.id h.topology_revision) ?_
  refine Reads.field (ReadsAs.digest _) ?_
  refine Reads.field (ReadsAs.digest _) ?_
  refine Reads.field (ReadsAs.id h.authority) ?_
  refine Reads.field (ReadsAs.id h.lease) ?_
  refine Reads.field (ReadsAs.attempt_id h.active_attempt) ?_
  refine Reads.field (ReadsAs.id h.next_attempt) ?_
  refine Reads.guarded (ReadsAs.list_ok h.attempts.1
    (fun a ha => ReadsAs.attempt (h.attempts.2 a ha)) _ _) ?_
  refine Reads.guarded (ReadsAs.list_ok h.history.1
    (fun e he => ReadsAs.history_entry (h.history.2 e he)) _ _) ?_
  refine Reads.field (ReadsAs.u32 h.history_dropped) ?_
  refine Reads.field (ReadsAs.boolean _) ?_
  refine Reads.field (ReadsAs.boolean _) ?_
  refine Reads.field (ReadsAs.boolean _) ?_
  refine Reads.field (ReadsAs.str (by decide) job.approved_by) ?_
  refine Reads.field (ReadsAs.i64 h.created_at) ?_
  refine Reads.field (ReadsAs.i64 h.updated_at) ?_
  refine Reads.field (ReadsAs.i64 h.started_at) ?_
  refine Reads.field (ReadsAs.i64 h.completed_at) ?_
  refine Reads.field (ReadsAs.i64 h.preconditions_at) ?_
  refine Reads.field (ReadsAs.digest _) ?_
  refine Reads.field (ReadsAs.id h.preconditions_policy_revision) ?_
  refine Reads.field (ReadsAs.id h.preconditions_topology_revision) ?_
  refine Reads.field (ReadsAs.boolean _) ?_
  refine Reads.field (ReadsAs.u32 h.verification_passes) ?_
  refine Reads.field (ReadsAs.u32 h.verification_failures) ?_
  refine Reads.field (ReadsAs.u32 h.restoration_failures) ?_
  refine Reads.field (ReadsAs.u32 h.drain_failures) ?_
  refine Reads.field (ReadsAs.i64 h.verification_started_at) ?_
  refine Reads.field (ReadsAs.i64 h.restoration_started_at) ?_
  refine Reads.field (ReadsAs.boolean _) ?_
  refine Reads.field (ReadsAs.boolean _) ?_
  refine Reads.field (ReadsAs.id h.window) ?_
  refine Reads.field (ReadsAs.u32 hclose) ?_
  refine Reads.pass (ReadsAs.accepts hpolicy _) ?_
  refine Reads.field (ReadsAs.i64 h.window_closes_at) ?_
  refine Reads.field (ReadsAs.incarnation h.owner) ?_
  simp only [JobState.ofCode_code, BlockReason.ofCode_code, OnWindowClose.ofCode_code,
    UInt64.ofNat_toNat]
  exact Reads.pure (clipped_job job)

/-- A job record decodes to the recorded image of the job. -/
theorem decode_encode_job {job : MaintenanceJob} (h : job.machine) :
    decode_job_record (encode_job_record job) = recorded_job job := by
  have hread := (ReadsAs.job h).decode
    (corrupt (text "job record is malformed or has trailing bytes"))
  rw [← encode_job_record_payload] at hread
  simp only [decode_job_record,
    refuse_if_type (show (encode_job_record job).type = .Job from rfl), hread, recorded_job,
    check_job_record, check_job_lists, bind_assoc, Result.ok_bind, clipped_job]

end MaintenanceFabric
