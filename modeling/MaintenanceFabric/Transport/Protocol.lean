import MaintenanceFabric.Store.Entry

/-! # RPC bodies

    The bodies that travel inside transport frames: an envelope with an opcode,
    and one encoder and one decoder for each typed body.  The pieces are those
    of the record codecs; a body differs in its layout word, in the bound on
    every list, and in what it leaves out of the value it stands for.

    A body is *sendable* when its strings and lists are within the bounds its
    codec names and the identities its decoder insists on are valid.
-/

namespace MaintenanceFabric

open Lib

namespace Transport

def kEnvelopeLayout : Nat := 1
def kBodyLayout : Nat := 1

/-! ## Pieces -/

def write_target : ByteWriter → TargetId → ByteWriter := write_target_id
def read_target : Reader TargetId := read_target_id

/-- `write_attempt` and `write_incarnation` repeat the ones of the record codecs. -/
def write_attempt : ByteWriter → AttemptId → ByteWriter := write_attempt_id
def read_attempt : Reader AttemptId := read_attempt_id

@[simp] theorem write_target_buffer (w : ByteWriter) (id : TargetId) :
    (write_target w id).buffer = w.buffer ++ target_bytes id :=
  write_target_id_buffer w id

@[simp] theorem write_targets_buffer (w : ByteWriter) (l : List TargetId) :
    (write_list write_target w l).buffer = w.buffer ++ list_bytes target_bytes l :=
  write_list_buffer write_target_buffer w l

@[simp] theorem write_attempt_buffer (w : ByteWriter) (id : AttemptId) :
    (write_attempt w id).buffer = w.buffer ++ attempt_bytes id :=
  write_attempt_id_buffer w id

/-- `if (reader.u16() != kBodyLayout) return error;` -/
def read_body_layout (unsupported : Error) : Reader Unit := do
  let layout ← Reader.u16
  Reader.refuse (layout ≠ kBodyLayout) unsupported

theorem reads_body_layout (unsupported : Error) :
    ReadsAs (read_body_layout unsupported) (u16Bytes kBodyLayout) (.ok ()) := by
  have hread : ReadsAs (read_body_layout unsupported) [u16Bytes kBodyLayout].flatten (.ok ()) := by
    refine Reads.field (ReadsAs.u16 (by decide)) ?_
    exact ReadsAs.accepts (by decide) unsupported
  simpa using hread

/-! ## Envelope -/

structure RpcEnvelope where
  op : Nat := 0
  message : Text := []
  body : Text := []
  deriving DecidableEq, Repr

def encode_envelope (envelope : RpcEnvelope) : Text :=
  let w := (({} : ByteWriter).u16 kEnvelopeLayout).u16 envelope.op
  ((w.str envelope.message limits.kMaxDetailLength).blob envelope.body limits.kMaxFrameBytes).buffer

def read_envelope : Reader RpcEnvelope := do
  let layout ← Reader.u16
  Reader.refuse_unless_ok false (corrupt (text "rpc envelope is truncated"))
  Reader.refuse (layout ≠ kEnvelopeLayout) (make_error .VersionMismatch
    (text "rpc envelope layout " ++ decimal layout ++ text " is not supported"))
  let op ← Reader.u16
  let message ← Reader.str limits.kMaxDetailLength
  let body ← Reader.blob limits.kMaxFrameBytes
  pure { op, message, body }

def decode_envelope : Text → Result RpcEnvelope :=
  read_envelope.decode (corrupt (text "rpc envelope is malformed"))

structure RpcEnvelope.sendable (e : RpcEnvelope) : Prop where
  op : e.op < 65536
  message : e.message.length ≤ limits.kMaxDetailLength
  body : e.body.length ≤ limits.kMaxFrameBytes

theorem decode_encode_envelope {e : RpcEnvelope} (h : e.sendable) :
    decode_envelope (encode_envelope e) = .ok e := by
  have hframe : limits.kMaxFrameBytes < u32_range := by decide
  have hbytes : encode_envelope e = [u16Bytes kEnvelopeLayout, u16Bytes e.op,
      strBytes limits.kMaxDetailLength e.message, u32Bytes e.body.length ++ e.body].flatten := by
    simp [encode_envelope, ByteWriter.str_buffer, ByteWriter.blob_buffer _ h.body hframe,
      kMaxDetailLength_le]
  rw [hbytes]
  apply ReadsAs.decode
  refine Reads.field (ReadsAs.u16 (by decide)) ?_
  refine Reads.pass (ReadsAs.healthy _) ?_
  refine Reads.pass (ReadsAs.accepts (by decide) _) ?_
  refine Reads.field (ReadsAs.u16 h.op) ?_
  refine Reads.field (ReadsAs.str_fit kMaxDetailLength_le h.message) ?_
  refine Reads.field (ReadsAs.blob hframe h.body) ?_
  exact Reads.pure e

/-! ## References and reports -/

def encode_actor (actor reason : Text) : Text :=
  let w := ({} : ByteWriter).u16 kBodyLayout
  ((w.str actor limits.kMaxNameLength).str reason limits.kMaxReasonLength).buffer

def decode_actor : Text → Result (Text × Text) :=
  Reader.decode (do
    read_body_layout (corrupt (text "actor body layout is not supported"))
    let actor ← Reader.str limits.kMaxNameLength
    let reason ← Reader.str limits.kMaxReasonLength
    pure (actor, reason)) (corrupt (text "actor body is malformed"))

theorem decode_encode_actor {actor reason : Text} (hactor : actor.length ≤ limits.kMaxNameLength)
    (hreason : reason.length ≤ limits.kMaxReasonLength) :
    decode_actor (encode_actor actor reason) = .ok (actor, reason) := by
  have hbytes : encode_actor actor reason = [u16Bytes kBodyLayout,
      strBytes limits.kMaxNameLength actor, strBytes limits.kMaxReasonLength reason].flatten := by
    simp [encode_actor, ByteWriter.str_buffer, kMaxNameLength_le, kMaxReasonLength_le]
  rw [hbytes]
  apply ReadsAs.decode
  refine Reads.field (reads_body_layout _) ?_
  refine Reads.field (ReadsAs.str_fit kMaxNameLength_le hactor) ?_
  refine Reads.field (ReadsAs.str_fit kMaxReasonLength_le hreason) ?_
  exact Reads.pure (actor, reason)

def encode_job_ref (job : JobId) (note : Text) : Text :=
  ((({} : ByteWriter).u16 kBodyLayout).u64 job.value |>.str note limits.kMaxReasonLength).buffer

def decode_job_ref : Text → Result (JobId × Text) :=
  Reader.decode (do
    read_body_layout (corrupt (text "job reference layout is not supported"))
    let job ← Reader.id
    let note ← Reader.str limits.kMaxReasonLength
    pure (job, note)) (corrupt (text "job reference is malformed"))

theorem decode_encode_job_ref {job : JobId} {note : Text} (hjob : job.machine)
    (hnote : note.length ≤ limits.kMaxReasonLength) :
    decode_job_ref (encode_job_ref job note) = .ok (job, note) := by
  have hbytes : encode_job_ref job note = [u16Bytes kBodyLayout, u64Bytes job.value,
      strBytes limits.kMaxReasonLength note].flatten := by
    simp [encode_job_ref, ByteWriter.str_buffer, kMaxReasonLength_le]
  rw [hbytes]
  apply ReadsAs.decode
  refine Reads.field (reads_body_layout _) ?_
  refine Reads.field (ReadsAs.id hjob) ?_
  refine Reads.field (ReadsAs.str_fit kMaxReasonLength_le hnote) ?_
  exact Reads.pure (job, note)

/-- An identity, who acts on it, and why: the body of `job-actor` and of `quarantine-clear`. -/
def encode_id_actor {tag : IdTag} (id : StrongId tag) (actor reason : Text) : Text :=
  let w := (({} : ByteWriter).u16 kBodyLayout).u64 id.value
  ((w.str actor limits.kMaxNameLength).str reason limits.kMaxReasonLength).buffer

def read_id_actor {tag : IdTag} (unsupported : Error) : Reader (StrongId tag × Text × Text) := do
  read_body_layout unsupported
  let id ← Reader.id
  let actor ← Reader.str limits.kMaxNameLength
  let reason ← Reader.str limits.kMaxReasonLength
  pure (id, actor, reason)

def decode_id_actor {tag : IdTag} (unsupported malformed : Error) (bytes : Text) :
    Result (StrongId tag × Text × Text) := do
  let (id, actor, reason) ← (read_id_actor unsupported).decode malformed bytes
  refuse_if (!id.valid) malformed
  .ok (id, actor, reason)

theorem decode_encode_id_actor {tag : IdTag} {id : StrongId tag} {actor reason : Text}
    (hid : id.machine) (hvalid : id.valid = true) (hactor : actor.length ≤ limits.kMaxNameLength)
    (hreason : reason.length ≤ limits.kMaxReasonLength) (unsupported malformed : Error) :
    decode_id_actor unsupported malformed (encode_id_actor id actor reason) =
      .ok (id, actor, reason) := by
  have hbytes : encode_id_actor id actor reason = [u16Bytes kBodyLayout, u64Bytes id.value,
      strBytes limits.kMaxNameLength actor, strBytes limits.kMaxReasonLength reason].flatten := by
    simp [encode_id_actor, ByteWriter.str_buffer, kMaxNameLength_le, kMaxReasonLength_le]
  have hread : ReadsAs (read_id_actor unsupported) (encode_id_actor id actor reason)
      (.ok (id, actor, reason)) := by
    rw [hbytes]
    refine Reads.field (reads_body_layout _) ?_
    refine Reads.field (ReadsAs.id hid) ?_
    refine Reads.field (ReadsAs.str_fit kMaxNameLength_le hactor) ?_
    refine Reads.field (ReadsAs.str_fit kMaxReasonLength_le hreason) ?_
    exact Reads.pure (id, actor, reason)
  rw [decode_id_actor, hread.decode]
  simp [Result.ok_bind, hvalid, refuse_if, ok_status]

def encode_job_actor (job : JobId) (actor reason : Text) : Text := encode_id_actor job actor reason

def decode_job_actor : Text → Result (JobId × Text × Text) :=
  decode_id_actor (corrupt (text "job-actor body layout is not supported"))
    (corrupt (text "job-actor body is malformed"))

def encode_quarantine_clear (id : QuarantineId) (actor justification : Text) : Text :=
  encode_id_actor id actor justification

def decode_quarantine_clear : Text → Result (QuarantineId × Text × Text) :=
  decode_id_actor (corrupt (text "quarantine-clear body layout is not supported"))
    (corrupt (text "quarantine-clear body is malformed"))

def encode_completion_report (job : JobId) (attempt : AttemptId)
    (succeeded : Bool) (detail : Text) :
    Text :=
  let w := write_attempt ((({} : ByteWriter).u16 kBodyLayout).u64 job.value) attempt
  ((w.boolean succeeded).str detail limits.kMaxDetailLength).buffer

def read_completion_report : Reader (JobId × AttemptId × Bool × Text) := do
  read_body_layout (corrupt (text "completion report layout is not supported"))
  let job ← Reader.id
  let attempt ← read_attempt
  let succeeded ← Reader.boolean
  let detail ← Reader.str limits.kMaxDetailLength
  pure (job, attempt, succeeded, detail)

def decode_completion_report (bytes : Text) : Result (JobId × AttemptId × Bool × Text) := do
  let malformed := corrupt (text "completion report is malformed")
  let (job, attempt, succeeded, detail) ← read_completion_report.decode malformed bytes
  refuse_if (!attempt.valid || !job.valid) malformed
  .ok (job, attempt, succeeded, detail)

theorem decode_encode_completion_report {job : JobId} {attempt : AttemptId} (succeeded : Bool)
    {detail : Text} (hjob : job.machine) (hattempt : attempt.machine)
    (hvalid : job.valid = true ∧ attempt.valid = true)
    (hdetail : detail.length ≤ limits.kMaxDetailLength) :
    decode_completion_report (encode_completion_report job attempt succeeded detail) =
      .ok (job, attempt, succeeded, detail) := by
  have hbytes : encode_completion_report job attempt succeeded detail = [u16Bytes kBodyLayout,
      u64Bytes job.value, attempt_bytes attempt, boolBytes succeeded,
      strBytes limits.kMaxDetailLength detail].flatten := by
    simp [encode_completion_report, ByteWriter.str_buffer, kMaxDetailLength_le]
  have hread : ReadsAs read_completion_report
      (encode_completion_report job attempt succeeded detail)
      (.ok (job, attempt, succeeded, detail)) := by
    rw [hbytes]
    refine Reads.field (reads_body_layout _) ?_
    refine Reads.field (ReadsAs.id hjob) ?_
    refine Reads.field (ReadsAs.attempt_id hattempt) ?_
    refine Reads.field (ReadsAs.boolean succeeded) ?_
    refine Reads.field (ReadsAs.str_fit kMaxDetailLength_le hdetail) ?_
    exact Reads.pure (job, attempt, succeeded, detail)
  simp [decode_completion_report, hread.decode, Result.ok_bind, hvalid, refuse_if, ok_status]

def encode_restoration_report (job : JobId) (attempt : AttemptId) (target : TargetId) (ok : Bool)
    (detail : Text) : Text :=
  let w := write_attempt ((({} : ByteWriter).u16 kBodyLayout).u64 job.value) attempt
  (((write_target w target).boolean ok).str detail limits.kMaxDetailLength).buffer

def read_restoration_report : Reader (JobId × AttemptId × TargetId × Bool × Text) := do
  read_body_layout (corrupt (text "restoration report layout is not supported"))
  let job ← Reader.id
  let attempt ← read_attempt
  let target ← read_target
  let ok ← Reader.boolean
  let detail ← Reader.str limits.kMaxDetailLength
  pure (job, attempt, target, ok, detail)

def decode_restoration_report (bytes : Text) :
    Result (JobId × AttemptId × TargetId × Bool × Text) := do
  let malformed := corrupt (text "restoration report is malformed")
  let (job, attempt, target, ok, detail) ← read_restoration_report.decode malformed bytes
  refuse_if (!attempt.valid || !target.valid || !job.valid) malformed
  .ok (job, attempt, target, ok, detail)

theorem decode_encode_restoration_report {job : JobId} {attempt : AttemptId} {target : TargetId}
    (ok : Bool) {detail : Text} (hjob : job.machine) (hattempt : attempt.machine)
    (htarget : target.machine)
    (hvalid : job.valid = true ∧ attempt.valid = true ∧ target.valid = true)
    (hdetail : detail.length ≤ limits.kMaxDetailLength) :
    decode_restoration_report (encode_restoration_report job attempt target ok detail) =
      .ok (job, attempt, target, ok, detail) := by
  have hbytes : encode_restoration_report job attempt target ok detail = [u16Bytes kBodyLayout,
      u64Bytes job.value, attempt_bytes attempt, target_bytes target, boolBytes ok,
      strBytes limits.kMaxDetailLength detail].flatten := by
    simp [encode_restoration_report, ByteWriter.str_buffer, kMaxDetailLength_le]
  have hread : ReadsAs read_restoration_report
      (encode_restoration_report job attempt target ok detail)
      (.ok (job, attempt, target, ok, detail)) := by
    rw [hbytes]
    refine Reads.field (reads_body_layout _) ?_
    refine Reads.field (ReadsAs.id hjob) ?_
    refine Reads.field (ReadsAs.attempt_id hattempt) ?_
    refine Reads.field (ReadsAs.target_id htarget) ?_
    refine Reads.field (ReadsAs.boolean ok) ?_
    refine Reads.field (ReadsAs.str_fit kMaxDetailLength_le hdetail) ?_
    exact Reads.pure (job, attempt, target, ok, detail)
  simp [decode_restoration_report, hread.decode, Result.ok_bind, hvalid, refuse_if, ok_status]

/-! ## Maintenance requests -/

def encode_request_body (request : MaintenanceRequest) : Text :=
  let w := (({} : ByteWriter).u16 kBodyLayout).str request.title limits.kMaxTitleLength
  let w := write_list write_target (w.str request.reason limits.kMaxReasonLength) request.targets
  let w := write_list (fun w id => w.u64 id.value) w request.depends_on
  let w := write_list (fun w id => w.u64 id.value) w request.window_filter
  let w := ((w.u32 request.priority).i64 request.estimated_duration).boolean request.requires_drain
  (w.u64 request.requestor.value).buffer

/-- A target of a request, which has to be valid. -/
def read_request_target : Reader TargetId := do
  let target ← read_target
  Reader.refuse (!target.valid) (corrupt (text "request body carries an invalid target"))
  pure target

def read_request : Reader MaintenanceRequest := do
  read_body_layout (corrupt (text "request body layout is not supported"))
  let title ← Reader.str limits.kMaxTitleLength
  let reason ← Reader.str limits.kMaxReasonLength
  let targets ← read_list limits.kMaxTargetsPerJob
    (make_error .LimitExceeded (text "request body declares too many targets")) read_request_target
  let depends_on ← read_list limits.kMaxDependenciesPerJob
    (make_error .LimitExceeded (text "request body declares too many dependencies")) Reader.id
  let window_filter ← read_list limits.kMaxWindowRules
    (make_error .LimitExceeded (text "request body declares too many windows")) Reader.id
  let priority ← Reader.u32
  let estimated_duration ← Reader.i64
  let requires_drain ← Reader.boolean
  let requestor ← Reader.id
  pure { title, reason, targets, depends_on, window_filter, priority, estimated_duration
         requires_drain, requestor }

def decode_request_body : Text → Result MaintenanceRequest :=
  read_request.decode (corrupt (text "request body is malformed"))

structure sendable_request (r : MaintenanceRequest) : Prop where
  title : r.title.length ≤ limits.kMaxTitleLength
  reason : r.reason.length ≤ limits.kMaxReasonLength
  targets : r.targets.length ≤ limits.kMaxTargetsPerJob
  target : ∀ t ∈ r.targets, t.machine ∧ t.valid = true
  depends_on : r.depends_on.length ≤ limits.kMaxDependenciesPerJob
  dependency : ∀ id ∈ r.depends_on, id.machine
  window_filter : r.window_filter.length ≤ limits.kMaxWindowRules
  window : ∀ id ∈ r.window_filter, id.machine
  priority : r.priority < u32_range
  estimated_duration : i64_range r.estimated_duration
  requestor : r.requestor.machine

theorem reads_request_target {id : TargetId} (h : id.machine ∧ id.valid = true) :
    ReadsAs read_request_target (target_bytes id) (.ok id) := by
  have hread : ReadsAs read_request_target [target_bytes id].flatten (.ok id) := by
    refine Reads.field (ReadsAs.target_id h.1) ?_
    refine Reads.pass (ReadsAs.accepts (by simp [h.2]) _) ?_
    exact Reads.pure id
  simpa using hread

theorem decode_encode_request {r : MaintenanceRequest} (h : sendable_request r) :
    decode_request_body (encode_request_body r) = .ok r := by
  have hbytes : encode_request_body r = [u16Bytes kBodyLayout,
      strBytes limits.kMaxTitleLength r.title, strBytes limits.kMaxReasonLength r.reason,
      list_bytes target_bytes r.targets, list_bytes (fun id => u64Bytes id.value) r.depends_on,
      list_bytes (fun id => u64Bytes id.value) r.window_filter, u32Bytes r.priority,
      i64Bytes r.estimated_duration, boolBytes r.requires_drain,
      u64Bytes r.requestor.value].flatten := by
    simp [encode_request_body, ByteWriter.str_buffer, kMaxTitleLength_le, kMaxReasonLength_le]
  rw [hbytes]
  apply ReadsAs.decode
  refine Reads.field (reads_body_layout _) ?_
  refine Reads.field (ReadsAs.str_fit kMaxTitleLength_le h.title) ?_
  refine Reads.field (ReadsAs.str_fit kMaxReasonLength_le h.reason) ?_
  refine Reads.field (ReadsAs.list_fit (by decide) h.targets
    (fun t ht => reads_request_target (h.target t ht)) _) ?_
  refine Reads.field (ReadsAs.list_fit (by decide) h.depends_on
    (fun id hid => ReadsAs.id (h.dependency id hid)) _) ?_
  refine Reads.field (ReadsAs.list_fit (by decide) h.window_filter
    (fun id hid => ReadsAs.id (h.window id hid)) _) ?_
  refine Reads.field (ReadsAs.u32 h.priority) ?_
  refine Reads.field (ReadsAs.i64 h.estimated_duration) ?_
  refine Reads.field (ReadsAs.boolean _) ?_
  refine Reads.field (ReadsAs.id h.requestor) ?_
  exact Reads.pure r

/-! ## Job snapshots -/

def encode_snapshot (snapshot : JobSnapshot) : Text :=
  let w := ((({} : ByteWriter).u16 kBodyLayout).u64 snapshot.id.value).u64 snapshot.generation.value
  let w := ((w.u64 snapshot.revision.value).u32 snapshot.state.code).u32 snapshot.block.code
  let w := write_list write_target (w.str snapshot.block_detail limits.kMaxDetailLength)
    snapshot.targets
  let w := ((w.u32 snapshot.priority).boolean snapshot.service_removed).boolean snapshot.overrun
  let w := (w.u64 snapshot.authority.value).u64 snapshot.lease.value
  ((write_attempt w snapshot.active_attempt).i64 snapshot.created_at |>.i64
    snapshot.updated_at).buffer

def read_snapshot : Reader JobSnapshot := do
  read_body_layout (corrupt (text "snapshot layout is not supported"))
  let id ← Reader.id
  let generation ← Reader.id
  let revision ← Reader.id
  let state ← Reader.u32
  let block ← Reader.u32
  Reader.refuse (state ≥ kJobStateCount ∨ block ≥ kBlockReasonCount)
    (corrupt (text "snapshot carries an unknown enumeration"))
  let block_detail ← Reader.str limits.kMaxDetailLength
  let targets ← read_list limits.kMaxTargetsPerJob
    (make_error .LimitExceeded (text "snapshot declares too many targets")) read_target
  let priority ← Reader.u32
  let service_removed ← Reader.boolean
  let overrun ← Reader.boolean
  let authority ← Reader.id
  let lease ← Reader.id
  let active_attempt ← read_attempt
  let created_at ← Reader.i64
  let updated_at ← Reader.i64
  pure { id, generation, revision, state := JobState.ofCode state, block := BlockReason.ofCode block
         block_detail, targets, priority, service_removed, overrun, authority, lease
         active_attempt, created_at, updated_at }

def decode_snapshot : Text → Result JobSnapshot :=
  read_snapshot.decode (corrupt (text "snapshot is malformed"))

structure sendable_snapshot (s : JobSnapshot) : Prop where
  id : s.id.machine
  generation : s.generation.machine
  revision : s.revision.machine
  block_detail : s.block_detail.length ≤ limits.kMaxDetailLength
  targets : s.targets.length ≤ limits.kMaxTargetsPerJob
  target : ∀ t ∈ s.targets, t.machine
  priority : s.priority < u32_range
  authority : s.authority.machine
  lease : s.lease.machine
  active_attempt : s.active_attempt.machine
  created_at : i64_range s.created_at
  updated_at : i64_range s.updated_at

def snapshot_fields (s : JobSnapshot) : List Text :=
  [u16Bytes kBodyLayout, u64Bytes s.id.value, u64Bytes s.generation.value,
   u64Bytes s.revision.value, u32Bytes s.state.code, u32Bytes s.block.code,
   strBytes limits.kMaxDetailLength s.block_detail, list_bytes target_bytes s.targets,
   u32Bytes s.priority, boolBytes s.service_removed, boolBytes s.overrun,
   u64Bytes s.authority.value, u64Bytes s.lease.value, attempt_bytes s.active_attempt,
   i64Bytes s.created_at, i64Bytes s.updated_at]

theorem encode_snapshot_eq (s : JobSnapshot) : encode_snapshot s = (snapshot_fields s).flatten := by
  simp [encode_snapshot, snapshot_fields, ByteWriter.str_buffer, kMaxDetailLength_le]

/-- A snapshot fits the blob of a list many times over. -/
theorem encode_snapshot_length_le {s : JobSnapshot} (h : sendable_snapshot s) :
    (encode_snapshot s).length ≤ limits.kMaxFrameBytes / 2 := by
  have hdetail := strBytes_length_le limits.kMaxDetailLength s.block_detail
  have htargets := h.targets
  rw [encode_snapshot_eq]
  simp only [snapshot_fields, List.flatten_cons, List.flatten_nil, List.length_append,
    List.length_nil, u16Bytes_length, u32Bytes_length, u64Bytes_length, i64Bytes_length,
    boolBytes_length, target_list_length, attempt_bytes_length, words_size]
  have hsizes : limits.kMaxDetailLength = 1024 ∧ limits.kMaxTargetsPerJob = 4096 ∧
      limits.kMaxFrameBytes / 2 = 524288 := by decide
  omega

theorem decode_encode_snapshot {s : JobSnapshot} (h : sendable_snapshot s) :
    decode_snapshot (encode_snapshot s) = .ok s := by
  have hstate := s.state.code_lt
  have hblock := s.block.code_lt
  have hstates : kJobStateCount < u32_range := by decide
  have hreasons : kBlockReasonCount < u32_range := by decide
  have hknown : decide (s.state.code ≥ kJobStateCount ∨ s.block.code ≥ kBlockReasonCount) =
    false := by
    rw [decide_eq_false_iff_not]
    omega
  have hread : ReadsAs read_snapshot (snapshot_fields s).flatten (.ok s) := by
    refine Reads.field (reads_body_layout _) ?_
    refine Reads.field (ReadsAs.id h.id) ?_
    refine Reads.field (ReadsAs.id h.generation) ?_
    refine Reads.field (ReadsAs.id h.revision) ?_
    refine Reads.field (ReadsAs.u32 (by omega)) ?_
    refine Reads.field (ReadsAs.u32 (by omega)) ?_
    refine Reads.pass (ReadsAs.accepts hknown _) ?_
    refine Reads.field (ReadsAs.str_fit kMaxDetailLength_le h.block_detail) ?_
    refine Reads.field (ReadsAs.list_fit (by decide) h.targets
      (fun t ht => ReadsAs.target_id (h.target t ht)) _) ?_
    refine Reads.field (ReadsAs.u32 h.priority) ?_
    refine Reads.field (ReadsAs.boolean _) ?_
    refine Reads.field (ReadsAs.boolean _) ?_
    refine Reads.field (ReadsAs.id h.authority) ?_
    refine Reads.field (ReadsAs.id h.lease) ?_
    refine Reads.field (ReadsAs.attempt_id h.active_attempt) ?_
    refine Reads.field (ReadsAs.i64 h.created_at) ?_
    refine Reads.field (ReadsAs.i64 h.updated_at) ?_
    rw [JobState.ofCode_code, BlockReason.ofCode_code]
    exact Reads.pure s
  rw [encode_snapshot_eq]
  exact hread.decode _

/-- A list is cut at the bound its decoder accepts. -/
def encode_snapshot_list (snapshots : List JobSnapshot) : Text :=
  (write_list (fun w s => w.blob (encode_snapshot s) (limits.kMaxFrameBytes / 2))
    (({} : ByteWriter).u16 kBodyLayout) (snapshots.take limits.kMaxJobsPerArbitration)).buffer

/-- An element of a list: a blob that holds a snapshot. -/
def read_snapshot_entry : Reader JobSnapshot := do
  let blob ← Reader.blob (limits.kMaxFrameBytes / 2)
  Reader.refuse_unless_ok false (corrupt (text "snapshot list is malformed"))
  Reader.lift (decode_snapshot blob)

def decode_snapshot_list : Text → Result (List JobSnapshot) :=
  Reader.decode (do
    read_body_layout (corrupt (text "snapshot list layout is not supported"))
    read_list limits.kMaxJobsPerArbitration
      (make_error .LimitExceeded (text "snapshot list declares too many entries"))
      read_snapshot_entry) (corrupt (text "snapshot list has trailing bytes"))

theorem reads_snapshot_entry {s : JobSnapshot} (h : sendable_snapshot s) :
    ReadsAs read_snapshot_entry (blobBytes (limits.kMaxFrameBytes / 2) (encode_snapshot s))
      (.ok s) := by
  have hfit := encode_snapshot_length_le h
  have hread : ReadsAs read_snapshot_entry
      [u32Bytes (encode_snapshot s).length ++ encode_snapshot s].flatten (.ok s) := by
    refine Reads.field (ReadsAs.blob (by decide) hfit) ?_
    refine Reads.pass (ReadsAs.healthy _) ?_
    rw [← decode_encode_snapshot h]
    exact ReadsAs.lift _
  rw [List.flatten_cons, List.flatten_nil, List.append_nil] at hread
  rwa [blobBytes, clip_of_le hfit]

theorem decode_encode_snapshot_list {l : List JobSnapshot}
    (hlen : l.length ≤ limits.kMaxJobsPerArbitration) (h : ∀ s ∈ l, sendable_snapshot s) :
    decode_snapshot_list (encode_snapshot_list l) = .ok l := by
  have hbytes : encode_snapshot_list l = [u16Bytes kBodyLayout,
      list_bytes
        (fun s => blobBytes (limits.kMaxFrameBytes / 2) (encode_snapshot s)) l].flatten := by
    rw [encode_snapshot_list, List.take_of_length_le hlen,
      write_list_buffer (fun w s => ByteWriter.blob_clipped w (encode_snapshot s) (by decide))]
    simp
  rw [hbytes]
  apply ReadsAs.decode
  refine Reads.field (reads_body_layout _) ?_
  rw [List.flatten_cons, List.flatten_nil, List.append_nil]
  exact ReadsAs.list_fit (by decide) hlen (fun s hs => reads_snapshot_entry (h s hs)) _

/-! ## Drains -/

def encode_drain_request_body (request : DrainRequest) : Text :=
  let w := ((({} : ByteWriter).u16 kBodyLayout).u64 request.job.value).u64 request.generation.value
  let w := write_list write_target (write_attempt w request.attempt) request.targets
  let w := (w.i64 request.lease_duration).str request.reason limits.kMaxReasonLength
  (write_incarnation w request.requester).buffer

def read_drain_request : Reader DrainRequest := do
  read_body_layout (corrupt (text "drain request layout is not supported"))
  let job ← Reader.id
  let generation ← Reader.id
  let attempt ← read_attempt
  let targets ← read_list limits.kMaxDrainTargetsPerRequest
    (make_error .LimitExceeded (text "drain request declares too many targets")) read_target
  let lease_duration ← Reader.i64
  let reason ← Reader.str limits.kMaxReasonLength
  let requester ← read_incarnation
  pure { job, generation, attempt, targets, lease_duration, reason, requester }

def decode_drain_request_body : Text → Result DrainRequest :=
  read_drain_request.decode (corrupt (text "drain request is malformed"))

structure sendable_drain_request (r : DrainRequest) : Prop where
  job : r.job.machine
  generation : r.generation.machine
  attempt : r.attempt.machine
  targets : r.targets.length ≤ limits.kMaxDrainTargetsPerRequest
  target : ∀ t ∈ r.targets, t.machine
  lease_duration : i64_range r.lease_duration
  reason : r.reason.length ≤ limits.kMaxReasonLength
  requester : r.requester.machine

theorem decode_encode_drain_request {r : DrainRequest} (h : sendable_drain_request r) :
    decode_drain_request_body (encode_drain_request_body r) = .ok r := by
  have hbytes : encode_drain_request_body r = [u16Bytes kBodyLayout, u64Bytes r.job.value,
      u64Bytes r.generation.value, attempt_bytes r.attempt, list_bytes target_bytes r.targets,
      i64Bytes r.lease_duration, strBytes limits.kMaxReasonLength r.reason,
      incarnation_bytes r.requester].flatten := by
    simp [encode_drain_request_body, ByteWriter.str_buffer, kMaxReasonLength_le]
  rw [hbytes]
  apply ReadsAs.decode
  refine Reads.field (reads_body_layout _) ?_
  refine Reads.field (ReadsAs.id h.job) ?_
  refine Reads.field (ReadsAs.id h.generation) ?_
  refine Reads.field (ReadsAs.attempt_id h.attempt) ?_
  refine Reads.field (ReadsAs.list_fit (by decide) h.targets
    (fun t ht => ReadsAs.target_id (h.target t ht)) _) ?_
  refine Reads.field (ReadsAs.i64 h.lease_duration) ?_
  refine Reads.field (ReadsAs.str_fit kMaxReasonLength_le h.reason) ?_
  refine Reads.field (ReadsAs.incarnation h.requester) ?_
  exact Reads.pure r

def encode_drain_lease_body (lease : DrainLease) : Text :=
  let w := write_list write_target ((({} : ByteWriter).u16 kBodyLayout).u64 lease.id.value)
    lease.targets
  let w := write_attempt (((w.i64 lease.granted_at).i64 lease.expires_at).u32 lease.state.code)
    lease.attempt
  ((write_incarnation w lease.owner).u64 lease.epoch).buffer

def read_drain_lease : Reader DrainLease := do
  read_body_layout (corrupt (text "drain lease layout is not supported"))
  let id ← Reader.id
  let targets ← read_list limits.kMaxDrainTargetsPerRequest
    (make_error .LimitExceeded (text "drain lease declares too many targets")) read_target
  let granted_at ← Reader.i64
  let expires_at ← Reader.i64
  let state ← Reader.u32
  Reader.refuse (state > DrainState.NotFound.code)
    (corrupt (text "drain lease carries an unknown state"))
  let attempt ← read_attempt
  let owner ← read_incarnation
  let epoch ← Reader.u64
  pure { id, targets, granted_at, expires_at,
         state := DrainState.ofCode state, attempt, owner, epoch }

def decode_drain_lease_body : Text → Result DrainLease :=
  read_drain_lease.decode (corrupt (text "drain lease is malformed"))

structure sendable_lease (l : DrainLease) : Prop where
  id : l.id.machine
  targets : l.targets.length ≤ limits.kMaxDrainTargetsPerRequest
  target : ∀ t ∈ l.targets, t.machine
  granted_at : i64_range l.granted_at
  expires_at : i64_range l.expires_at
  attempt : l.attempt.machine
  owner : l.owner.machine
  epoch : l.epoch < u64_range

theorem decode_encode_drain_lease {l : DrainLease} (h : sendable_lease l) :
    decode_drain_lease_body (encode_drain_lease_body l) = .ok l := by
  have hstate : l.state.code < u32_range := by cases l.state <;> decide
  have hknown : decide (l.state.code > DrainState.NotFound.code) = false := by
    cases l.state <;> decide
  have hbytes : encode_drain_lease_body l = [u16Bytes kBodyLayout, u64Bytes l.id.value,
      list_bytes target_bytes l.targets, i64Bytes l.granted_at, i64Bytes l.expires_at,
      u32Bytes l.state.code, attempt_bytes l.attempt, incarnation_bytes l.owner,
      u64Bytes l.epoch].flatten := by
    simp [encode_drain_lease_body]
  rw [hbytes]
  apply ReadsAs.decode
  refine Reads.field (reads_body_layout _) ?_
  refine Reads.field (ReadsAs.id h.id) ?_
  refine Reads.field (ReadsAs.list_fit (by decide) h.targets
    (fun t ht => ReadsAs.target_id (h.target t ht)) _) ?_
  refine Reads.field (ReadsAs.i64 h.granted_at) ?_
  refine Reads.field (ReadsAs.i64 h.expires_at) ?_
  refine Reads.field (ReadsAs.u32 hstate) ?_
  refine Reads.pass (ReadsAs.accepts hknown _) ?_
  refine Reads.field (ReadsAs.attempt_id h.attempt) ?_
  refine Reads.field (ReadsAs.incarnation h.owner) ?_
  refine Reads.field (ReadsAs.u64 h.epoch) ?_
  rw [DrainState.ofCode_code]
  exact Reads.pure l

def encode_drain_lease_ref (lease : DrainLeaseId) (requester : ControllerIncarnation)
    (extend : Nanos) : Text :=
  let w := write_incarnation ((({} : ByteWriter).u16 kBodyLayout).u64 lease.value) requester
  (w.i64 extend).buffer

def decode_drain_lease_ref : Text → Result (DrainLeaseId × ControllerIncarnation × Nanos) :=
  Reader.decode (do
    read_body_layout (corrupt (text "drain lease reference layout is not supported"))
    let lease ← Reader.id
    let requester ← read_incarnation
    let extend ← Reader.i64
    pure (lease, requester, extend)) (corrupt (text "drain lease reference is malformed"))

theorem decode_encode_drain_lease_ref {lease : DrainLeaseId} {requester : ControllerIncarnation}
    {extend : Nanos} (hlease : lease.machine) (hrequester : requester.machine)
    (hextend : i64_range extend) :
    decode_drain_lease_ref (encode_drain_lease_ref lease requester extend) =
      .ok (lease, requester, extend) := by
  have hbytes : encode_drain_lease_ref lease requester extend = [u16Bytes kBodyLayout,
      u64Bytes lease.value, incarnation_bytes requester, i64Bytes extend].flatten := by
    simp [encode_drain_lease_ref]
  rw [hbytes]
  apply ReadsAs.decode
  refine Reads.field (reads_body_layout _) ?_
  refine Reads.field (ReadsAs.id hlease) ?_
  refine Reads.field (ReadsAs.incarnation hrequester) ?_
  refine Reads.field (ReadsAs.i64 hextend) ?_
  exact Reads.pure (lease, requester, extend)

/-! ## Plain bodies -/

def encode_text_body (t : Text) : Text :=
  ((({} : ByteWriter).u16 kBodyLayout).blob t (limits.kMaxFrameBytes / 2)).buffer

def decode_text_body : Text → Result Text :=
  Reader.decode (do
    read_body_layout (corrupt (text "text body layout is not supported"))
    Reader.blob (limits.kMaxFrameBytes / 2)) (corrupt (text "text body is malformed"))

theorem decode_encode_text {t : Text} (h : t.length ≤ limits.kMaxFrameBytes / 2) :
    decode_text_body (encode_text_body t) = .ok t := by
  have hhalf : limits.kMaxFrameBytes / 2 < u32_range := by decide
  have hbytes : encode_text_body t = [u16Bytes kBodyLayout, u32Bytes t.length ++ t].flatten := by
    simp [encode_text_body, ByteWriter.blob_buffer _ h hhalf]
  rw [hbytes]
  apply ReadsAs.decode
  refine Reads.field (reads_body_layout _) ?_
  rw [List.flatten_cons, List.flatten_nil, List.append_nil]
  exact ReadsAs.blob hhalf h

def encode_i64_body (value : Int) : Text := ((({} : ByteWriter).u16 kBodyLayout).i64 value).buffer

def decode_i64_body : Text → Result Int :=
  Reader.decode (do
    read_body_layout (corrupt (text "integer body layout is not supported"))
    Reader.i64) (corrupt (text "integer body is malformed"))

theorem decode_encode_i64 {value : Int} (h : i64_range value) :
    decode_i64_body (encode_i64_body value) = .ok value := by
  have hbytes : encode_i64_body value = [u16Bytes kBodyLayout, i64Bytes value].flatten := by
    simp [encode_i64_body]
  rw [hbytes]
  apply ReadsAs.decode
  refine Reads.field (reads_body_layout _) ?_
  rw [List.flatten_cons, List.flatten_nil, List.append_nil]
  exact ReadsAs.i64 h

/-! ## All bodies -/

/-- The value of a body, by the codec it goes through. -/
inductive Body where
  | envelope (e : RpcEnvelope)
  | actor (actor reason : Text)
  | request (r : MaintenanceRequest)
  | job_ref (job : JobId) (note : Text)
  | snapshot (s : JobSnapshot)
  | snapshot_list (l : List JobSnapshot)
  | job_actor (job : JobId) (actor reason : Text)
  | quarantine_clear (id : QuarantineId) (actor justification : Text)
  | completion_report (job : JobId) (attempt : AttemptId) (succeeded : Bool) (detail : Text)
  | restoration_report (job : JobId) (attempt : AttemptId) (target : TargetId) (ok : Bool)
      (detail : Text)
  | drain_request (r : DrainRequest)
  | drain_lease (l : DrainLease)
  | drain_lease_ref (lease : DrainLeaseId) (requester : ControllerIncarnation) (extend : Nanos)
  | text_body (t : Text)
  | i64_body (value : Int)
  deriving DecidableEq

namespace Body

def encode : Body → Text
  | envelope e => encode_envelope e
  | actor who reason => encode_actor who reason
  | request r => encode_request_body r
  | job_ref job note => encode_job_ref job note
  | snapshot s => encode_snapshot s
  | snapshot_list l => encode_snapshot_list l
  | job_actor job who reason => encode_job_actor job who reason
  | quarantine_clear id who why => encode_quarantine_clear id who why
  | completion_report job attempt succeeded detail =>
      encode_completion_report job attempt succeeded detail
  | restoration_report job attempt target ok detail =>
      encode_restoration_report job attempt target ok detail
  | drain_request r => encode_drain_request_body r
  | drain_lease l => encode_drain_lease_body l
  | drain_lease_ref lease requester extend => encode_drain_lease_ref lease requester extend
  | text_body t => encode_text_body t
  | i64_body value => encode_i64_body value

/-- The decoder of the bodies that go through the same codec as `b`. -/
def decode (b : Body) (bytes : Text) : Result Body :=
  match b with
  | envelope _ => (decode_envelope bytes).map envelope
  | actor _ _ => (decode_actor bytes).map fun (who, reason) => actor who reason
  | request _ => (decode_request_body bytes).map request
  | job_ref _ _ => (decode_job_ref bytes).map fun (job, note) => job_ref job note
  | snapshot _ => (decode_snapshot bytes).map snapshot
  | snapshot_list _ => (decode_snapshot_list bytes).map snapshot_list
  | job_actor _ _ _ => (decode_job_actor bytes).map fun (job, who, reason) =>
    job_actor job who reason
  | quarantine_clear _ _ _ =>
      (decode_quarantine_clear bytes).map fun (id, who, why) => quarantine_clear id who why
  | completion_report _ _ _ _ => (decode_completion_report bytes).map
      fun (job, attempt, succeeded, detail) => completion_report job attempt succeeded detail
  | restoration_report _ _ _ _ _ => (decode_restoration_report bytes).map
      fun (job, attempt, target, ok, detail) => restoration_report job attempt target ok detail
  | drain_request _ => (decode_drain_request_body bytes).map drain_request
  | drain_lease _ => (decode_drain_lease_body bytes).map drain_lease
  | drain_lease_ref _ _ _ => (decode_drain_lease_ref bytes).map
      fun (lease, requester, extend) => drain_lease_ref lease requester extend
  | text_body _ => (decode_text_body bytes).map text_body
  | i64_body _ => (decode_i64_body bytes).map i64_body

/-- Within the bounds of its codec, with the identities its decoder insists on. -/
def sendable : Body → Prop
  | envelope e => e.sendable
  | actor who reason =>
      who.length ≤ limits.kMaxNameLength ∧ reason.length ≤ limits.kMaxReasonLength
  | request r => sendable_request r
  | job_ref job note => job.machine ∧ note.length ≤ limits.kMaxReasonLength
  | snapshot s => sendable_snapshot s
  | snapshot_list l => l.length ≤ limits.kMaxJobsPerArbitration ∧ ∀ s ∈ l, sendable_snapshot s
  | job_actor job who reason => (job.machine ∧ job.valid = true) ∧
      who.length ≤ limits.kMaxNameLength ∧ reason.length ≤ limits.kMaxReasonLength
  | quarantine_clear id who why => (id.machine ∧ id.valid = true) ∧
      who.length ≤ limits.kMaxNameLength ∧ why.length ≤ limits.kMaxReasonLength
  | completion_report job attempt _ detail => (job.machine ∧ attempt.machine) ∧
      (job.valid = true ∧ attempt.valid = true) ∧ detail.length ≤ limits.kMaxDetailLength
  | restoration_report job attempt target _ detail =>
      (job.machine ∧ attempt.machine ∧ target.machine) ∧
      (job.valid = true ∧ attempt.valid = true ∧ target.valid = true) ∧
      detail.length ≤ limits.kMaxDetailLength
  | drain_request r => sendable_drain_request r
  | drain_lease l => sendable_lease l
  | drain_lease_ref lease requester extend =>
      lease.machine ∧ requester.machine ∧ i64_range extend
  | text_body t => t.length ≤ limits.kMaxFrameBytes / 2
  | i64_body value => i64_range value

end Body

/-- Every body that can be sent is received as it was sent. -/
theorem rpc_bodies_round_trip (b : Body) (h : b.sendable) : b.decode b.encode = .ok b := by
  cases b with
  | envelope e => simp only [Body.decode, Body.encode, decode_encode_envelope h, Except.map]
  | actor who reason =>
    simp only [Body.decode, Body.encode, decode_encode_actor h.1 h.2, Except.map]
  | request r => simp only [Body.decode, Body.encode, decode_encode_request h, Except.map]
  | job_ref job note =>
    simp only [Body.decode, Body.encode, decode_encode_job_ref h.1 h.2, Except.map]
  | snapshot s => simp only [Body.decode, Body.encode, decode_encode_snapshot h, Except.map]
  | snapshot_list l =>
    simp only [Body.decode, Body.encode, decode_encode_snapshot_list h.1 h.2, Except.map]
  | job_actor job who reason =>
    obtain ⟨⟨hmachine, hvalid⟩, hwho, hreason⟩ := h
    have hread := decode_encode_id_actor hmachine hvalid hwho hreason
    simp only [Body.decode, Body.encode, decode_job_actor, encode_job_actor, hread, Except.map]
  | quarantine_clear id who why =>
    obtain ⟨⟨hmachine, hvalid⟩, hwho, hwhy⟩ := h
    have hread := decode_encode_id_actor hmachine hvalid hwho hwhy
    simp only [Body.decode, Body.encode, decode_quarantine_clear, encode_quarantine_clear, hread,
      Except.map]
  | completion_report job attempt succeeded detail =>
    obtain ⟨⟨hjob, hattempt⟩, hvalid, hdetail⟩ := h
    have hread := decode_encode_completion_report succeeded hjob hattempt hvalid hdetail
    simp only [Body.decode, Body.encode, hread, Except.map]
  | restoration_report job attempt target ok detail =>
    obtain ⟨⟨hjob, hattempt, htarget⟩, hvalid, hdetail⟩ := h
    have hread := decode_encode_restoration_report ok hjob hattempt htarget hvalid hdetail
    simp only [Body.decode, Body.encode, hread, Except.map]
  | drain_request r => simp only [Body.decode, Body.encode,
    decode_encode_drain_request h, Except.map]
  | drain_lease l => simp only [Body.decode, Body.encode, decode_encode_drain_lease h, Except.map]
  | drain_lease_ref lease requester extend =>
    have hread := decode_encode_drain_lease_ref h.1 h.2.1 h.2.2
    simp only [Body.decode, Body.encode, hread, Except.map]
  | text_body t => simp only [Body.decode, Body.encode, decode_encode_text h, Except.map]
  | i64_body value => simp only [Body.decode, Body.encode, decode_encode_i64 h, Except.map]

/-- The answer to a listing with one blocked job in it. -/
theorem listing_round_trip :
    let snapshot : JobSnapshot := { id := ⟨3⟩, state := .Blocked, block := .OperatorHold,
                                    block_detail := text "held", targets := [⟨.Rack, 7⟩] }
    (Body.snapshot_list [snapshot]).decode (Body.snapshot_list [snapshot]).encode =
      .ok (.snapshot_list [snapshot]) := by
  intro snapshot
  apply rpc_bodies_round_trip
  refine ⟨by decide, ?_⟩
  intro s hs
  rw [List.mem_singleton] at hs
  subst hs
  constructor <;> decide

end Transport

end MaintenanceFabric
