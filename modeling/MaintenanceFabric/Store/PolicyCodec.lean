import MaintenanceFabric.Store.JobCodec

/-! # Policy records

    A policy record lists every rule, window, tier and setting.  Decoding what
    was encoded is exactly `recorded_policy`: the list bounds, the clipped
    names, the revision in 32 bits and the policy's own validation.
-/

namespace MaintenanceFabric

open Lib

/-- A value wider than 32 bits is read back reduced. -/
theorem ReadsAs.u32_wrapped (v : Nat) : ReadsAs Reader.u32 (u32Bytes v) (.ok (wrap32 v)) := by
  intro r rest ha
  obtain ⟨h1, a1⟩ := ByteReader.Ahead.u32 ha
  exact ⟨_, congrArg Except.ok h1, a1⟩

/-- Checking and rewriting every element of a list. -/
theorem Result.mapM_check {α γ : Type} (check : α → Status) (f : α → γ) (l : List α) :
    l.mapM (fun a => do check a; .ok (f a)) =
      (do check_all check l
          .ok (l.map f)) := by
  induction l with
  | nil => rfl
  | cons a l ih =>
    rw [List.mapM_cons, ih]
    simp only [check_all, bind_assoc]
    cases check a with
    | error e => rfl
    | ok u =>
      cases check_all check l <;> rfl

/-! ## Rules -/

structure RedundancyRule.machine (r : RedundancyRule) : Prop where
  pool : r.pool.machine
  min_viable : r.min_viable < u32_range
  tolerated_losses : r.tolerated_losses < u32_range

instance (r : RedundancyRule) : Decidable r.machine :=
  decidable_of_iff (r.pool.machine ∧ r.min_viable < u32_range ∧ r.tolerated_losses < u32_range)
    ⟨fun ⟨h1, h2, h3⟩ => ⟨h1, h2, h3⟩, fun ⟨h1, h2, h3⟩ => ⟨h1, h2, h3⟩⟩

def write_redundancy (w : ByteWriter) (r : RedundancyRule) : ByteWriter :=
  let w := ((w.u64 r.pool.value).u32 r.min_viable).u32 r.tolerated_losses
  w.str r.name limits.kMaxNameLength

def redundancy_bytes (r : RedundancyRule) : Text :=
  [u64Bytes r.pool.value, u32Bytes r.min_viable, u32Bytes r.tolerated_losses,
   strBytes limits.kMaxNameLength r.name].flatten

theorem write_redundancy_buffer (w : ByteWriter) (r : RedundancyRule) :
    (write_redundancy w r).buffer = w.buffer ++ redundancy_bytes r := by
  simp [write_redundancy, redundancy_bytes, ByteWriter.str_buffer, kMaxNameLength_le]

/-- The error of every entry of a policy record that runs out of bytes. -/
def policy_malformed : Error := corrupt (text "policy record is malformed")

def read_redundancy : Reader RedundancyRule := do
  let pool ← Reader.id
  let min_viable ← Reader.u32
  let tolerated_losses ← Reader.u32
  let name ← Reader.str limits.kMaxNameLength
  Reader.refuse_unless_ok false policy_malformed
  pure { pool, min_viable, tolerated_losses, name }

theorem ReadsAs.redundancy {r : RedundancyRule} (h : r.machine) :
    ReadsAs read_redundancy (redundancy_bytes r)
      (.ok { r with name := recorded_name r.name }) := by
  refine Reads.field (ReadsAs.id h.pool) ?_
  refine Reads.field (ReadsAs.u32 h.min_viable) ?_
  refine Reads.field (ReadsAs.u32 h.tolerated_losses) ?_
  refine Reads.field (ReadsAs.str kMaxNameLength_le r.name) ?_
  refine Reads.pass (ReadsAs.healthy _) ?_
  exact Reads.pure _

structure DomainLimitRule.machine (r : DomainLimitRule) : Prop where
  domain : r.domain.machine
  max_out : r.max_out < u32_range

instance (r : DomainLimitRule) : Decidable r.machine :=
  decidable_of_iff (r.domain.machine ∧ r.max_out < u32_range)
    ⟨fun ⟨h1, h2⟩ => ⟨h1, h2⟩, fun ⟨h1, h2⟩ => ⟨h1, h2⟩⟩

def write_domain_limit (w : ByteWriter) (r : DomainLimitRule) : ByteWriter :=
  ((write_domain_id w r.domain).u32 r.max_out).str r.name limits.kMaxNameLength

def domain_limit_bytes (r : DomainLimitRule) : Text :=
  [domain_bytes r.domain, u32Bytes r.max_out, strBytes limits.kMaxNameLength r.name].flatten

theorem write_domain_limit_buffer (w : ByteWriter) (r : DomainLimitRule) :
    (write_domain_limit w r).buffer = w.buffer ++ domain_limit_bytes r := by
  simp [write_domain_limit, domain_limit_bytes, ByteWriter.str_buffer, kMaxNameLength_le]

def read_domain_limit : Reader DomainLimitRule := do
  let domain ← read_domain_id
  let max_out ← Reader.u32
  let name ← Reader.str limits.kMaxNameLength
  Reader.refuse_unless_ok false policy_malformed
  pure { domain, max_out, name }

theorem ReadsAs.domain_limit {r : DomainLimitRule} (h : r.machine) :
    ReadsAs read_domain_limit (domain_limit_bytes r)
      (.ok { r with name := recorded_name r.name }) := by
  refine Reads.field (ReadsAs.domain_id h.domain) ?_
  refine Reads.field (ReadsAs.u32 h.max_out) ?_
  refine Reads.field (ReadsAs.str kMaxNameLength_le r.name) ?_
  refine Reads.pass (ReadsAs.healthy _) ?_
  exact Reads.pure _

structure HeadroomRule.machine (r : HeadroomRule) : Prop where
  pool : r.pool.machine
  reserve_units : r.reserve_units < u32_range

instance (r : HeadroomRule) : Decidable r.machine :=
  decidable_of_iff (r.pool.machine ∧ r.reserve_units < u32_range)
    ⟨fun ⟨h1, h2⟩ => ⟨h1, h2⟩, fun ⟨h1, h2⟩ => ⟨h1, h2⟩⟩

def write_headroom (w : ByteWriter) (r : HeadroomRule) : ByteWriter :=
  ((w.u64 r.pool.value).u32 r.reserve_units).str r.name limits.kMaxNameLength

def headroom_bytes (r : HeadroomRule) : Text :=
  [u64Bytes r.pool.value, u32Bytes r.reserve_units, strBytes limits.kMaxNameLength r.name].flatten

theorem write_headroom_buffer (w : ByteWriter) (r : HeadroomRule) :
    (write_headroom w r).buffer = w.buffer ++ headroom_bytes r := by
  simp [write_headroom, headroom_bytes, ByteWriter.str_buffer, kMaxNameLength_le]

def read_headroom : Reader HeadroomRule := do
  let pool ← Reader.id
  let reserve_units ← Reader.u32
  let name ← Reader.str limits.kMaxNameLength
  Reader.refuse_unless_ok false policy_malformed
  pure { pool, reserve_units, name }

theorem ReadsAs.headroom {r : HeadroomRule} (h : r.machine) :
    ReadsAs read_headroom (headroom_bytes r) (.ok { r with name := recorded_name r.name }) := by
  refine Reads.field (ReadsAs.id h.pool) ?_
  refine Reads.field (ReadsAs.u32 h.reserve_units) ?_
  refine Reads.field (ReadsAs.str kMaxNameLength_le r.name) ?_
  refine Reads.pass (ReadsAs.healthy _) ?_
  exact Reads.pure _

structure Contract.machine (c : Contract) : Prop where
  id : c.id.machine
  members : machine_list TargetId.machine c.members
  min_available : c.min_available < u32_range

instance (c : Contract) : Decidable c.machine :=
  decidable_of_iff (c.id.machine ∧
      machine_list TargetId.machine c.members ∧ c.min_available < u32_range)
    ⟨fun ⟨h1, h2, h3⟩ => ⟨h1, h2, h3⟩, fun ⟨h1, h2, h3⟩ => ⟨h1, h2, h3⟩⟩

def write_contract (w : ByteWriter) (c : Contract) : ByteWriter :=
  let w := write_target_list ((w.u64 c.id.value).str c.name limits.kMaxNameLength) c.members
  (w.u32 c.min_available).boolean c.require_fresh_evidence

def contract_bytes (c : Contract) : Text :=
  [u64Bytes c.id.value, strBytes limits.kMaxNameLength c.name, list_bytes target_bytes c.members,
   u32Bytes c.min_available, boolBytes c.require_fresh_evidence].flatten

theorem write_contract_buffer (w : ByteWriter) (c : Contract) :
    (write_contract w c).buffer = w.buffer ++ contract_bytes c := by
  simp [write_contract, contract_bytes, ByteWriter.str_buffer, kMaxNameLength_le]

def read_contract : Reader Contract := do
  let id ← Reader.id
  let name ← Reader.str limits.kMaxNameLength
  let members ← read_target_list limits.kMaxMembersPerPool
  let min_available ← Reader.u32
  let require_fresh_evidence ← Reader.boolean
  Reader.refuse_unless_ok false policy_malformed
  pure { id, name, members, min_available, require_fresh_evidence }

theorem ReadsAs.contract {c : Contract} (h : c.machine) :
    ReadsAs read_contract (contract_bytes c)
      (do check_target_list limits.kMaxMembersPerPool c.members
          .ok { c with name := recorded_name c.name }) := by
  refine Reads.field (ReadsAs.id h.id) ?_
  refine Reads.field (ReadsAs.str kMaxNameLength_le c.name) ?_
  refine Reads.guarded (ReadsAs.target_list h.members _) ?_
  refine Reads.field (ReadsAs.u32 h.min_available) ?_
  refine Reads.field (ReadsAs.boolean _) ?_
  refine Reads.pass (ReadsAs.healthy _) ?_
  exact Reads.pure _

structure Window.machine (w : Window) : Prop where
  id : w.id.machine
  opens_at : i64_range w.opens_at
  closes_at : i64_range w.closes_at
  min_lead_time : i64_range w.min_lead_time
  abort_grace : i64_range w.abort_grace
  targets : machine_list TargetId.machine w.targets

instance (w : Window) : Decidable w.machine :=
  decidable_of_iff (w.id.machine ∧ i64_range w.opens_at ∧ i64_range w.closes_at ∧
      i64_range w.min_lead_time ∧ i64_range w.abort_grace ∧ machine_list TargetId.machine w.targets)
    ⟨fun ⟨h1, h2, h3, h4, h5, h6⟩ => ⟨h1, h2, h3, h4, h5, h6⟩,
      fun ⟨h1, h2, h3, h4, h5, h6⟩ => ⟨h1, h2, h3, h4, h5, h6⟩⟩

def write_window (w : ByteWriter) (window : Window) : ByteWriter :=
  let w := (w.u64 window.id.value).str window.name limits.kMaxNameLength
  let w := (w.i64 window.opens_at).i64 window.closes_at
  let w := (w.i64 window.min_lead_time).i64 window.abort_grace
  write_target_list (w.u32 window.on_close.code) window.targets

def window_bytes (w : Window) : Text :=
  [u64Bytes w.id.value, strBytes limits.kMaxNameLength w.name, i64Bytes w.opens_at,
   i64Bytes w.closes_at, i64Bytes w.min_lead_time, i64Bytes w.abort_grace,
   u32Bytes w.on_close.code, list_bytes target_bytes w.targets].flatten

theorem write_window_buffer (w : ByteWriter) (window : Window) :
    (write_window w window).buffer = w.buffer ++ window_bytes window := by
  simp [write_window, window_bytes, ByteWriter.str_buffer, kMaxNameLength_le]

def read_window : Reader Window := do
  let id ← Reader.id
  let name ← Reader.str limits.kMaxNameLength
  let opens_at ← Reader.i64
  let closes_at ← Reader.i64
  let min_lead_time ← Reader.i64
  let abort_grace ← Reader.i64
  let on_close ← Reader.u32
  Reader.refuse (on_close > OnWindowClose.AbortAndRestore.code)
    (corrupt (text "policy window has an unknown close policy"))
  let targets ← read_target_list limits.kMaxWindowTargets
  Reader.refuse_unless_ok false policy_malformed
  pure { id, name, opens_at, closes_at, min_lead_time, abort_grace
         on_close := OnWindowClose.ofCode on_close, targets }

theorem ReadsAs.window {w : Window} (h : w.machine) :
    ReadsAs read_window (window_bytes w)
      (do check_target_list limits.kMaxWindowTargets w.targets
          .ok { w with name := recorded_name w.name }) := by
  have hclose : w.on_close.code < u32_range := by cases w.on_close <;> decide
  have hknown : decide (w.on_close.code > OnWindowClose.AbortAndRestore.code) = false := by
    cases w.on_close <;> decide
  refine Reads.field (ReadsAs.id h.id) ?_
  refine Reads.field (ReadsAs.str kMaxNameLength_le w.name) ?_
  refine Reads.field (ReadsAs.i64 h.opens_at) ?_
  refine Reads.field (ReadsAs.i64 h.closes_at) ?_
  refine Reads.field (ReadsAs.i64 h.min_lead_time) ?_
  refine Reads.field (ReadsAs.i64 h.abort_grace) ?_
  refine Reads.field (ReadsAs.u32 hclose) ?_
  refine Reads.pass (ReadsAs.accepts hknown _) ?_
  refine Reads.guarded (ReadsAs.target_list h.targets _) ?_
  refine Reads.pass (ReadsAs.healthy _) ?_
  rw [OnWindowClose.ofCode_code]
  exact Reads.pure _

def write_tier (w : ByteWriter) (t : PriorityTier) : ByteWriter :=
  (w.u32 t.index).str t.name limits.kMaxNameLength

def tier_bytes (t : PriorityTier) : Text :=
  [u32Bytes t.index, strBytes limits.kMaxNameLength t.name].flatten

theorem write_tier_buffer (w : ByteWriter) (t : PriorityTier) :
    (write_tier w t).buffer = w.buffer ++ tier_bytes t := by
  simp [write_tier, tier_bytes, ByteWriter.str_buffer, kMaxNameLength_le]

def read_tier : Reader PriorityTier := do
  let index ← Reader.u32
  let name ← Reader.str limits.kMaxNameLength
  Reader.refuse_unless_ok false policy_malformed
  pure { index, name }

theorem ReadsAs.tier {t : PriorityTier} (h : t.index < u32_range) :
    ReadsAs read_tier (tier_bytes t) (.ok { t with name := recorded_name t.name }) := by
  refine Reads.field (ReadsAs.u32 h) ?_
  refine Reads.field (ReadsAs.str kMaxNameLength_le t.name) ?_
  refine Reads.pass (ReadsAs.healthy _) ?_
  exact Reads.pure _

def write_ttl (w : ByteWriter) (e : EvidenceKind × Nanos) : ByteWriter := (w.u32 e.1.code).i64 e.2

def ttl_bytes (e : EvidenceKind × Nanos) : Text := [u32Bytes e.1.code, i64Bytes e.2].flatten

theorem write_ttl_buffer (w : ByteWriter) (e : EvidenceKind × Nanos) :
    (write_ttl w e).buffer = w.buffer ++ ttl_bytes e := by
  simp [write_ttl, ttl_bytes]

def read_ttl : Reader (EvidenceKind × Nanos) := do
  let kind ← Reader.u32
  let ttl ← Reader.i64
  Reader.refuse_unless_ok (kind = 0 ∨ kind > kEvidenceKindCount) policy_malformed
  pure (EvidenceKind.ofCode kind, ttl)

theorem ReadsAs.ttl {e : EvidenceKind × Nanos} (h : i64_range e.2) :
    ReadsAs read_ttl (ttl_bytes e) (.ok e) := by
  have hkind : e.1.code < u32_range := by cases e.1 <;> decide
  have hknown : decide (e.1.code = 0 ∨ e.1.code > kEvidenceKindCount) = false := by
    cases e.1 <;> decide
  refine Reads.field (ReadsAs.u32 hkind) ?_
  refine Reads.field (ReadsAs.i64 h) ?_
  refine Reads.pass (hknown ▸ ReadsAs.healthy policy_malformed) ?_
  rw [EvidenceKind.ofCode_code]
  exact Reads.pure e

/-! ## Policies -/

def kPolicyLayout : Nat := 1

def write_policy_rules (w : ByteWriter) (p : Policy) : ByteWriter :=
  let w := write_list write_redundancy w p.redundancy
  let w := write_list write_domain_limit w p.domain_limits
  let w := write_list write_headroom w p.headroom
  let w := write_list write_contract w p.contracts
  let w := write_list write_window w p.windows
  let w := write_list write_tier w p.tiers
  write_list write_ttl w p.evidence_ttl.rows

def write_policy_settings (w : ByteWriter) (p : Policy) : ByteWriter :=
  let w := ((w.u32 p.min_evidence_sources).boolean p.require_window).i64 p.max_precondition_age
  let w := ((w.i64 p.default_duration).u32 p.max_concurrent_jobs).i64 p.authority_lease
  let w := (w.i64 p.drain_lease).u32 p.max_drain_failures_before_block
  (w.u32 p.max_verification_attempts).u32 p.max_restoration_attempts

def encode_policy_record (p : Policy) : Record :=
  let w := (({} : ByteWriter).u16 kPolicyLayout).u32 p.revision.value
  ⟨.Policy, (write_policy_settings (write_policy_rules w p) p).buffer⟩

def read_policy : Reader Policy := do
  Reader.layout kPolicyLayout (text "policy")
  let revision ← Reader.u32
  let redundancy ← read_list limits.kMaxRedundancyRules
    (corrupt (text "policy redundancy count exceeds the bound")) read_redundancy
  let domain_limits ← read_list limits.kMaxDomainLimitRules
    (corrupt (text "policy domain-limit count exceeds the bound")) read_domain_limit
  let headroom ← read_list limits.kMaxRedundancyRules
    (corrupt (text "policy headroom count exceeds the bound")) read_headroom
  let contracts ← read_list limits.kMaxContracts
    (corrupt (text "policy contract count exceeds the bound")) read_contract
  let windows ← read_list limits.kMaxWindowRules
    (corrupt (text "policy window count exceeds the bound")) read_window
  let tiers ← read_list limits.kMaxPriorityTiers
    (corrupt (text "policy tier count exceeds the bound")) read_tier
  let ttls ← read_list kEvidenceKindCount
    (corrupt (text "policy evidence-ttl count exceeds the bound")) read_ttl
  let min_evidence_sources ← Reader.u32
  let require_window ← Reader.boolean
  let max_precondition_age ← Reader.i64
  let default_duration ← Reader.i64
  let max_concurrent_jobs ← Reader.u32
  let authority_lease ← Reader.i64
  let drain_lease ← Reader.i64
  let max_drain_failures_before_block ← Reader.u32
  let max_verification_attempts ← Reader.u32
  let max_restoration_attempts ← Reader.u32
  pure
    { redundancy, domain_limits, headroom, contracts, windows, tiers
      evidence_ttl := ttls.foldl Table.put Table.empty, min_evidence_sources, require_window
      max_precondition_age, default_duration, max_concurrent_jobs, authority_lease, drain_lease
      max_drain_failures_before_block, max_verification_attempts, max_restoration_attempts
      revision := ⟨revision⟩ }

def decode_policy_record (record : Record) : Result Policy := do
  refuse_if (record.type ≠ .Policy) (invalid_argument (text "record is not a policy record"))
  let fresh ← read_policy.decode (corrupt (text "policy record is malformed or has trailing bytes"))
    record.payload
  match fresh.validate with
  | .error e => .error (corrupt e.detail)
  | .ok _ => .ok fresh

structure Policy.machine (p : Policy) : Prop where
  redundancy : machine_list RedundancyRule.machine p.redundancy
  domain_limits : machine_list DomainLimitRule.machine p.domain_limits
  headroom : machine_list HeadroomRule.machine p.headroom
  contracts : machine_list Contract.machine p.contracts
  windows : machine_list Window.machine p.windows
  tiers : machine_list (fun t => t.index < u32_range) p.tiers
  evidence_ttl : ∀ e ∈ p.evidence_ttl.rows, i64_range e.2
  min_evidence_sources : p.min_evidence_sources < u32_range
  max_precondition_age : i64_range p.max_precondition_age
  default_duration : i64_range p.default_duration
  max_concurrent_jobs : p.max_concurrent_jobs < u32_range
  authority_lease : i64_range p.authority_lease
  drain_lease : i64_range p.drain_lease
  max_drain_failures_before_block : p.max_drain_failures_before_block < u32_range
  max_verification_attempts : p.max_verification_attempts < u32_range
  max_restoration_attempts : p.max_restoration_attempts < u32_range

/-! ### Round trip -/

def policy_fields (p : Policy) : List Text :=
  [u16Bytes kPolicyLayout, u32Bytes p.revision.value, list_bytes redundancy_bytes p.redundancy,
   list_bytes domain_limit_bytes p.domain_limits, list_bytes headroom_bytes p.headroom,
   list_bytes contract_bytes p.contracts, list_bytes window_bytes p.windows,
   list_bytes tier_bytes p.tiers, list_bytes ttl_bytes p.evidence_ttl.rows,
   u32Bytes p.min_evidence_sources, boolBytes p.require_window, i64Bytes p.max_precondition_age,
   i64Bytes p.default_duration, u32Bytes p.max_concurrent_jobs, i64Bytes p.authority_lease,
   i64Bytes p.drain_lease, u32Bytes p.max_drain_failures_before_block,
   u32Bytes p.max_verification_attempts, u32Bytes p.max_restoration_attempts]

theorem encode_policy_record_payload (p : Policy) :
    (encode_policy_record p).payload = (policy_fields p).flatten := by
  simp [encode_policy_record, write_policy_rules, write_policy_settings, policy_fields,
    write_list_buffer write_redundancy_buffer, write_list_buffer write_domain_limit_buffer,
    write_list_buffer write_headroom_buffer, write_list_buffer write_contract_buffer,
    write_list_buffer write_window_buffer, write_list_buffer write_tier_buffer,
    write_list_buffer write_ttl_buffer]

/-- There are only seven kinds of evidence to give a lifetime to. -/
theorem evidence_ttl_length_le (t : Table (Prod.fst : EvidenceKind × Nanos → EvidenceKind)) :
    t.rows.length ≤ kEvidenceKindCount := by
  have hsub : t.rows.map Prod.fst ⊆ [.TargetHealth, .PoolRedundancy, .ContractAvailability,
      .DrainLeaseState, .RestorationCheck, .MaintenanceCompletion, .ControlPlaneQuorum] := by
    intro k _
    cases k <;> decide
  have hle := (List.subperm_of_subset t.nodup_keys hsub).length_le
  simpa [kEvidenceKindCount] using hle

theorem ReadsAs.policy {p : Policy} (h : p.machine) :
    ReadsAs read_policy (policy_fields p).flatten
      (do check_policy_record p
          .ok (clipped_policy p)) := by
  have hkinds := evidence_ttl_length_le p.evidence_ttl
  have hcount : p.evidence_ttl.rows.length < u32_range :=
    Nat.lt_of_le_of_lt hkinds (by decide)
  have hbound : decide (p.evidence_ttl.rows.length > kEvidenceKindCount) = false := by
    simpa using hkinds
  simp only [check_policy_record, bind_assoc]
  refine Reads.field (ReadsAs.layout (by decide) _) ?_
  refine Reads.field (ReadsAs.u32_wrapped _) ?_
  refine Reads.guarded (ReadsAs.list_ok h.redundancy.1
    (fun r hr => ReadsAs.redundancy (h.redundancy.2 r hr)) _ _) ?_
  refine Reads.guarded (ReadsAs.list_ok h.domain_limits.1
    (fun r hr => ReadsAs.domain_limit (h.domain_limits.2 r hr)) _ _) ?_
  refine Reads.guarded (ReadsAs.list_ok h.headroom.1
    (fun r hr => ReadsAs.headroom (h.headroom.2 r hr)) _ _) ?_
  -- A contract is checked as it is read, so the check of the list is pulled out of its reader.
  have hcontracts := ReadsAs.list h.contracts.1
    (fun c hc => ReadsAs.contract (h.contracts.2 c hc)) limits.kMaxContracts
    (corrupt (text "policy contract count exceeds the bound"))
  rw [Result.mapM_check, ← bind_assoc] at hcontracts
  rw [← bind_assoc]
  refine Reads.guarded hcontracts ?_
  have hwindows := ReadsAs.list h.windows.1
    (fun w hw => ReadsAs.window (h.windows.2 w hw)) limits.kMaxWindowRules
    (corrupt (text "policy window count exceeds the bound"))
  rw [Result.mapM_check, ← bind_assoc] at hwindows
  rw [← bind_assoc]
  refine Reads.guarded hwindows ?_
  refine Reads.guarded (ReadsAs.list_ok h.tiers.1
    (fun t ht => ReadsAs.tier (h.tiers.2 t ht)) _ _) ?_
  have httl := ReadsAs.list_ok (g := fun e => e) hcount
    (fun e he => ReadsAs.ttl (h.evidence_ttl e he)) kEvidenceKindCount
    (corrupt (text "policy evidence-ttl count exceeds the bound"))
  rw [hbound, List.map_id'] at httl
  refine Reads.field httl ?_
  refine Reads.field (ReadsAs.u32 h.min_evidence_sources) ?_
  refine Reads.field (ReadsAs.boolean _) ?_
  refine Reads.field (ReadsAs.i64 h.max_precondition_age) ?_
  refine Reads.field (ReadsAs.i64 h.default_duration) ?_
  refine Reads.field (ReadsAs.u32 h.max_concurrent_jobs) ?_
  refine Reads.field (ReadsAs.i64 h.authority_lease) ?_
  refine Reads.field (ReadsAs.i64 h.drain_lease) ?_
  refine Reads.field (ReadsAs.u32 h.max_drain_failures_before_block) ?_
  refine Reads.field (ReadsAs.u32 h.max_verification_attempts) ?_
  refine Reads.field (ReadsAs.u32 h.max_restoration_attempts) ?_
  rw [Table.foldl_put_rows]
  exact Reads.pure (clipped_policy p)

/-- A policy record decodes to the recorded image of the policy. -/
theorem decode_encode_policy {p : Policy} (h : p.machine) :
    decode_policy_record (encode_policy_record p) = recorded_policy p := by
  have hread := (ReadsAs.policy h).decode
    (corrupt (text "policy record is malformed or has trailing bytes"))
  rw [← encode_policy_record_payload] at hread
  cases hvalid : (clipped_policy p).validate <;>
    simp only [decode_policy_record,
      refuse_if_type (show (encode_policy_record p).type = .Policy from rfl), hread,
      recorded_policy, hvalid, bind_assoc, Result.ok_bind]

end MaintenanceFabric
