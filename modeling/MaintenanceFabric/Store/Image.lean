import MaintenanceFabric.Domain.Job
import MaintenanceFabric.Domain.Policy
import MaintenanceFabric.Domain.Topology

/-! # Recorded images

    The structural commits (jobs, policy, topology) do not install the value
    they were given: they install what their own journal record decodes to.
    The image of a value under its codec is written here directly, value to
    value: a string over its bound is recorded as the empty string, a list over
    its bound or an invalid identity makes the record undecodable.
-/

namespace MaintenanceFabric

open Lib

def corrupt (detail : Text) : Error := make_error .CorruptState detail

/-- `read_target_list`. -/
def check_target_list (limit : Nat) (targets : List TargetId) : Status := do
  refuse_if (targets.length > limit) (corrupt (text "target list exceeds the accepted bound"))
  refuse_if (targets.any (fun t => !t.valid))
    (corrupt (text "target list contains an invalid identity"))

theorem check_target_list_iff {limit : Nat} {targets : List TargetId} {u : Unit} :
    check_target_list limit targets = .ok u ↔
      targets.length ≤ limit ∧ ∀ t ∈ targets, t.valid = true := by
  simp only [check_target_list, Result.bind_eq_ok, refuse_if_eq_ok, decide_eq_false_iff_not,
    Nat.not_lt, List.any_eq_false, Bool.not_eq_true, Bool.not_eq_false']
  constructor
  · rintro ⟨_, hlen, hvalid⟩
    exact ⟨hlen, hvalid⟩
  · rintro ⟨hlen, hvalid⟩
    exact ⟨(), hlen, hvalid⟩

/-! ## Jobs -/

def recorded_attempt (a : AttemptRecord) : AttemptRecord :=
  { a with detail := clip limits.kMaxDetailLength a.detail }

def recorded_entry (e : HistoryEntry) : HistoryEntry :=
  { e with detail := clip limits.kMaxDetailLength e.detail }

/-- The bounds `decode_job_record` enforces. -/
def check_job_record (job : MaintenanceJob) : Status := do
  check_target_list limits.kMaxTargetsPerJob job.targets
  check_target_list limits.kMaxTargetsPerTopology job.removal_set
  refuse_if (job.depends_on.length > limits.kMaxDependenciesPerJob)
    (corrupt (text "job dependency count exceeds the bound"))
  refuse_if (job.window_filter.length > limits.kMaxWindowRules)
    (corrupt (text "job window-filter count exceeds the bound"))
  refuse_if (job.attempts.length > limits.kMaxAttemptsPerJob)
    (corrupt (text "job attempt count exceeds the bound"))
  refuse_if (job.history.length > limits.kMaxJobHistoryEntries)
    (corrupt (text "job history count exceeds the bound"))
  refuse_if (!job.id.valid || !job.generation.valid)
    (corrupt (text "job record has an invalid identity"))

/-- A job with its strings as the record keeps them. -/
def clipped_job (job : MaintenanceJob) : MaintenanceJob :=
  { job with
    title := clip limits.kMaxTitleLength job.title
    reason := clip limits.kMaxReasonLength job.reason
    block_detail := clip limits.kMaxDetailLength job.block_detail
    last_detail := clip limits.kMaxDetailLength job.last_detail
    attempts := job.attempts.map recorded_attempt
    history := job.history.map recorded_entry
    approved_by := clip limits.kMaxNameLength job.approved_by }

def recorded_job (job : MaintenanceJob) : Result MaintenanceJob := do
  check_job_record job
  .ok (clipped_job job)

theorem recorded_job_ok {job image : MaintenanceJob} (h : recorded_job job = .ok image) :
    image = clipped_job job ∧ check_job_record job = .ok () := by
  obtain ⟨_, hcheck, himage⟩ := Result.bind_eq_ok.mp h
  exact ⟨(Except.ok.inj himage).symm, hcheck⟩

/-- A record that decodes names a job and a generation. -/
theorem check_job_record_valid {job : MaintenanceJob} (h : check_job_record job = .ok ()) :
    job.id.valid = true ∧ job.generation.valid = true := by
  simp only [check_job_record, Result.bind_eq_ok, refuse_if_eq_ok] at h
  obtain ⟨_, _, _, _, _, _, _, _, _, _, _, _, hid⟩ := h
  simpa using hid

/-- Clipping strings does not change whether a record decodes. -/
theorem check_job_record_clipped (job : MaintenanceJob) :
    check_job_record (clipped_job job) = check_job_record job := by
  simp [check_job_record, clipped_job]

/-! ## Policy -/

/-- A name as a policy or topology record keeps it. -/
def recorded_name (name : Text) : Text := clip limits.kMaxNameLength name

def check_policy_record (p : Policy) : Status := do
  refuse_if (p.redundancy.length > limits.kMaxRedundancyRules)
    (corrupt (text "policy redundancy count exceeds the bound"))
  refuse_if (p.domain_limits.length > limits.kMaxDomainLimitRules)
    (corrupt (text "policy domain-limit count exceeds the bound"))
  refuse_if (p.headroom.length > limits.kMaxRedundancyRules)
    (corrupt (text "policy headroom count exceeds the bound"))
  refuse_if (p.contracts.length > limits.kMaxContracts)
    (corrupt (text "policy contract count exceeds the bound"))
  check_all (fun e : Contract => check_target_list limits.kMaxMembersPerPool e.members) p.contracts
  refuse_if (p.windows.length > limits.kMaxWindowRules)
    (corrupt (text "policy window count exceeds the bound"))
  check_all (fun e : Window => check_target_list limits.kMaxWindowTargets e.targets) p.windows
  refuse_if (p.tiers.length > limits.kMaxPriorityTiers)
    (corrupt (text "policy tier count exceeds the bound"))

/-- A policy as its record keeps it: the revision is stored in 32 bits. -/
def clipped_policy (p : Policy) : Policy :=
  { p with
    redundancy := p.redundancy.map (fun r => { r with name := recorded_name r.name })
    domain_limits := p.domain_limits.map (fun r => { r with name := recorded_name r.name })
    headroom := p.headroom.map (fun r => { r with name := recorded_name r.name })
    contracts := p.contracts.map (fun e => { e with name := recorded_name e.name })
    windows := p.windows.map (fun w => { w with name := recorded_name w.name })
    tiers := p.tiers.map (fun t => { t with name := recorded_name t.name })
    revision := ⟨wrap32 p.revision.value⟩ }

def recorded_policy (p : Policy) : Result Policy := do
  check_policy_record p
  match (clipped_policy p).validate with
  | .error e => .error (corrupt e.detail)
  | .ok _ => .ok (clipped_policy p)

/-! ## Topology -/

/-- Errors of the `add` operations surface as corrupt records. -/
def added (r : Result Topology) : Result Topology :=
  match r with
  | .error e => .error (corrupt e.detail)
  | .ok t => .ok t

/-- Targets in the order they are recorded: by the length of their ancestor list, then by id. -/
def recorded_order (t : Topology) : List TargetRecord :=
  sort_by (fun r : TargetRecord => toLex ((t.ancestors r.id).length, r.id)) t.targets.rows

theorem recorded_order_perm (t : Topology) : (recorded_order t).Perm t.targets.rows := by
  unfold recorded_order sort_by
  exact List.perm_insertionSort _ _

/-- The record is replayed onto an empty topology, one `add` per entry. -/
def recorded_topology (t : Topology) : Result Topology := do
  let fresh ← t.domains.rows.foldlM
    (fun u d => added (u.add_domain { d with name := recorded_name d.name })) ({} : Topology)
  let fresh ← (recorded_order t).foldlM
    (fun u r => added (u.add_target { r with name := recorded_name r.name })) fresh
  let fresh ← t.pools.rows.foldlM
    (fun u p => added (u.add_pool { p with name := recorded_name p.name })) fresh
  fresh.validate
  .ok fresh

end MaintenanceFabric
