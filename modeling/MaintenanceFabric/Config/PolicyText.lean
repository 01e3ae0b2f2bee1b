import MaintenanceFabric.Config.Time
import MaintenanceFabric.Domain.Policy

/-! # Policy text

    `load_policy_text` collects the rules line by line and keeps the settings
    aside: they are applied in the order of their keys once the last line is
    read, and then the policy is validated.  `render_policy` writes a policy as
    such a text.
-/

namespace MaintenanceFabric

open Lib

/-! ## Names of kinds -/

def OnWindowClose.to_string : OnWindowClose → Text
  | .FinishActiveStep => text "finish-active-step"
  | .ExtendToComplete => text "extend-to-complete"
  | .AbortAndRestore => text "abort-and-restore"

def parse_on_window_close (t : Text) : Option OnWindowClose :=
  if t = text "finish-active-step" ∨ t = text "finish" then some .FinishActiveStep
  else if t = text "extend-to-complete" ∨ t = text "extend" then some .ExtendToComplete
  else if t = text "abort-and-restore" ∨ t = text "abort" then some .AbortAndRestore
  else none

/-- `kKindNames`, in order. -/
def EvidenceKind.all : List EvidenceKind :=
  [.TargetHealth, .PoolRedundancy, .ContractAvailability, .DrainLeaseState, .RestorationCheck,
   .MaintenanceCompletion, .ControlPlaneQuorum]

def parse_evidence_kind (t : Text) : Option EvidenceKind :=
  EvidenceKind.all.find? (fun kind => kind.to_string = t)

/-! ## Records -/

def named (line : Line) (fallback : Text) : Text := (line.find (text "name")).getD fallback

def load_redundancy (line : Line) : Result RedundancyRule := do
  require_known_keys line
    [text "pool", text "min_viable", text "tolerated_losses", text "name"]
  let pool_text ← require_value line (text "pool")
  let viable_text ← require_value line (text "min_viable")
  let losses_text ← require_value line (text "tolerated_losses")
  let min_viable ← parse_u32_value line viable_text
  let tolerated_losses ← parse_u32_value line losses_text
  let pool ← expect line (text "pool id is not valid") (parse_u32 pool_text)
  .ok { pool := ⟨pool⟩, min_viable, tolerated_losses, name := named line (text "redundancy") }

def load_headroom (line : Line) : Result HeadroomRule := do
  require_known_keys line [text "pool", text "reserve", text "name"]
  let pool_text ← require_value line (text "pool")
  let reserve_text ← require_value line (text "reserve")
  let reserve_units ← parse_u32_value line reserve_text
  let pool ← expect line (text "pool id is not valid") (parse_u32 pool_text)
  .ok { pool := ⟨pool⟩, reserve_units, name := named line (text "reserve") }

def load_domain_limit (line : Line) : Result DomainLimitRule := do
  require_known_keys line [text "domain", text "max_out", text "name"]
  let domain_text ← require_value line (text "domain")
  let max_text ← require_value line (text "max_out")
  let max_out ← parse_u32_value line max_text
  let domain ← expect line (text "domain id is not valid") (parse_domain_id domain_text)
  .ok { domain, max_out, name := named line (text "domain-limit") }

def load_contract (line : Line) : Result Contract := do
  require_known_keys line
    [text "id", text "name", text "members", text "min_available", text "fresh_evidence"]
  let id_text ← require_value line (text "id")
  let members_text ← require_value line (text "members")
  let min_text ← require_value line (text "min_available")
  let members ← parse_target_list line members_text
  let min_available ← parse_u32_value line min_text
  let id ← expect line (text "contract id is not valid") (parse_u32 id_text)
  let require_fresh_evidence ← optional_value line (text "fresh_evidence") true (parse_bool line)
  .ok { id := ⟨id⟩, name := named line (text "contract"), members, min_available,
        require_fresh_evidence }

def load_window (reference_now : Nanos) (line : Line) : Result Window := do
  require_known_keys line [text "id", text "name", text "opens", text "closes", text "min_lead",
    text "abort_grace", text "on_close", text "targets"]
  let id_text ← require_value line (text "id")
  let opens_text ← require_value line (text "opens")
  let closes_text ← require_value line (text "closes")
  let id ← expect line (text "window id or time is not valid") (parse_u32 id_text)
  let opens_at ← expect line (text "window id or time is not valid")
    (parse_time opens_text reference_now)
  let closes_at ← expect line (text "window id or time is not valid")
    (parse_time closes_text reference_now)
  let min_lead_time ← optional_value line (text "min_lead") 0
    (fun value => expect line (text "min_lead is not a duration") (parse_duration_text value))
  let abort_grace ← optional_value line (text "abort_grace") 0
    (fun value => expect line (text "abort_grace is not a duration") (parse_duration_text value))
  let on_close ← optional_value line (text "on_close") OnWindowClose.FinishActiveStep
    (fun value => expect line (text "on_close is not a known policy") (parse_on_window_close value))
  let targets ← optional_value line (text "targets") [] (parse_target_list line)
  .ok { id := ⟨id⟩, name := named line (text "window"), opens_at, closes_at, min_lead_time,
        abort_grace, on_close, targets }

def load_tier (line : Line) : Result PriorityTier := do
  require_known_keys line [text "index", text "name"]
  let index_text ← require_value line (text "index")
  let index ← parse_u32_value line index_text
  .ok { index, name := named line (text "tier") }

def load_evidence_ttl (line : Line) : Result (EvidenceKind × Nanos) := do
  require_known_keys line [text "kind", text "ttl"]
  let kind_text ← require_value line (text "kind")
  let ttl_text ← require_value line (text "ttl")
  let kind ← expect line (text "evidence_ttl kind or ttl is not valid")
    (parse_evidence_kind kind_text)
  let ttl ← expect line (text "evidence_ttl kind or ttl is not valid")
    (parse_duration_text ttl_text)
  .ok (kind, ttl)

def load_setting (line : Line) : Result (Text × Text) := do
  require_known_keys line [text "key", text "value"]
  let key_text ← require_value line (text "key")
  let value_text ← require_value line (text "value")
  .ok (key_text, value_text)

/-! ## Loading -/

/-- The keys of the settings are compared byte by byte. -/
def setting_key (setting : Text × Text) : List Nat := setting.1.map UInt8.toNat

/-- What the lines so far came to. -/
structure PolicyDraft where
  policy : Policy := {}
  settings : Table setting_key := Table.empty
  stats : ParseStats := {}

/-- One more record, with the policy it leads to. -/
def PolicyDraft.grown (d : PolicyDraft) (policy : Policy) : PolicyDraft :=
  { d with policy, stats := { d.stats with records := d.stats.records + 1 } }

/-- One more setting; the last one under a key counts. -/
def PolicyDraft.set (d : PolicyDraft) (setting : Text × Text) : PolicyDraft :=
  { d.grown d.policy with settings := d.settings.put setting }

def load_policy_record (reference_now : Nanos) (d : PolicyDraft) (line : Line) :
    Result PolicyDraft :=
  if line.kind = text "redundancy" then do
    let rule ← load_redundancy line
    .ok (d.grown { d.policy with redundancy := d.policy.redundancy ++ [rule] })
  else if line.kind = text "headroom" then do
    let rule ← load_headroom line
    .ok (d.grown { d.policy with headroom := d.policy.headroom ++ [rule] })
  else if line.kind = text "domain_limit" then do
    let rule ← load_domain_limit line
    .ok (d.grown { d.policy with domain_limits := d.policy.domain_limits ++ [rule] })
  else if line.kind = text "contract" then do
    let contract ← load_contract line
    .ok (d.grown { d.policy with contracts := d.policy.contracts ++ [contract] })
  else if line.kind = text "window" then do
    let window ← load_window reference_now line
    .ok (d.grown { d.policy with windows := d.policy.windows ++ [window] })
  else if line.kind = text "tier" then do
    let tier ← load_tier line
    .ok (d.grown { d.policy with tiers := d.policy.tiers ++ [tier] })
  else if line.kind = text "evidence_ttl" then do
    let entry ← load_evidence_ttl line
    .ok (d.grown { d.policy with evidence_ttl := d.policy.evidence_ttl.put entry })
  else if line.kind = text "setting" then do
    let setting ← load_setting line
    .ok (d.set setting)
  else .error (line_error .InvalidArgument line.number
    (text "unknown record kind '" ++ line.kind ++ text "'"))

/-! ### Settings -/

def number_setting (key value : Text) (put : Nat → Policy) : Result Policy :=
  match parse_u32 value with
  | none => .error (make_error .InvalidArgument (key ++ text " is not a number"))
  | some parsed => .ok (put parsed)

def duration_setting (key value : Text) (put : Nanos → Policy) : Result Policy :=
  match parse_duration_text value with
  | none => .error (make_error .InvalidArgument (key ++ text " is not a duration"))
  | some parsed => .ok (put parsed)

def apply_setting (p : Policy) (setting : Text × Text) : Result Policy :=
  let (key, value) := setting
  if key = text "min_evidence_sources" then
    number_setting key value (fun n => { p with min_evidence_sources := n })
  else if key = text "require_window" then
    if value = text "true" ∨ value = text "1" then .ok { p with require_window := true }
    else if value = text "false" ∨ value = text "0" then .ok { p with require_window := false }
    else .error (make_error .InvalidArgument (text "require_window is not a boolean"))
  else if key = text "max_precondition_age" then
    duration_setting key value (fun v => { p with max_precondition_age := v })
  else if key = text "default_duration" then
    duration_setting key value (fun v => { p with default_duration := v })
  else if key = text "max_concurrent_jobs" then
    number_setting key value (fun n => { p with max_concurrent_jobs := n })
  else if key = text "authority_lease" then
    duration_setting key value (fun v => { p with authority_lease := v })
  else if key = text "drain_lease" then
    duration_setting key value (fun v => { p with drain_lease := v })
  else if key = text "max_drain_failures" then
    number_setting key value (fun n => { p with max_drain_failures_before_block := n })
  else if key = text "max_verification_attempts" then
    number_setting key value (fun n => { p with max_verification_attempts := n })
  else if key = text "max_restoration_attempts" then
    number_setting key value (fun n => { p with max_restoration_attempts := n })
  else .error (make_error .InvalidArgument (text "unknown setting '" ++ key ++ text "'"))

def load_policy_text (t : Text) (reference_now : Nanos) : Result (Policy × ParseStats) := do
  let lines ← tokenize t
  let draft ← lines.foldlM (load_policy_record reference_now)
    { stats := { lines := lines.length } }
  let policy ← draft.settings.rows.foldlM apply_setting draft.policy
  policy.validate
  .ok (policy, draft.stats)

/-! ## Rendering -/

def render_evidence_ttl (e : EvidenceKind × Nanos) : Text :=
  text "evidence_ttl kind=" ++ e.1.to_string ++ text " ttl=" ++ nanos_text e.2 ++ [newline]

def render_redundancy (r : RedundancyRule) : Text :=
  text "redundancy pool=" ++ decimal r.pool.value ++ text " min_viable=" ++ decimal r.min_viable ++
    text " tolerated_losses=" ++ decimal r.tolerated_losses ++ text " name=" ++ r.name ++ [newline]

def render_headroom (r : HeadroomRule) : Text :=
  text "headroom pool=" ++ decimal r.pool.value ++ text " reserve=" ++ decimal r.reserve_units ++
    text " name=" ++ r.name ++ [newline]

def render_domain_limit (r : DomainLimitRule) : Text :=
  text "domain_limit domain=" ++ r.domain.to_string ++ text " max_out=" ++ decimal r.max_out ++
    text " name=" ++ r.name ++ [newline]

/-- Whether the contract asks for fresh evidence is not written. -/
def render_contract (c : Contract) : Text :=
  text "contract id=" ++ decimal c.id.value ++ text " name=" ++ c.name ++ text " members=" ++
    comma_list (c.members.map TargetId.to_string) ++ text " min_available=" ++
    decimal c.min_available ++ [newline]

def render_targets (targets : List TargetId) : Text :=
  if targets.isEmpty then []
  else text " targets=" ++ comma_list (targets.map TargetId.to_string)

def render_window (w : Window) : Text :=
  text "window id=" ++ decimal w.id.value ++ text " name=" ++ w.name ++ text " opens=" ++
    format_time w.opens_at ++ text " closes=" ++ format_time w.closes_at ++ text " min_lead=" ++
    nanos_text w.min_lead_time ++ text " abort_grace=" ++ nanos_text w.abort_grace ++
    text " on_close=" ++ w.on_close.to_string ++ render_targets w.targets ++ [newline]

def render_tier (t : PriorityTier) : Text :=
  text "tier index=" ++ decimal t.index ++ text " name=" ++ t.name ++ [newline]

def render_setting (setting : Text × Text) : Text :=
  text "setting key=" ++ setting.1 ++ text " value=" ++ setting.2 ++ [newline]

/-- The settings of a policy, in the order they are written. -/
def policy_settings (p : Policy) : List (Text × Text) :=
  [(text "min_evidence_sources", decimal p.min_evidence_sources),
   (text "require_window", bool_text p.require_window),
   (text "max_precondition_age", nanos_text p.max_precondition_age),
   (text "default_duration", nanos_text p.default_duration),
   (text "max_concurrent_jobs", decimal p.max_concurrent_jobs),
   (text "authority_lease", nanos_text p.authority_lease),
   (text "drain_lease", nanos_text p.drain_lease),
   (text "max_drain_failures", decimal p.max_drain_failures_before_block),
   (text "max_verification_attempts", decimal p.max_verification_attempts),
   (text "max_restoration_attempts", decimal p.max_restoration_attempts)]

def render_policy (p : Policy) : Text :=
  p.evidence_ttl.rows.flatMap render_evidence_ttl ++ p.redundancy.flatMap render_redundancy ++
    p.headroom.flatMap render_headroom ++ p.domain_limits.flatMap render_domain_limit ++
    p.contracts.flatMap render_contract ++ p.windows.flatMap render_window ++
    p.tiers.flatMap render_tier ++ (policy_settings p).flatMap render_setting

end MaintenanceFabric
