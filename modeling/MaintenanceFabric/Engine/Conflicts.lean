import MaintenanceFabric.Engine.Scheduling

/-! # Conflicts between jobs

    The report an operator asks for: which jobs claim a target in common, or a
    correlated domain the policy limits, what the ledger reserves, who is
    blocked and who is queued.  Every part of the context may be missing.
-/

namespace MaintenanceFabric

open Lib

/-! ## Texts -/

def AuthorityReservation.to_text (r : AuthorityReservation) : Text :=
  r.id.to_string ++ text " job=" ++ r.job.to_string ++ text " gen=" ++ r.generation.to_string ++
    text " owner=" ++ r.owner.to_string ++ text " targets=" ++ decimal r.targets.length ++
    text " expires=" ++ format_time r.expires_at

/-- `a,b,c`. -/
def comma_separated : List Text → Text
  | [] => []
  | first :: rest => first ++ rest.flatMap (fun t => text "," ++ t)

def MaintenanceJob.to_text (j : MaintenanceJob) : Text :=
  j.id.to_string ++ text " gen=" ++ j.generation.to_string ++ text " state=" ++ j.state.to_string ++
    (if j.block ≠ .None then text " block=" ++ j.block.to_string else []) ++ text " targets=[" ++
    comma_separated (j.targets.map TargetId.to_string) ++ text "] authority=" ++
    j.authority.to_string ++ text " lease=" ++ j.lease.to_string

/-! ## The report -/

structure ExplanationLine where
  code : Text
  text : Text
  deriving DecidableEq, Repr

structure ConflictEntry where
  first : JobId
  second : JobId
  shared : TargetId
  kind : Text
  detail : Text
  deriving DecidableEq, Repr

structure ConflictReport where
  conflicts : List ConflictEntry := []
  reservations : List ExplanationLine := []
  blocked : List ExplanationLine := []
  queued : List ExplanationLine := []
  at_ : Nanos := 0
  digest : UInt64 := 0

structure ConflictContext where
  jobs : Option JobTable := none
  ledger : Option AuthorityLedger := none
  topology : Option Topology := none
  policy : Option Policy := none
  now : Nanos := 0

def Policy.has_domain_limit (p : Policy) (domain : DomainId) : Bool :=
  p.domain_limits.any (fun rule => rule.domain = domain)

namespace ConflictContext

variable (c : ConflictContext)

/-- Does the job take part in the report? A validated job does not: it holds nothing yet. -/
def reports (job : MaintenanceJob) : Bool :=
  job.state.holds_resources || decide (job.state = .Proposed)

def target_entry (a b : MaintenanceJob) (target : TargetId) : ConflictEntry :=
  { first := a.id
    second := b.id
    shared := target
    kind := text "shared-target"
    detail := text "both jobs claim " ++ target.to_string ++ text " (" ++ a.state.to_string ++
      text " vs " ++ b.state.to_string ++ text ")" }

def domain_entry (a b : MaintenanceJob) (domain : DomainId) : ConflictEntry :=
  { first := a.id
    second := b.id
    shared := a.removal_set.headD {}
    kind := text "shared-correlated-domain"
    detail := text "both jobs remove capacity from correlated domain " ++ domain.to_string }

/-- The first target of one scope that is in the other. -/
def shared_target (a b : MaintenanceJob) : List ConflictEntry :=
  ((a.removal_set.find? (fun target => decide (target ∈ b.removal_set))).map
    (target_entry a b)).toList

/-- Without a policy every domain counts. -/
def counts_domain (domain : DomainId) : Bool :=
  match c.policy with
  | none => true
  | some policy => policy.has_domain_limit domain

def shared_domains (a b : MaintenanceJob) : List ConflictEntry :=
  match c.topology with
  | none => []
  | some topology =>
      let shared := (topology.domains_of a.removal_set).filter
        (fun domain => decide (domain ∈ topology.domains_of b.removal_set))
      (shared.filter c.counts_domain).map (domain_entry a b)

def pair_conflicts (a b : MaintenanceJob) : List ConflictEntry :=
  shared_target a b ++ c.shared_domains a b

/-- Every job against the ones behind it. -/
def all_conflicts : List MaintenanceJob → List ConflictEntry
  | [] => []
  | a :: rest => rest.flatMap (c.pair_conflicts a) ++ all_conflicts rest

def reservation_line (r : AuthorityReservation) : ExplanationLine :=
  { code := r.id.to_string
    text := r.to_text ++ if r.live_at c.now then text " live" else text " expired" }

def blocked_line (job : MaintenanceJob) : ExplanationLine :=
  { code := job.block.to_string, text := job.id.to_string ++ text " -- " ++ job.block_detail }

def queued_line (job : MaintenanceJob) : ExplanationLine :=
  { code := job.state.to_string, text := job.to_text }

/-- The states the list of queued jobs asks for. -/
def waits : JobState → Bool
  | .Proposed | .Validated | .Prerequisites | .Ready => true
  | _ => false

end ConflictContext

namespace ConflictReport

def digest_lines (lines : List ExplanationLine) (d : Digest) : Digest :=
  lines.foldl (fun d line => (d.update line.code).update line.text) (d.update_u64 lines.length)

def digest_entry (d : Digest) (e : ConflictEntry) : Digest :=
  let d := (d.update_u64 e.first.value).update_u64 e.second.value
  let d := (d.update_u32 e.shared.kind.code).update_u32 e.shared.index
  (d.update e.kind).update e.detail

def digest_of (r : ConflictReport) : UInt64 :=
  let d := (({} : Digest).update (text "mf.conflicts.v1")).update_i64 r.at_
  let d := r.conflicts.foldl digest_entry (d.update_u64 r.conflicts.length)
  (digest_lines r.blocked (digest_lines r.reservations d)).value

end ConflictReport

open ConflictContext in
def inspect_conflicts (c : ConflictContext) : ConflictReport :=
  match c.jobs with
  | none => { at_ := c.now }
  | some jobs =>
      let active := sort_by MaintenanceJob.id (jobs.jobs.rows.filter reports)
      let report : ConflictReport :=
        { conflicts := c.all_conflicts active
          reservations := match c.ledger with
            | none => []
            | some ledger => ledger.reservations.rows.map c.reservation_line
          blocked := (jobs.jobs.rows.filter (fun job => job.state = .Blocked)).map blocked_line
          queued := (active.filter (fun job => waits job.state)).map queued_line
          at_ := c.now }
      { report with digest := report.digest_of }

end MaintenanceFabric
