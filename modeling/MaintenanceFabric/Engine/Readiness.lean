import MaintenanceFabric.Domain.Policy
import MaintenanceFabric.Domain.Topology

/-! # Readiness

    The engine's only view of operational health, built from evidence that is
    fresh under the running incarnation.  A target with several fresh sources
    is as healthy as the worst of them.
-/

namespace MaintenanceFabric

open Lib

/-- Worst-case ordering of health reports. -/
def health_severity : Health → Nat
  | .Healthy => 0
  | .Degraded => 1
  | .Down => 2
  | .Retired => 3
  | .Unknown => 4

structure TargetReadiness where
  target : TargetId
  health : Health := .Unknown
  fresh : Bool := false
  fresh_sources : Nat := 0
  source : SourceId := ⟨0⟩
  observed_at : Nanos := 0
  state : FreshnessState := .Missing
  detail : Text := []

structure ReadinessView where
  entries : Table TargetReadiness.target := Table.empty
  built_at : Nanos := 0

/-- The worst health among the observations, given the worst so far. -/
def worst_health (observations : List EvidenceRecord) (first : EvidenceRecord) : Health :=
  observations.foldl (fun worst o =>
    if health_severity o.payload.health > health_severity worst then o.payload.health else worst)
    first.payload.health

/-- One row of the view. -/
def target_readiness (evidence : EvidenceStore) (policy : Policy) (current : ControllerIncarnation)
    (now : Nanos) (record : TargetRecord) : TargetReadiness :=
  let subject := EvidenceSubject.of record.id
  let sources := evidence.fresh_sources .TargetHealth subject current now
  let fresh := decide (sources.length ≥ policy.min_evidence_sources)
  if sources.isEmpty then
    { target := record.id, fresh, fresh_sources := 0, state := .Missing
      detail := text "no fresh target-health evidence from the running incarnation" }
  else
    let observations := sources.filterMap (fun source =>
      evidence.find { kind := .TargetHealth, subject, source })
    let detail :=
      if fresh then text "fresh target-health evidence from " ++ decimal sources.length ++
        text " source(s)"
      else text "target-health evidence from fewer sources than policy requires"
    match observations with
    | [] => { target := record.id, health := .Healthy, fresh, fresh_sources := sources.length
              state := .Fresh, detail }
    | first :: rest =>
        { target := record.id, health := worst_health rest first, fresh
          fresh_sources := sources.length
          -- Sources are ascending, so the first one is the smallest.
          source := first.key.source, observed_at := first.observed_at, state := .Fresh, detail }

theorem target_readiness_target (evidence : EvidenceStore) (policy : Policy)
    (current : ControllerIncarnation) (now : Nanos) (record : TargetRecord) :
    (target_readiness evidence policy current now record).target = record.id := by
  simp only [target_readiness]
  split
  · rfl
  · split <;> rfl

theorem target_readiness_fresh (evidence : EvidenceStore) (policy : Policy)
    (current : ControllerIncarnation) (now : Nanos) (record : TargetRecord) :
    (target_readiness evidence policy current now record).fresh =
      decide ((evidence.fresh_sources .TargetHealth (EvidenceSubject.of record.id) current
        now).length ≥ policy.min_evidence_sources) := by
  simp only [target_readiness]
  split
  · rfl
  · split <;> rfl

namespace ReadinessView

def build (topology : Topology) (evidence : EvidenceStore) (policy : Policy)
    (current : ControllerIncarnation) (now : Nanos) : ReadinessView :=
  { entries := topology.targets.mapRows (target_readiness evidence policy current now)
      (target_readiness_target evidence policy current now)
    built_at := now }

def get (v : ReadinessView) (id : TargetId) : Option TargetReadiness := v.entries.find id

def health_of (v : ReadinessView) (id : TargetId) : Health :=
  match v.get id with
  | none => .Unknown
  | some entry => entry.health

def is_fresh (v : ReadinessView) (id : TargetId) : Bool :=
  match v.get id with
  | none => false
  | some entry => entry.fresh

/-- Fresh and serving: the only members that count as surviving capacity. -/
def is_serving (v : ReadinessView) (id : TargetId) : Bool :=
  v.is_fresh id && (v.health_of id).is_serving

def unfresh (v : ReadinessView) (scope : List TargetId) : List TargetId :=
  sorted_unique (scope.filter (fun t => !v.is_fresh t))

def digest (v : ReadinessView) : UInt64 :=
  let d := (({} : Digest).update (text "mf.readiness.v1")).update_i64 v.built_at
  (v.entries.rows.foldl (fun d e => (((((d.update_u32 e.target.kind.code).update_u32
    e.target.index).update_u32 e.health.code).update_bool e.fresh).update_u64
    e.fresh_sources).update_i64 e.observed_at) (d.update_u64 v.entries.size)).value

/-- A target of the view is fresh exactly when enough distinct sources vouch for it. -/
theorem is_fresh_build {topology : Topology} {evidence : EvidenceStore} {policy : Policy}
    {current : ControllerIncarnation} {now : Nanos} {id : TargetId} :
    (build topology evidence policy current now).is_fresh id = true ↔
      topology.contains id = true ∧
        policy.min_evidence_sources ≤
          (evidence.fresh_sources .TargetHealth (EvidenceSubject.of id) current now).length := by
  unfold is_fresh get build Topology.contains Topology.target
  rw [Table.find_mapRows]
  cases h : topology.targets.find id with
  | none => simp
  | some record =>
    have hid : record.id = id := Table.key_of_find h
    simp [target_readiness_fresh, hid]

end ReadinessView

end MaintenanceFabric
