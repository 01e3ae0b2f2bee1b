import MaintenanceFabric.Core.Hash
import MaintenanceFabric.Domain.Identity
import MaintenanceFabric.Lib.Table

/-! # Topology

    Declared targets, their containment tree, failure domains and redundancy
    pools.  Besides the records the topology keeps three indexes (members of a
    domain, pools of a target, children of a target) that every `add` keeps up
    to date.  An index is a map whose missing entries read as the empty
    vector, so it is a function here.  The indexes are private to the source's
    class, so that they list every record is part of the type.
-/

namespace MaintenanceFabric

open Lib

structure DomainRecord where
  id : DomainId
  name : Text := []
  correlated : Bool := true
  deriving DecidableEq, Repr

structure PoolRecord where
  id : PoolId
  name : Text := []
  members : List TargetId
  deriving DecidableEq, Repr

theorem no_targets_indexed : ∀ r ∈ (Table.empty : Table TargetRecord.id).rows, ∀ d ∈ r.domains,
    ((Table.empty : Table DomainRecord.id).find d).isSome = true ∧ r.id ∈ ([] : List TargetId) := by
  intro r h
  cases h

theorem no_pools_indexed : ∀ p ∈ (Table.empty : Table PoolRecord.id).rows, ∀ m ∈ p.members,
    p.id ∈ ([] : List PoolId) := by
  intro p h
  cases h

structure Topology where
  targets : Table TargetRecord.id := Table.empty
  domains : Table DomainRecord.id := Table.empty
  pools : Table PoolRecord.id := Table.empty
  domain_members : DomainId → List TargetId := fun _ => []
  target_pools : TargetId → List PoolId := fun _ => []
  children : TargetId → List TargetId := fun _ => []
  revision : Revision := ⟨0⟩
  /-- The domains of a target are declared, and list it. -/
  members_indexed : ∀ r ∈ targets.rows, ∀ d ∈ r.domains,
    (domains.find d).isSome = true ∧ r.id ∈ domain_members d := by exact no_targets_indexed
  /-- The members of a pool list it. -/
  pools_indexed : ∀ p ∈ pools.rows, ∀ m ∈ p.members,
    p.id ∈ target_pools m := by exact no_pools_indexed

/-- Insert into an index entry that is kept sorted and free of repetitions. -/
def index_insert {α : Type} [LinearOrder α] (entry : List α) (a : α) : List α :=
  if a ∈ entry then entry else sort (entry ++ [a])

@[simp] theorem mem_index_insert {α : Type} [LinearOrder α] {entry : List α} {a b : α} :
    b ∈ index_insert entry a ↔ b ∈ entry ∨ b = a := by
  unfold index_insert
  split
  · next h =>
    constructor
    · exact .inl
    · rintro (hb | rfl)
      · exact hb
      · exact h
  · simp

namespace Topology

def target (t : Topology) (id : TargetId) : Option TargetRecord := t.targets.find id
def domain (t : Topology) (id : DomainId) : Option DomainRecord := t.domains.find id
def pool (t : Topology) (id : PoolId) : Option PoolRecord := t.pools.find id
def contains (t : Topology) (id : TargetId) : Bool := (t.target id).isSome
def pools_containing (t : Topology) (id : TargetId) : List PoolId := t.target_pools id

/-! ## Building -/

def touch (t : Topology) : Topology := { t with revision := t.revision.next }

/-- Install a domain. -/
def with_domain (t : Topology) (record : DomainRecord) : Topology :=
  { t with
    domains := t.domains.put record
    members_indexed := by
      intro r hr d hd
      obtain ⟨hdeclared, hmember⟩ := t.members_indexed r hr d hd
      refine ⟨?_, hmember⟩
      rw [Table.find_put]
      split
      · rfl
      · exact hdeclared }

def add_domain (t : Topology) (record : DomainRecord) : Result Topology := do
  refuse_if (!record.id.valid) (invalid_argument (text "domain id is not valid"))
  refuse_if (record.name.length > limits.kMaxNameLength)
    (make_error .LimitExceeded (text "domain name exceeds maximum length"))
  refuse_if (decide (t.domains.size ≥ limits.kMaxDomainsPerTopology) && (t.domain record.id).isNone)
    (make_error .LimitExceeded (text "topology reached the maximum number of domains"))
  .ok (t.with_domain record).touch

def check_parent (t : Topology) (record : TargetRecord) : Status :=
  match record.parent with
  | none => ok_status
  | some parent => do
      refuse_if (parent = record.id) (invalid_argument (text "target cannot be its own parent"))
      refuse_if (!t.contains parent) (make_error .NotFound
        (text "parent target " ++ parent.to_string ++ text " must exist before its child"))

def check_domain_reference (t : Topology) (domain : DomainId) : Status := do
  refuse_if (!domain.valid)
    (invalid_argument (text "target references an invalid failure domain"))
  refuse_if ((t.domain domain).isNone) (make_error .NotFound
    (text "failure domain " ++ domain.to_string ++
      text " must be declared before the targets that belong to it"))

/-- The checks of `add_target`. -/
def check_target (t : Topology) (record : TargetRecord) : Status := do
  validate_target_record record
  refuse_if (decide (t.targets.size ≥ limits.kMaxTargetsPerTopology) && !t.contains record.id)
    (make_error .LimitExceeded (text "topology reached the maximum number of targets"))
  t.check_parent record
  check_all t.check_domain_reference record.domains

theorem check_target_declared {t : Topology} {record : TargetRecord} {u : Unit}
    (h : t.check_target record = .ok u) : ∀ d ∈ record.domains, (t.domain d).isSome = true := by
  simp only [check_target, Result.bind_eq_ok] at h
  obtain ⟨_, _, _, _, _, _, hall⟩ := h
  intro d hd
  have hone := check_all_ok hall d hd
  simp only [check_domain_reference, Result.bind_eq_ok, refuse_if_eq_ok] at hone
  obtain ⟨_, _, hsome⟩ := hone
  simpa using hsome

/-- The members of a domain without a target its stored record put there. -/
def unindexed_members (t : Topology) (id : TargetId) (d : DomainId) : List TargetId :=
  match t.target id with
  | none => t.domain_members d
  | some existing =>
      if d ∈ existing.domains then (t.domain_members d).filter (· ≠ id) else t.domain_members d

def unindexed_children (t : Topology) (id : TargetId) (p : TargetId) : List TargetId :=
  match t.target id with
  | none => t.children p
  | some existing =>
      if existing.parent = some p then (t.children p).filter (· ≠ id) else t.children p

theorem mem_unindexed_members {t : Topology} {id x : TargetId} {d : DomainId} (hne : x ≠ id)
    (h : x ∈ t.domain_members d) : x ∈ t.unindexed_members id d := by
  unfold unindexed_members
  split
  · exact h
  · split
    · simp [h, hne]
    · exact h

/-- Install a target: its old index entries go, its new ones come. -/
def with_target (t : Topology) (record : TargetRecord)
    (declared : ∀ d ∈ record.domains, (t.domain d).isSome = true) : Topology :=
  { t with
    targets := t.targets.put record
    domain_members := fun d =>
      if d ∈ record.domains then index_insert (t.unindexed_members record.id d) record.id
      else t.unindexed_members record.id d
    children := fun p =>
      if record.parent = some p then index_insert (t.unindexed_children record.id p) record.id
      else t.unindexed_children record.id p
    members_indexed := by
      intro r hr d hd
      rcases Table.mem_put.mp hr with rfl | ⟨hr, hne⟩
      · refine ⟨declared d hd, ?_⟩
        rw [if_pos hd]
        exact mem_index_insert.mpr (.inr rfl)
      · obtain ⟨hdeclared, hmember⟩ := t.members_indexed r hr d hd
        have hkept := mem_unindexed_members hne hmember
        refine ⟨hdeclared, ?_⟩
        split
        · exact mem_index_insert.mpr (.inl hkept)
        · exact hkept }

def add_target (t : Topology) (record : TargetRecord) : Result Topology :=
  match h : t.check_target record with
  | .error e => .error e
  | .ok _ => .ok (t.with_target record (check_target_declared h)).touch

def check_pool_member (t : Topology) (member : TargetId) : Status :=
  refuse_if (!t.contains member) (make_error .NotFound
    (text "pool member " ++ member.to_string ++ text " is not a declared target"))

/-- The pools of a target without a pool its stored record put there. -/
def unindexed_pools (t : Topology) (id : PoolId) (m : TargetId) : List PoolId :=
  match t.pool id with
  | none => t.target_pools m
  | some existing =>
      if m ∈ existing.members then (t.target_pools m).filter (· ≠ id) else t.target_pools m

theorem mem_unindexed_pools {t : Topology} {id x : PoolId} {m : TargetId} (hne : x ≠ id)
    (h : x ∈ t.target_pools m) : x ∈ t.unindexed_pools id m := by
  unfold unindexed_pools
  split
  · exact h
  · split
    · simp [h, hne]
    · exact h

/-- Install a pool: its old index entries go, its new ones come. -/
def with_pool (t : Topology) (record : PoolRecord) : Topology :=
  { t with
    pools := t.pools.put record
    target_pools := fun m =>
      if m ∈ record.members then index_insert (t.unindexed_pools record.id m) record.id
      else t.unindexed_pools record.id m
    pools_indexed := by
      intro p hp m hm
      rcases Table.mem_put.mp hp with rfl | ⟨hp, hne⟩
      · rw [if_pos hm]
        exact mem_index_insert.mpr (.inr rfl)
      · have hkept := mem_unindexed_pools hne (t.pools_indexed p hp m hm)
        split
        · exact mem_index_insert.mpr (.inl hkept)
        · exact hkept }

def add_pool (t : Topology) (record : PoolRecord) : Result Topology := do
  refuse_if (!record.id.valid) (invalid_argument (text "pool id is not valid"))
  refuse_if (record.name.length > limits.kMaxNameLength)
    (make_error .LimitExceeded (text "pool name exceeds maximum length"))
  refuse_if (record.members.length > limits.kMaxMembersPerPool)
    (make_error .LimitExceeded (text "pool exceeds the maximum member count"))
  refuse_if (decide (t.pools.size ≥ limits.kMaxPoolsPerTopology) && (t.pool record.id).isNone)
    (make_error .LimitExceeded (text "topology reached the maximum number of pools"))
  refuse_if record.members.isEmpty (invalid_argument (text "pool must have at least one member"))
  check_all t.check_pool_member record.members
  refuse_if (repeats record.members)
    (invalid_argument (text "pool lists the same member twice"))
  .ok (t.with_pool record).touch

/-! ## Traversals -/

/-- Up to `depth` parents of the record, nearest first. -/
def ancestors_from (t : Topology) : Nat → Option TargetRecord → List TargetId
  | 0, _ => []
  | _ + 1, none => []
  | depth + 1, some record =>
      match record.parent with
      | none => []
      | some parent => parent :: t.ancestors_from depth (t.target parent)

def ancestors (t : Topology) (id : TargetId) : List TargetId :=
  t.ancestors_from limits.kMaxTopologyChainDepth (t.target id)

/-- The depth-first walk: the stack's top is the head of the list. -/
def subtree_loop (t : Topology) : Nat → List TargetId → List TargetId
  | 0, _ => []
  | _ + 1, [] => []
  | guard + 1, current :: stack => current :: t.subtree_loop guard (t.children current ++ stack)

/-- The target and every descendant. The guard breaks the walk right after the visit that
    exceeds the target limit. -/
def subtree (t : Topology) (id : TargetId) : List TargetId :=
  if t.contains id then sorted_unique (t.subtree_loop (limits.kMaxTargetsPerTopology + 1) [id])
  else []

/-- Union of the subtrees of the request: what a job takes out of service. -/
def removal_set (t : Topology) (requested : List TargetId) : List TargetId :=
  sort (requested.foldl (fun out id => push_all_unique out (t.subtree id)) [])

def domains_of (t : Topology) (targets : List TargetId) : List DomainId :=
  sort (targets.foldl (fun out id =>
    match t.target id with
    | none => out
    | some record => push_all_unique out record.domains) [])

def pools_of (t : Topology) (targets : List TargetId) : List PoolId :=
  sort (targets.foldl (fun out id => push_all_unique out (t.pools_containing id)) [])

theorem mem_pools_of {t : Topology} {targets : List TargetId} {p : PoolId} :
    p ∈ t.pools_of targets ↔ ∃ m ∈ targets, p ∈ t.target_pools m := by
  unfold pools_of
  rw [mem_sort, mem_collected (P := fun m p => p ∈ t.target_pools m)]
  · simp
  · intro out m p
    exact mem_push_all_unique

theorem mem_domains_of {t : Topology} {targets : List TargetId} {d : DomainId} :
    d ∈ t.domains_of targets ↔ ∃ m ∈ targets, ∃ r, t.target m = some r ∧ d ∈ r.domains := by
  unfold domains_of
  rw [mem_sort, mem_collected (P := fun m d => ∃ r, t.target m = some r ∧ d ∈ r.domains)]
  · simp
  · intro out m d
    cases t.target m with
    | none => simp
    | some record => simp

/-! ## Validation -/

/-- Follow the parent chain of `cursor`. More steps than there are targets revisit one. -/
def check_chain (t : Topology) (id : TargetId) : Nat → List TargetId → TargetRecord → Status
  | 0, _, _ => .error (make_error .CorruptState
      (text "target " ++ id.to_string ++ text " is part of a containment cycle"))
  | fuel + 1, seen, cursor =>
      match cursor.parent with
      | none => ok_status
      | some parent =>
          if cursor.id ∈ seen then .error (make_error .CorruptState
            (text "target " ++ id.to_string ++ text " is part of a containment cycle"))
          else
            match t.target parent with
            | none => .error (make_error .CorruptState
                (text "target " ++ id.to_string ++ text " has a dangling parent chain"))
            | some next => t.check_chain id fuel (cursor.id :: seen) next

def check_stored_target (t : Topology) (record : TargetRecord) : Status := do
  validate_target_record record
  refuse_if (match record.parent with
      | none => false
      | some parent => decide (parent = record.id) || !t.contains parent)
    (make_error .CorruptState
      (text "target " ++ record.id.to_string ++ text " has an unresolved parent"))
  check_all (fun domain => refuse_if ((t.domain domain).isNone) (make_error .CorruptState
    (text "target " ++ record.id.to_string ++ text " references undeclared domain " ++
      domain.to_string))) record.domains
  t.check_chain record.id (t.targets.size + 2) [] record

def check_stored_pool (t : Topology) (record : PoolRecord) : Status := do
  refuse_if record.members.isEmpty
    (make_error .CorruptState (text "pool " ++ record.id.to_string ++ text " has no members"))
  check_all (fun member => refuse_if (!t.contains member) (make_error .CorruptState
    (text "pool " ++ record.id.to_string ++ text " references undeclared target " ++
      member.to_string))) record.members

def validate (t : Topology) : Status := do
  refuse_if (t.targets.size > limits.kMaxTargetsPerTopology)
    (make_error .LimitExceeded (text "too many targets"))
  refuse_if (t.domains.size > limits.kMaxDomainsPerTopology)
    (make_error .LimitExceeded (text "too many failure domains"))
  refuse_if (t.pools.size > limits.kMaxPoolsPerTopology)
    (make_error .LimitExceeded (text "too many pools"))
  check_all t.check_stored_target t.targets.rows
  check_all t.check_stored_pool t.pools.rows

/-! ## Digest -/

def digest_target_id (d : Digest) (id : TargetId) : Digest :=
  (d.update_u32 id.kind.code).update_u32 id.index

def digest_target (d : Digest) (record : TargetRecord) : Digest :=
  let d := (digest_target_id (d.update (text "T")) record.id).update record.name
  let d := d.update_bool record.parent.isSome
  let d := match record.parent with
    | none => d
    | some parent => digest_target_id d parent
  let d := record.domains.foldl (fun d x => (d.update_u32 x.kind.code).update_u32 x.index)
    (d.update_u64 record.domains.length)
  (d.update_u32 record.capacity_units).update_bool record.maintainable

def digest_domain (d : Digest) (record : DomainRecord) : Digest :=
  ((((d.update (text "D")).update_u32 record.id.kind.code).update_u32 record.id.index).update
    record.name).update_bool record.correlated

def digest_pool (d : Digest) (record : PoolRecord) : Digest :=
  record.members.foldl digest_target_id ((((d.update (text "P")).update_u64
    record.id.value).update record.name).update_u64 record.members.length)

def digest (t : Topology) : UInt64 :=
  let d := ({} : Digest).update (text "mf.topology.v1")
  let d := t.targets.rows.foldl digest_target (d.update_u64 t.targets.size)
  let d := t.domains.rows.foldl digest_domain (d.update_u64 t.domains.size)
  (t.pools.rows.foldl digest_pool (d.update_u64 t.pools.size)).value

end Topology

end MaintenanceFabric
