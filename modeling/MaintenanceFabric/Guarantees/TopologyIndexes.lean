import MaintenanceFabric.Lib.Index
import MaintenanceFabric.Store.TopologyOrder

/-! # The indexes of a topology

    Whatever is added, replaced and refused, the three indexes list what the
    records say and every reference leads somewhere.  The source patches the
    indexes in place, one entry after the other; `add_in_place` follows it
    there.
-/

namespace MaintenanceFabric

open Lib

namespace Topology

/-! ## Calls -/

/-- A call that adds a record. -/
inductive Addition where
  | domain (record : DomainRecord)
  | target (record : TargetRecord)
  | pool (record : PoolRecord)

def add (t : Topology) : Addition → Result Topology
  | .domain record => t.add_domain record
  | .target record => t.add_target record
  | .pool record => t.add_pool record

/-- The topology that a call leaves behind. -/
def after (t : Topology) (call : Addition) : Topology :=
  match t.add call with
  | .ok u => u
  | .error _ => t

def after_all (calls : List Addition) : Topology := calls.foldl after {}

theorem Built.after {t : Topology} (h : t.Built) (call : Addition) : (t.after call).Built := by
  unfold Topology.after
  cases hadd : t.add call with
  | error e => exact h
  | ok u =>
    cases call with
    | domain record => exact h.domain hadd
    | target record => exact h.target hadd
    | pool record => exact h.pool hadd

theorem built_after_all (calls : List Addition) : (after_all calls).Built := by
  have hfold : ∀ (calls : List Addition) (t : Topology), t.Built → (calls.foldl after t).Built := by
    intro calls
    induction calls with
    | nil => exact fun _ h => h
    | cons call calls ih => exact fun t h => ih _ (h.after call)
  exact hfold calls {} .empty

/-! ## Exactness -/

def InDomain (t : Topology) (x : TargetId) (d : DomainId) : Prop :=
  ∃ r, t.target x = some r ∧ d ∈ r.domains

def ChildOf (t : Topology) (x p : TargetId) : Prop := ∃ r, t.target x = some r ∧ r.parent = some p

def InPool (t : Topology) (p : PoolId) (m : TargetId) : Prop :=
  ∃ r, t.pool p = some r ∧ m ∈ r.members

/-- The indexes list what the records say, and what the records name is declared. -/
structure Exact (t : Topology) : Prop where
  members : Indexes t.domain_members t.InDomain
  children : Indexes t.children t.ChildOf
  pools : Indexes t.pools_containing t.InPool
  domains_declared : ∀ x d, t.InDomain x d → (t.domain d).isSome = true
  parents_declared : ∀ x p, t.ChildOf x p → t.contains p = true
  members_declared : ∀ p m, t.InPool p m → t.contains m = true

theorem ascending_index_insert {α : Type} [LinearOrder α] {entry : List α} {a : α}
    (h : entry.Pairwise (· < ·)) : (index_insert entry a).Pairwise (· < ·) := by
  unfold index_insert
  by_cases ha : a ∈ entry
  · rw [if_pos ha]
    exact h
  · rw [if_neg ha]
    refine ascending_sort (List.nodup_append.mpr ⟨h.imp ne_of_lt, List.nodup_singleton a, ?_⟩)
    rintro x hx y hy rfl
    exact ha (List.mem_singleton.mp hy ▸ hx)

/-- What dropping a value and entering it again makes of an index. -/
theorem patch_index {ι α : Type} [LinearOrder α] {index dropped index' : ι → List α}
    {refers refers' : α → ι → Prop} (h : Indexes index refers) {a : α} (names : ι → Prop)
    [DecidablePred names] {others : α → Bool} (hdrops : ∀ x, others x = true ↔ x ≠ a)
    (hdropped : ∀ i, dropped i = (index i).filter others)
    (hindex : ∀ i, index' i = if names i then index_insert (dropped i) a else dropped i)
    (hnames : ∀ i, refers' a i ↔ names i)
    (hothers : ∀ x i, x ≠ a → (refers' x i ↔ refers x i)) : Indexes index' refers' := by
  refine h.replace (a := a) ?_ ?_ hothers
  · intro i
    rw [hindex, hdropped]
    have hkept := (h.ascending i).filter others
    by_cases hi : names i
    · rw [if_pos hi]
      exact ascending_index_insert hkept
    · rw [if_neg hi]
      exact hkept
  · intro i x
    rw [hindex, hdropped, hnames]
    by_cases hi : names i
    · rw [if_pos hi]
      simp [hi, hdrops]
    · rw [if_neg hi]
      simp [hi, hdrops]

/-- The stored record says where the value is to be dropped; elsewhere it is not. -/
theorem dropped_eq {α ρ : Type} [DecidableEq α] {l : List α} {a : α} {found : Option ρ}
    {names : ρ → Prop} [DecidablePred names] :
    (a ∈ l ↔ ∃ r, found = some r ∧ names r) →
      (match found with
        | none => l
        | some r => if names r then l.filter (· ≠ a) else l) = l.filter (· ≠ a) := by
  intro h
  have habsent : a ∉ l → l = l.filter (· ≠ a) := by
    intro ha
    rw [eq_comm, List.filter_eq_self]
    intro x hx
    simp only [decide_eq_true_eq]
    rintro rfl
    exact ha hx
  cases found with
  | none => exact habsent (fun ha => by simpa using h.mp ha)
  | some r =>
    by_cases hr : names r
    · exact if_pos hr
    · simp only [if_neg hr]
      exact habsent (fun ha => hr (by simpa using h.mp ha))

/-! ## One call -/

section Call

variable {t : Topology}

theorem unindexed_members_eq (h : t.Exact) (id : TargetId) (d : DomainId) :
    t.unindexed_members id d = (t.domain_members d).filter (· ≠ id) := by
  rw [← dropped_eq (h.members.mem d id)]
  unfold unindexed_members
  cases t.target id with
  | none => rfl
  | some r => rfl

theorem unindexed_children_eq (h : t.Exact) (id p : TargetId) :
    t.unindexed_children id p = (t.children p).filter (· ≠ id) := by
  rw [← dropped_eq (h.children.mem p id)]
  unfold unindexed_children
  cases t.target id with
  | none => rfl
  | some r => rfl

theorem unindexed_pools_eq (h : t.Exact) (id : PoolId) (m : TargetId) :
    t.unindexed_pools id m = (t.pools_containing m).filter (· ≠ id) := by
  rw [← dropped_eq (h.pools.mem m id)]
  unfold unindexed_pools
  cases t.pool id with
  | none => rfl
  | some r => rfl

theorem Exact.add_domain (h : t.Exact) {record : DomainRecord} {u : Topology}
    (hadd : t.add_domain record = .ok u) : u.Exact := by
  obtain ⟨_, _, rfl⟩ := add_domain_ok.mp hadd
  refine ⟨h.members, h.children, h.pools, ?_, h.parents_declared, h.members_declared⟩
  intro x d hd
  have hdeclared := h.domains_declared x d hd
  unfold domain at hdeclared ⊢
  simp only [touch, with_domain, Table.find_put]
  by_cases hid : record.id = d
  · rw [if_pos hid]
    rfl
  · rw [if_neg hid]
    exact hdeclared

theorem check_target_parent {record : TargetRecord} {v : Unit} (h : t.check_target record = .ok v)
    {p : TargetId} (hp : record.parent = some p) : t.contains p = true := by
  simp only [check_target, Result.bind_eq_ok] at h
  obtain ⟨_, _, _, _, _, hparent, _⟩ := h
  simp only [check_parent, hp, Result.bind_eq_ok, refuse_if_eq_ok] at hparent
  obtain ⟨_, _, hcontains⟩ := hparent
  simpa using hcontains

theorem Exact.with_target (h : t.Exact) {record : TargetRecord}
    (declared : ∀ d ∈ record.domains, (t.domain d).isSome = true)
    (hparent : ∀ p, record.parent = some p → t.contains p = true) :
    (t.with_target record declared).Exact := by
  have hself : (t.with_target record declared).target record.id = some record :=
    Table.find_put_self _ _
  have hother : ∀ x, x ≠ record.id → (t.with_target record declared).target x = t.target x :=
    fun x hx => Table.find_put_of_ne _ (Ne.symm hx)
  -- The new row replaces one with its id at most, so whatever was declared still is.
  have hcontains : ∀ p, t.contains p = true →
    (t.with_target record declared).contains p = true := by
    intro p hp
    unfold contains
    by_cases hid : p = record.id
    · rw [hid, hself]
      rfl
    · rw [hother p hid]
      exact hp
  refine ⟨?_, ?_, h.pools, ?_, ?_, ?_⟩
  · refine patch_index h.members (a := record.id) (· ∈ record.domains) (by simp)
      (unindexed_members_eq h record.id) (fun _ => rfl) ?_ ?_
    · intro d
      simp [InDomain, hself]
    · intro x d hx
      simp only [InDomain, hother x hx]
  · refine patch_index h.children (a := record.id) (record.parent = some ·) (by simp)
      (unindexed_children_eq h record.id) (fun _ => rfl) ?_ ?_
    · intro p
      simp [ChildOf, hself]
    · intro x p hx
      simp only [ChildOf, hother x hx]
  · rintro x d ⟨r, hr, hd⟩
    by_cases hx : x = record.id
    · rw [hx, hself] at hr
      cases hr
      exact declared d hd
    · rw [hother x hx] at hr
      exact h.domains_declared x d ⟨r, hr, hd⟩
  · rintro x p ⟨r, hr, hp⟩
    by_cases hx : x = record.id
    · rw [hx, hself] at hr
      cases hr
      exact hcontains p (hparent p hp)
    · rw [hother x hx] at hr
      exact hcontains p (h.parents_declared x p ⟨r, hr, hp⟩)
  · intro p m hm
    exact hcontains m (h.members_declared p m hm)

theorem Exact.add_target (h : t.Exact) {record : TargetRecord} {u : Topology}
    (hadd : t.add_target record = .ok u) : u.Exact := by
  unfold Topology.add_target at hadd
  split at hadd
  · cases hadd
  · next hcheck =>
    cases hadd
    have hexact := h.with_target (check_target_declared hcheck)
      (fun p hp => check_target_parent hcheck hp)
    exact ⟨hexact.members, hexact.children, hexact.pools, hexact.domains_declared,
      hexact.parents_declared, hexact.members_declared⟩

theorem Exact.add_pool (h : t.Exact) {record : PoolRecord} {u : Topology}
    (hadd : t.add_pool record = .ok u) : u.Exact := by
  obtain ⟨_, _, hdeclared, rfl⟩ := add_pool_ok.mp hadd
  have hself : (t.with_pool record).touch.pool record.id = some record := Table.find_put_self _ _
  have hother : ∀ p, p ≠ record.id → (t.with_pool record).touch.pool p = t.pool p :=
    fun p hp => Table.find_put_of_ne _ (Ne.symm hp)
  refine ⟨h.members, h.children, ?_, h.domains_declared, h.parents_declared, ?_⟩
  · refine patch_index h.pools (a := record.id) (· ∈ record.members) (by simp)
      (unindexed_pools_eq h record.id) (fun _ => rfl) ?_ ?_
    · intro m
      simp [InPool, hself]
    · intro p m hp
      simp only [InPool, hother p hp]
  · rintro p m ⟨r, hr, hm⟩
    by_cases hp : p = record.id
    · rw [hp, hself] at hr
      cases hr
      exact hdeclared m hm
    · rw [hother p hp] at hr
      exact h.members_declared p m ⟨r, hr, hm⟩

end Call

/-- What the calls build, they index. -/
theorem Built.exact {t : Topology} (h : t.Built) : t.Exact := by
  induction h with
  | empty =>
    refine ⟨.empty ?_, .empty ?_, .empty ?_, ?_, ?_, ?_⟩ <;>
    · rintro _ _ ⟨r, hr, _⟩
      cases hr
  | domain _ hadd ih => exact ih.add_domain hadd
  | target _ hadd ih => exact ih.add_target hadd
  | pool _ hadd ih => exact ih.add_pool hadd

/-! ## In place -/

/-- The members of the class. -/
structure Maps where
  targets : Table TargetRecord.id
  domains : Table DomainRecord.id
  pools : Table PoolRecord.id
  domain_members : DomainId → List TargetId
  target_pools : TargetId → List PoolId
  children : TargetId → List TargetId
  revision : Revision

def maps (t : Topology) : Maps :=
  ⟨t.targets, t.domains, t.pools, t.domain_members, t.target_pools, t.children, t.revision⟩

def Maps.touch (m : Maps) : Maps := { m with revision := m.revision.next }

/-- Take a value out of the entries of some keys. -/
def drop_from {ι α : Type} [DecidableEq ι] [DecidableEq α] (a : α) : List ι → (ι → List α) →
    ι → List α :=
  at_each (fun entry => entry.filter (· ≠ a))

/-- Put a value into the entries of some keys. -/
def enter_into {ι α : Type} [DecidableEq ι] [LinearOrder α] (a : α) : List ι → (ι → List α) →
    ι → List α :=
  at_each (fun entry => index_insert entry a)

theorem drop_from_apply {ι α : Type} [DecidableEq ι] [DecidableEq α] (a : α) (keys : List ι)
    (index : ι → List α) (i : ι) :
    drop_from a keys index i = if i ∈ keys then (index i).filter (· ≠ a) else index i :=
  at_each_apply (fun entry => by rw [List.filter_filter]; simp) keys index i

theorem enter_into_apply {ι α : Type} [DecidableEq ι] [LinearOrder α] (a : α) (keys : List ι)
    (index : ι → List α) (i : ι) :
    enter_into a keys index i = if i ∈ keys then index_insert (index i) a else index i := by
  refine at_each_apply ?_ keys index i
  intro entry
  rw [index_insert, if_pos (mem_index_insert.mpr (.inr rfl))]

/-- `add_domain` as a call on the topology. -/
def add_domain_in_place (t : Topology) (record : DomainRecord) : Status × Maps :=
  if record.id.valid = false then
    (.error (invalid_argument (text "domain id is not valid")), t.maps)
  else if record.name.length > limits.kMaxNameLength then
    (.error (make_error .LimitExceeded (text "domain name exceeds maximum length")), t.maps)
  else if t.domains.size ≥ limits.kMaxDomainsPerTopology ∧ t.domain record.id = none then
    (.error (make_error .LimitExceeded (text "topology reached the maximum number of domains")),
      t.maps)
  else (ok_status, { t.maps with domains := t.domains.put record }.touch)

def add_target_in_place (t : Topology) (record : TargetRecord) : Status × Maps :=
  match t.check_target record with
  | .error e => (.error e, t.maps)
  | .ok _ =>
      let m := match t.target record.id with
        | none => t.maps
        | some existing =>
            { t.maps with
              domain_members := drop_from record.id existing.domains t.domain_members
              children := drop_from record.id existing.parent.toList t.children }
      (ok_status,
        { m with
          targets := m.targets.put record
          domain_members := enter_into record.id record.domains m.domain_members
          children := enter_into record.id record.parent.toList m.children }.touch)

def add_pool_in_place (t : Topology) (record : PoolRecord) : Status × Maps :=
  if record.id.valid = false then
    (.error (invalid_argument (text "pool id is not valid")), t.maps)
  else if record.name.length > limits.kMaxNameLength then
    (.error (make_error .LimitExceeded (text "pool name exceeds maximum length")), t.maps)
  else if record.members.length > limits.kMaxMembersPerPool then
    (.error (make_error .LimitExceeded (text "pool exceeds the maximum member count")), t.maps)
  else if t.pools.size ≥ limits.kMaxPoolsPerTopology ∧ t.pool record.id = none then
    (.error (make_error .LimitExceeded (text "topology reached the maximum number of pools")),
      t.maps)
  else if record.members = [] then
    (.error (invalid_argument (text "pool must have at least one member")), t.maps)
  else
    match check_all t.check_pool_member record.members with
    | .error e => (.error e, t.maps)
    | .ok _ =>
        if repeats record.members = true then
          (.error (invalid_argument (text "pool lists the same member twice")), t.maps)
        else
          let m := match t.pool record.id with
            | none => t.maps
            | some existing =>
                { t.maps with target_pools := drop_from record.id existing.members t.target_pools }
          (ok_status,
            { m with
              pools := m.pools.put record
              target_pools := enter_into record.id record.members m.target_pools }.touch)

def add_in_place (t : Topology) : Addition → Status × Maps
  | .domain record => t.add_domain_in_place record
  | .target record => t.add_target_in_place record
  | .pool record => t.add_pool_in_place record

/-- What a call answers and leaves behind. -/
def outcome (t : Topology) (result : Result Topology) : Status × Maps :=
  match result with
  | .ok u => (ok_status, u.maps)
  | .error e => (.error e, t.maps)

/-- A check that refuses ends the call. -/
theorem outcome_bind (t : Topology) (check : Status) (rest : Unit → Result Topology) :
    t.outcome (check >>= rest) = match check with
      | .ok u => t.outcome (rest u)
      | .error e => (.error e, t.maps) := by
  cases check <;> rfl

theorem outcome_refuse_if (t : Topology) (fails : Bool) (e : Error)
    (rest : Unit → Result Topology) :
    t.outcome (refuse_if fails e >>= rest) =
      if fails = true then (.error e, t.maps) else t.outcome (rest ()) := by
  cases fails <;> rfl

theorem add_domain_in_place_eq (t : Topology) (record : DomainRecord) :
    t.add_domain_in_place record = t.outcome (t.add_domain record) := by
  unfold add_domain_in_place add_domain
  simp only [outcome_refuse_if, Bool.not_eq_true', decide_eq_true_eq, Bool.and_eq_true,
    Option.isNone_iff_eq_none]
  rfl

theorem add_target_of_check {t : Topology} {record : TargetRecord} {u : Unit}
    (h : t.check_target record = .ok u) :
    t.add_target record = .ok (t.with_target record (check_target_declared h)).touch := by
  unfold add_target
  split
  · next e hcheck =>
    rw [h] at hcheck
    cases hcheck
  · rfl

theorem add_target_of_fault {t : Topology} {record : TargetRecord} {e : Error}
    (h : t.check_target record = .error e) : t.add_target record = .error e := by
  unfold add_target
  split
  · next e' hcheck =>
    rw [h] at hcheck
    cases hcheck
    rfl
  · next u hcheck =>
    rw [h] at hcheck
    cases hcheck

/-- Dropped and entered, key by key. -/
theorem enter_dropped {ι α : Type} [DecidableEq ι] [LinearOrder α] (a : α) (keys : List ι)
    (dropped : ι → List α) {index : ι → List α} (h : ∀ i, index i = dropped i) :
    enter_into a keys index = fun i => if i ∈ keys then
      index_insert (dropped i) a else dropped i := by
  funext i
  rw [enter_into_apply, h]

theorem add_target_in_place_eq (t : Topology) (record : TargetRecord) :
    t.add_target_in_place record = t.outcome (t.add_target record) := by
  unfold add_target_in_place
  cases hcheck : t.check_target record with
  | error e =>
    rw [add_target_of_fault hcheck]
    rfl
  | ok u =>
    rw [add_target_of_check hcheck]
    simp only [outcome]
    cases hfind : t.target record.id with
    | none =>
      rw [enter_dropped record.id record.domains (t.unindexed_members record.id),
        enter_dropped record.id record.parent.toList (t.unindexed_children record.id)]
      · simp only [Option.mem_toList]
        rfl
      · intro p
        simp only [unindexed_children, hfind]
        rfl
      · intro d
        simp only [unindexed_members, hfind]
        rfl
    | some existing =>
      rw [enter_dropped record.id record.domains (t.unindexed_members record.id),
        enter_dropped record.id record.parent.toList (t.unindexed_children record.id)]
      · simp only [Option.mem_toList]
        rfl
      · intro p
        simp only [unindexed_children, hfind, drop_from_apply, Option.mem_toList]
      · intro d
        simp only [unindexed_members, hfind, drop_from_apply]

/-- The pool of a call that is not refused. -/
theorem install_pool_eq (t : Topology) (record : PoolRecord) :
    (let m := match t.pool record.id with
      | none => t.maps
      | some existing =>
          { t.maps with target_pools := drop_from record.id existing.members t.target_pools }
    (ok_status,
      { m with
        pools := m.pools.put record
        target_pools := enter_into record.id record.members m.target_pools }.touch)) =
      t.outcome (.ok (t.with_pool record).touch) := by
  simp only [outcome]
  cases hfind : t.pool record.id with
  | none =>
    rw [enter_dropped record.id record.members (t.unindexed_pools record.id)]
    · rfl
    · intro m
      simp only [unindexed_pools, hfind]
      rfl
  | some existing =>
    rw [enter_dropped record.id record.members (t.unindexed_pools record.id)]
    · rfl
    · intro m
      simp only [unindexed_pools, hfind, drop_from_apply]

theorem add_pool_in_place_eq (t : Topology) (record : PoolRecord) :
    t.add_pool_in_place record = t.outcome (t.add_pool record) := by
  unfold add_pool_in_place add_pool
  simp only [install_pool_eq]
  simp only [outcome_refuse_if, Bool.not_eq_true', decide_eq_true_eq, Bool.and_eq_true,
    Option.isNone_iff_eq_none, List.isEmpty_iff]
  rw [outcome_bind]
  simp only [outcome_refuse_if]
  cases check_all t.check_pool_member record.members with
  | error e => rfl
  | ok u => rfl

/-- Every call does in place what it does as a function; a failing one does nothing. -/
theorem add_in_place_eq (t : Topology) (call : Addition) :
    t.add_in_place call = t.outcome (t.add call) := by
  cases call with
  | domain record => exact t.add_domain_in_place_eq record
  | target record => exact t.add_target_in_place_eq record
  | pool record => exact t.add_pool_in_place_eq record

end Topology

/-- After any calls the indexes are exact and the references lead somewhere; the next call leaves
    the maps as its outcome says, and as they are where it fails. -/
theorem topology_indexes_exact (calls : List Topology.Addition) :
    (Topology.after_all calls).Exact ∧
    ∀ call, ((Topology.after_all calls).add_in_place call).2 =
        (Topology.after_all (calls ++ [call])).maps ∧
      (∀ e, ((Topology.after_all calls).add_in_place call).1 = .error e →
        ((Topology.after_all calls).add_in_place call).2 = (Topology.after_all calls).maps) := by
  refine ⟨(Topology.built_after_all calls).exact, ?_⟩
  intro call
  generalize ht : Topology.after_all calls = t
  have hnext : Topology.after_all (calls ++ [call]) = t.after call := by
    rw [← ht, Topology.after_all, List.foldl_append]
    rfl
  rw [hnext, Topology.add_in_place_eq, Topology.after]
  cases t.add call with
  | ok u =>
    refine ⟨rfl, ?_⟩
    intro e he
    cases he
  | error e => exact ⟨rfl, fun _ _ => rfl⟩

end MaintenanceFabric
