import MaintenanceFabric.Store.PolicyCodec

/-! # Topology records

    A topology record is replayed rather than copied: the decoder adds every
    domain, target and pool to an empty topology and validates the result.
    For a topology that passes its own validation, the checks the decoder
    makes on top of the `add` operations never refuse anything the operations
    accept, so decoding what was encoded yields exactly what
    `recorded_topology` yields.
-/

namespace MaintenanceFabric

open Lib

/-! ## Entries -/

def topology_malformed : Error := corrupt (text "topology record is malformed")

def DomainRecord.machine (d : DomainRecord) : Prop := d.id.machine

structure TargetRecord.machine (t : TargetRecord) : Prop where
  id : t.id.machine
  parent : ∀ p, t.parent = some p → p.machine
  domains : machine_list DomainId.machine t.domains
  capacity_units : t.capacity_units < u32_range

structure PoolRecord.machine (p : PoolRecord) : Prop where
  id : p.id.machine
  members : machine_list TargetId.machine p.members

def write_domain_record (w : ByteWriter) (d : DomainRecord) : ByteWriter :=
  ((write_domain_id w d.id).str d.name limits.kMaxNameLength).boolean d.correlated

def domain_record_bytes (d : DomainRecord) : Text :=
  [domain_bytes d.id, strBytes limits.kMaxNameLength d.name, boolBytes d.correlated].flatten

theorem write_domain_record_buffer (w : ByteWriter) (d : DomainRecord) :
    (write_domain_record w d).buffer = w.buffer ++ domain_record_bytes d := by
  simp [write_domain_record, domain_record_bytes, ByteWriter.str_buffer, kMaxNameLength_le]

def read_domain_record : Reader DomainRecord := do
  let id ← read_domain_id
  let name ← Reader.str limits.kMaxNameLength
  let correlated ← Reader.boolean
  Reader.refuse_unless_ok (!id.valid) topology_malformed
  pure { id, name, correlated }

/-- What the decoder checks of a domain before it adds it. -/
def check_domain_entry (d : DomainRecord) : Status := refuse_if (!d.id.valid) topology_malformed

theorem ReadsAs.domain_record {d : DomainRecord} (h : d.machine) :
    ReadsAs read_domain_record (domain_record_bytes d)
      (do check_domain_entry d
          .ok { d with name := recorded_name d.name }) := by
  refine Reads.field (ReadsAs.domain_id h) ?_
  refine Reads.field (ReadsAs.str kMaxNameLength_le d.name) ?_
  refine Reads.field (ReadsAs.boolean _) ?_
  refine Reads.check (ReadsAs.refuse_unless_ok _ _) ?_
  intro _ _
  exact Reads.pure _

/-- The parent of a target: a flag, and the identity if there is one. -/
def write_parent (w : ByteWriter) : Option TargetId → ByteWriter
  | none => w.boolean false
  | some parent => write_target_id (w.boolean true) parent

def parent_bytes : Option TargetId → Text
  | none => boolBytes false
  | some parent => boolBytes true ++ target_bytes parent

theorem write_parent_buffer (w : ByteWriter) (p : Option TargetId) :
    (write_parent w p).buffer = w.buffer ++ parent_bytes p := by
  cases p <;> simp [write_parent, parent_bytes]

def read_parent : Reader (Option TargetId) := do
  let has_parent ← Reader.boolean
  if has_parent then
    let parent ← read_target_id
    pure (some parent)
  else pure none

theorem ReadsAs.parent {p : Option TargetId} (h : ∀ id, p = some id → id.machine) :
    ReadsAs read_parent (parent_bytes p) (.ok p) := by
  cases p with
  | none =>
    have hread : ReadsAs read_parent [boolBytes false].flatten (.ok none) := by
      refine Reads.field (ReadsAs.boolean false) ?_
      exact Reads.pure none
    simpa [parent_bytes] using hread
  | some id =>
    have hread : ReadsAs read_parent [boolBytes true, target_bytes id].flatten (.ok (some id)) := by
      refine Reads.field (ReadsAs.boolean true) ?_
      refine Reads.field (ReadsAs.target_id (h id rfl)) ?_
      exact Reads.pure (some id)
    simpa [parent_bytes] using hread

def write_target_record (w : ByteWriter) (t : TargetRecord) : ByteWriter :=
  let w := write_parent ((write_target_id w t.id).str t.name limits.kMaxNameLength) t.parent
  ((write_list write_domain_id w t.domains).u32 t.capacity_units).boolean t.maintainable

def target_record_bytes (t : TargetRecord) : Text :=
  [target_bytes t.id, strBytes limits.kMaxNameLength t.name, parent_bytes t.parent,
   list_bytes domain_bytes t.domains, u32Bytes t.capacity_units, boolBytes t.maintainable].flatten

theorem write_target_record_buffer (w : ByteWriter) (t : TargetRecord) :
    (write_target_record w t).buffer = w.buffer ++ target_record_bytes t := by
  simp [write_target_record, target_record_bytes, ByteWriter.str_buffer, kMaxNameLength_le,
    write_parent_buffer]

def read_target_record : Reader TargetRecord := do
  let id ← read_target_id
  let name ← Reader.str limits.kMaxNameLength
  let parent ← read_parent
  let domains ← read_domain_list limits.kMaxDomainsPerTarget
  let capacity_units ← Reader.u32
  let maintainable ← Reader.boolean
  Reader.refuse_unless_ok (!id.valid) topology_malformed
  pure { id, name, parent, domains, capacity_units, maintainable }

/-- What the decoder checks of a target before it adds it. -/
def check_target_entry (t : TargetRecord) : Status := do
  refuse_if (t.domains.length > limits.kMaxDomainsPerTarget)
    (corrupt (text "domain list exceeds the accepted bound"))
  refuse_if (t.domains.any (fun d => !d.valid))
    (corrupt (text "domain list contains an invalid identity"))
  refuse_if (!t.id.valid) topology_malformed

theorem ReadsAs.target_record {t : TargetRecord} (h : t.machine) :
    ReadsAs read_target_record (target_record_bytes t)
      (do check_target_entry t
          .ok { t with name := recorded_name t.name }) := by
  have hdomains := ReadsAs.domain_list h.domains limits.kMaxDomainsPerTarget
  rw [← bind_assoc] at hdomains
  simp only [check_target_entry, bind_assoc]
  rw [← bind_assoc]
  refine Reads.field (ReadsAs.target_id h.id) ?_
  refine Reads.field (ReadsAs.str kMaxNameLength_le t.name) ?_
  refine Reads.field (ReadsAs.parent h.parent) ?_
  refine Reads.guarded hdomains ?_
  refine Reads.field (ReadsAs.u32 h.capacity_units) ?_
  refine Reads.field (ReadsAs.boolean _) ?_
  refine Reads.check (ReadsAs.refuse_unless_ok _ _) ?_
  intro _ _
  exact Reads.pure _

def write_pool_record (w : ByteWriter) (p : PoolRecord) : ByteWriter :=
  write_target_list ((w.u64 p.id.value).str p.name limits.kMaxNameLength) p.members

def pool_record_bytes (p : PoolRecord) : Text :=
  [u64Bytes p.id.value, strBytes limits.kMaxNameLength p.name,
   list_bytes target_bytes p.members].flatten

theorem write_pool_record_buffer (w : ByteWriter) (p : PoolRecord) :
    (write_pool_record w p).buffer = w.buffer ++ pool_record_bytes p := by
  simp [write_pool_record, pool_record_bytes, ByteWriter.str_buffer, kMaxNameLength_le]

def read_pool_record : Reader PoolRecord := do
  let id ← Reader.id
  let name ← Reader.str limits.kMaxNameLength
  let members ← read_target_list limits.kMaxMembersPerPool
  Reader.refuse_unless_ok false topology_malformed
  pure { id, name, members }

/-- What the decoder checks of a pool before it adds it. -/
def check_pool_entry (p : PoolRecord) : Status :=
  check_target_list limits.kMaxMembersPerPool p.members

theorem ReadsAs.pool_record {p : PoolRecord} (h : p.machine) :
    ReadsAs read_pool_record (pool_record_bytes p)
      (do check_pool_entry p
          .ok { p with name := recorded_name p.name }) := by
  refine Reads.field (ReadsAs.id h.id) ?_
  refine Reads.field (ReadsAs.str kMaxNameLength_le p.name) ?_
  refine Reads.guarded (ReadsAs.target_list h.members _) ?_
  refine Reads.pass (ReadsAs.healthy _) ?_
  exact Reads.pure _

/-! ## Topologies -/

def kTopologyLayout : Nat := 1

def encode_topology_record (t : Topology) : Record :=
  let w := (({} : ByteWriter).u16 kTopologyLayout).u32 t.revision.value
  let w := write_list write_domain_record w t.domains.rows
  let w := write_list write_target_record w (recorded_order t)
  ⟨.Topology, (write_list write_pool_record w t.pools.rows).buffer⟩

/-- One pass of the decoder: read a counted list of entries and add each of them. -/
def read_entries {α : Type} (limit : Nat) (too_many : Error) (read : Reader α)
    (add : Topology → α → Result Topology) (fresh : Topology) : Reader Topology := do
  let count ← Reader.u32
  Reader.refuse_unless_ok (count > limit) too_many
  readLoop (fun fresh => do
    let entry ← read
    Reader.lift (added (add fresh entry))) count fresh

def read_topology : Reader Topology := do
  Reader.layout kTopologyLayout (text "topology")
  let _stored_revision ← Reader.u32
  let fresh ← read_entries limits.kMaxDomainsPerTopology
    (corrupt (text "topology domain count exceeds the bound")) read_domain_record
    Topology.add_domain {}
  let fresh ← read_entries limits.kMaxTargetsPerTopology
    (corrupt (text "topology target count exceeds the bound")) read_target_record
    Topology.add_target fresh
  read_entries limits.kMaxPoolsPerTopology
    (corrupt (text "topology pool count exceeds the bound")) read_pool_record
    Topology.add_pool fresh

def decode_topology_record (record : Record) : Result Topology := do
  refuse_if (record.type ≠ .Topology) (invalid_argument (text "record is not a topology record"))
  let fresh ← read_topology.decode (corrupt (text "topology record has trailing bytes"))
    record.payload
  fresh.validate
  .ok fresh

structure Topology.machine (t : Topology) : Prop where
  domains : ∀ d ∈ t.domains.rows, d.machine
  targets : ∀ r ∈ t.targets.rows, r.machine
  pools : ∀ p ∈ t.pools.rows, p.machine

/-! ### Round trip -/

def topology_fields (t : Topology) : List Text :=
  [u16Bytes kTopologyLayout, u32Bytes t.revision.value,
   list_bytes domain_record_bytes t.domains.rows, list_bytes target_record_bytes (recorded_order t),
   list_bytes pool_record_bytes t.pools.rows]

theorem encode_topology_record_payload (t : Topology) :
    (encode_topology_record t).payload = (topology_fields t).flatten := by
  simp [encode_topology_record, topology_fields, write_list_buffer write_domain_record_buffer,
    write_list_buffer write_target_record_buffer, write_list_buffer write_pool_record_buffer]

/-- One pass over the encoded entries folds them, each behind its check. -/
theorem ReadsAs.entries {α : Type} {bytes : α → Text} {read : Reader α} {check : α → Status}
    {image : α → α} {add : Topology → α → Result Topology} {l : List α} {limit : Nat}
    (hlimit : limit < u32_range) (hlen : l.length ≤ limit)
    (h : ∀ a ∈ l, ReadsAs read (bytes a) (do check a; .ok (image a))) (too_many : Error)
    (fresh : Topology) :
    ReadsAs (read_entries limit too_many read add fresh) (list_bytes bytes l)
      (l.foldlM (fun u a => do check a; added (add u (image a))) fresh) := by
  have hfit : decide (l.length > limit) = false := by simpa using hlen
  have hread : ReadsAs (read_entries limit too_many read add fresh)
      [u32Bytes l.length, l.flatMap bytes].flatten
      (l.foldlM (fun u a => do check a; added (add u (image a))) fresh) := by
    refine Reads.field (ReadsAs.u32 (Nat.lt_of_le_of_lt hlen hlimit)) ?_
    refine Reads.pass (hfit ▸ ReadsAs.healthy too_many) ?_
    rw [List.flatten_cons, List.flatten_nil, List.append_nil]
    refine Reads.loop fresh ?_
    intro a ha u
    have hstep := Reads.guarded (l := []) (f := fun e => Reader.lift (added (add u e))) (h a ha)
      (ReadsAs.lift (added (add u (image a))))
    rwa [List.flatten_cons, List.flatten_nil, List.append_nil] at hstep
  simpa [list_bytes] using hread

/-- A check that passes whenever the step behind it does can be left out. -/
theorem Result.foldlM_checked {α γ : Type} {check : α → Status} {step : γ → α → Result γ} :
    ∀ {l : List α} {u v : γ}, (∀ a ∈ l, ∀ u v, step u a = .ok v → check a = .ok ()) →
    (l.foldlM (fun u a => do check a; step u a) u = .ok v ↔ l.foldlM step u = .ok v)
  | [], _, _, _ => Iff.rfl
  | a :: l, u, v, h => by
      have hrest : ∀ b ∈ l, ∀ u v, step u b = .ok v → check b = .ok () :=
        fun b hb => h b (List.mem_cons_of_mem _ hb)
      rw [List.foldlM_cons, List.foldlM_cons, Result.bind_eq_ok, Result.bind_eq_ok]
      constructor
      · rintro ⟨w, hw, hfold⟩
        obtain ⟨_, _, hstep⟩ := Result.bind_eq_ok.mp hw
        exact ⟨w, hstep, (foldlM_checked hrest).mp hfold⟩
      · rintro ⟨w, hstep, hfold⟩
        have hcheck := h a List.mem_cons_self u w hstep
        refine ⟨w, ?_, (foldlM_checked hrest).mpr hfold⟩
        rw [hcheck]
        exact hstep

theorem added_eq_ok {r : Result Topology} {t : Topology} : added r = .ok t ↔ r = .ok t := by
  cases r <;> simp [added]

theorem check_domain_entry_of_add {u v : Topology} {d : DomainRecord} (name : Text)
    (h : added (u.add_domain { d with name }) = .ok v) : check_domain_entry d = .ok () := by
  simp only [added_eq_ok, Topology.add_domain, Result.bind_eq_ok, refuse_if_eq_ok] at h
  obtain ⟨_, hvalid, _⟩ := h
  simpa [check_domain_entry] using hvalid

theorem check_target_entry_of_add {u v : Topology} {r : TargetRecord} (name : Text)
    (h : added (u.add_target { r with name }) = .ok v) : check_target_entry r = .ok () := by
  rw [added_eq_ok, Topology.add_target] at h
  split at h
  · cases h
  · next hcheck =>
    have hdeclared : ∀ d ∈ r.domains, d.valid = true := by
      simp only [Topology.check_target, Result.bind_eq_ok] at hcheck
      obtain ⟨_, _, _, _, _, _, hall⟩ := hcheck
      intro d hd
      have hone := check_all_ok hall d hd
      simp only [Topology.check_domain_reference, Result.bind_eq_ok, refuse_if_eq_ok] at hone
      obtain ⟨_, hvalid, _⟩ := hone
      simpa using hvalid
    simp only [Topology.check_target, validate_target_record, Result.bind_eq_ok, refuse_if_eq_ok]
      at hcheck
    obtain ⟨_, ⟨_, hid, _, _, _, hlen, _⟩, _⟩ := hcheck
    have hany : r.domains.any (fun d => !d.valid) = false := by
      rw [List.any_eq_false]
      intro d hd
      simp [hdeclared d hd]
    have hlen' : decide (r.domains.length > limits.kMaxDomainsPerTarget) = false := by
      simpa using hlen
    have hid' : (!r.id.valid) = false := by simpa using hid
    simp only [check_target_entry, hany, hlen', hid']
    rfl

theorem check_pool_entry_of_add {t u v : Topology} {p : PoolRecord} (name : Text)
    (ht : t.validate = .ok ()) (hp : p ∈ t.pools.rows)
    (h : added (u.add_pool { p with name }) = .ok v) : check_pool_entry p = .ok () := by
  simp only [added_eq_ok, Topology.add_pool, Result.bind_eq_ok, refuse_if_eq_ok] at h
  obtain ⟨_, _, _, _, _, hlen, _⟩ := h
  simp only [Topology.validate, Result.bind_eq_ok] at ht
  obtain ⟨_, _, _, _, _, _, _, htargets, hpools⟩ := ht
  have hmembers := check_all_ok hpools p hp
  simp only [Topology.check_stored_pool, Result.bind_eq_ok] at hmembers
  obtain ⟨_, _, hall⟩ := hmembers
  -- A member is a stored target, and every stored target has a valid identity.
  have hvalid : ∀ m ∈ p.members, m.valid = true := by
    intro m hm
    have hin : t.contains m = true := by simpa using check_all_ok hall m hm
    obtain ⟨r, hr⟩ := Option.isSome_iff_exists.mp hin
    obtain ⟨hmem, hkey⟩ := Table.find_eq_some_iff.mp hr
    have hstored := check_all_ok htargets r hmem
    simp only [Topology.check_stored_target, validate_target_record, Result.bind_eq_ok,
      refuse_if_eq_ok] at hstored
    obtain ⟨_, ⟨_, hid, _⟩, _⟩ := hstored
    rw [← hkey]
    simpa using hid
  have hany : p.members.any (fun m => !m.valid) = false := by
    rw [List.any_eq_false]
    intro m hm
    simp [hvalid m hm]
  have hlen' : decide (p.members.length > limits.kMaxMembersPerPool) = false := by simpa using hlen
  simp only [check_pool_entry, check_target_list, hany, hlen']
  rfl

/-- A record of a validated topology decodes exactly to its recorded image. -/
theorem decode_encode_topology {t u : Topology} (h : t.machine) (ht : t.validate = .ok ()) :
    decode_topology_record (encode_topology_record t) = .ok u ↔ recorded_topology t = .ok u := by
  have hsizes := ht
  simp only [Topology.validate, Result.bind_eq_ok, refuse_if_eq_ok,
    decide_eq_false_iff_not] at hsizes
  obtain ⟨_, htargets, _, hdomains, _, hpools, _⟩ := hsizes
  -- The targets are written in another order than they are stored in, with the same rows.
  have horder : ∀ r ∈ recorded_order t, r ∈ t.targets.rows := by
    intro r hr
    simpa [recorded_order] using hr
  have hlength : (recorded_order t).length = t.targets.rows.length := by
    simp [recorded_order, sort_by]
  have hread : ReadsAs read_topology (topology_fields t).flatten (do
      let fresh ← t.domains.rows.foldlM (fun u d => do
        check_domain_entry d
        added (u.add_domain { d with name := recorded_name d.name })) ({} : Topology)
      let fresh ← (recorded_order t).foldlM (fun u r => do
        check_target_entry r
        added (u.add_target { r with name := recorded_name r.name })) fresh
      t.pools.rows.foldlM (fun u p => do
        check_pool_entry p
        added (u.add_pool { p with name := recorded_name p.name })) fresh) := by
    refine Reads.field (ReadsAs.layout (by decide) _) ?_
    refine Reads.field (ReadsAs.u32_wrapped _) ?_
    refine Reads.part (ReadsAs.entries (by decide) (Nat.not_lt.mp hdomains)
      (fun d hd => ReadsAs.domain_record (h.domains d hd)) _ _) ?_
    intro fresh _
    refine Reads.part (ReadsAs.entries (by decide) (hlength ▸ Nat.not_lt.mp htargets)
      (fun r hr => ReadsAs.target_record (h.targets r (horder r hr))) _ _) ?_
    intro fresh _
    rw [List.flatten_cons, List.flatten_nil, List.append_nil]
    exact ReadsAs.entries (by decide) (Nat.not_lt.mp hpools)
      (fun p hp => ReadsAs.pool_record (h.pools p hp)) _ _
  have hdecode := hread.decode (corrupt (text "topology record has trailing bytes"))
  rw [← encode_topology_record_payload] at hdecode
  -- What the reader checks before it adds a row is implied by the row being added.
  have hd : ∀ u v : Topology, t.domains.rows.foldlM (fun u d => do
        check_domain_entry d
        added (u.add_domain { d with name := recorded_name d.name })) u = .ok v ↔
      t.domains.rows.foldlM
        (fun u d => added (u.add_domain { d with name := recorded_name d.name })) u = .ok v := by
    intro u v
    exact Result.foldlM_checked (fun d _ u v => check_domain_entry_of_add _)
  have hr : ∀ u v : Topology, (recorded_order t).foldlM (fun u r => do
        check_target_entry r
        added (u.add_target { r with name := recorded_name r.name })) u = .ok v ↔
      (recorded_order t).foldlM
        (fun u r => added (u.add_target { r with name := recorded_name r.name })) u = .ok v := by
    intro u v
    exact Result.foldlM_checked (fun r _ u v => check_target_entry_of_add _)
  have hp : ∀ u v : Topology, t.pools.rows.foldlM (fun u p => do
        check_pool_entry p
        added (u.add_pool { p with name := recorded_name p.name })) u = .ok v ↔
      t.pools.rows.foldlM
        (fun u p => added (u.add_pool { p with name := recorded_name p.name })) u = .ok v := by
    intro u v
    exact Result.foldlM_checked (fun p hp u v => check_pool_entry_of_add _ ht hp)
  simp only [decode_topology_record,
    refuse_if_type (show (encode_topology_record t).type = .Topology from rfl), hdecode,
    Result.ok_bind, recorded_topology, bind_assoc, Result.bind_eq_ok, hd, hr, hp]

end MaintenanceFabric
