import MaintenanceFabric.Guarantees.Expansion
import MaintenanceFabric.Guarantees.TopologyText
import MaintenanceFabric.Lib.Override

/-! # Which topology texts are accepted

    A text is accepted when each of its lines fits what the lines before it
    declare and, in the end, no target is contained in itself.  A line that
    declares something again fits as well: it replaces the earlier one.
-/

namespace MaintenanceFabric

open Lib

namespace Topology

/-! ## What building leaves to validation -/

theorem check_target_ok {t : Topology} {r : TargetRecord} {u : Unit} :
    t.check_target r = .ok u ↔ validate_target_record r = .ok () ∧
      ¬ (t.targets.size ≥ limits.kMaxTargetsPerTopology ∧ t.target r.id = none) ∧
      (∀ p, r.parent = some p → p ≠ r.id ∧ t.contains p = true) ∧
      ∀ d ∈ r.domains, d.valid = true ∧ t.domain d ≠ none := by
  have hroom : (decide (t.targets.size ≥ limits.kMaxTargetsPerTopology) && !t.contains r.id) =
      (decide (t.targets.size ≥ limits.kMaxTargetsPerTopology) && (t.target r.id).isNone) := by
    rw [contains, Option.not_isSome]
  have hparent : ∀ v : Unit, t.check_parent r = .ok v ↔
      ∀ p, r.parent = some p → p ≠ r.id ∧ t.contains p = true := by
    intro v
    unfold check_parent
    cases r.parent with
    | none => simp [ok_status]
    | some p => simp [Result.bind_eq_ok, refuse_if_eq_ok]
  have hdomains : ∀ v : Unit, check_all t.check_domain_reference r.domains = .ok v ↔
      ∀ d ∈ r.domains, d.valid = true ∧ t.domain d ≠ none := by
    intro v
    rw [check_all_iff]
    simp only [check_domain_reference, Result.bind_eq_ok, refuse_if_eq_ok, Bool.not_eq_false',
      exists_const, Option.isNone_eq_false_iff, Option.isSome_iff_ne_none]
  simp only [check_target, Result.bind_eq_ok, refuse_if_eq_ok, hroom, not_full_iff, hparent,
    hdomains]
  constructor
  · rintro ⟨_, hrecord, _, hsize, _, hparents, hdeclared⟩
    exact ⟨hrecord, hsize, hparents, hdeclared⟩
  · rintro ⟨hrecord, hsize, hparents, hdeclared⟩
    exact ⟨(), hrecord, (), hsize, (), hparents, hdeclared⟩

theorem add_target_iff {t : Topology} {r : TargetRecord} :
    (∃ u, t.add_target r = .ok u) ↔ t.check_target r = .ok () := by
  constructor
  · rintro ⟨u, hu⟩
    cases hcheck : t.check_target r with
    | error e =>
      rw [add_target_of_fault hcheck] at hu
      cases hu
    | ok _ => rfl
  · exact fun h => ⟨_, add_target_of_check h⟩

/-- A record that finds room keeps the table within its bound. -/
theorem size_put_of_room {κ ν : Type} [LinearOrder κ] {key : ν → κ} {t : Table key} {v : ν}
    {bound : Nat} (h : t.size ≤ bound) (hroom : ¬ (t.size ≥ bound ∧ t.find (key v) = none)) :
    (t.put v).size ≤ bound := by
  cases hfind : t.find (key v) with
  | none =>
    have hlt : t.size < bound := not_le.mp fun hge => hroom ⟨hge, hfind⟩
    rw [Table.size_put_of_find_none hfind]
    exact hlt
  | some w =>
    have hsame : (t.put v).size = t.size :=
      (t.put_perm v).length_eq.trans (Table.rows_perm hfind).length_eq.symm
    rw [hsame]
    exact h

/-- What building says of the records, their references apart. -/
structure Stored (t : Topology) : Prop where
  target_count : t.targets.size ≤ limits.kMaxTargetsPerTopology
  domain_count : t.domains.size ≤ limits.kMaxDomainsPerTopology
  pool_count : t.pools.size ≤ limits.kMaxPoolsPerTopology
  targets : ∀ r ∈ t.targets.rows, validate_target_record r = .ok () ∧ r.parent ≠ some r.id

theorem Built.stored {t : Topology} (h : t.Built) : t.Stored := by
  induction h with
  | empty =>
    refine ⟨Nat.zero_le _, Nat.zero_le _, Nat.zero_le _, ?_⟩
    intro r hr
    cases hr
  | domain _ hadd ih =>
    obtain ⟨-, hroom, rfl⟩ := add_domain_ok.mp hadd
    exact { ih with domain_count := size_put_of_room ih.domain_count hroom }
  | target _ hadd ih =>
    obtain ⟨hrecord, hroom, hparent, -⟩ := check_target_ok.mp (add_target_iff.mp ⟨_, hadd⟩)
    obtain ⟨htargets, hdomains, hpools⟩ := add_target_ok hadd
    refine ⟨?_, hdomains ▸ ih.domain_count, hpools ▸ ih.pool_count, ?_⟩
    · rw [htargets]
      exact size_put_of_room ih.target_count hroom
    · rw [htargets]
      intro r hr
      rcases Table.mem_put.mp hr with rfl | ⟨hold, _⟩
      · exact ⟨hrecord, fun hself => (hparent _ hself).1 rfl⟩
      · exact ih.targets r hold
  | pool _ hadd ih =>
    obtain ⟨-, hroom, -, rfl⟩ := add_pool_ok.mp hadd
    exact { ih with pool_count := size_put_of_room ih.pool_count hroom }

/-- A chain without a cycle passes: it ends before the targets run out. -/
theorem check_chain_of_acyclic {t : Topology} (hacyclic : ∀ x, ¬ Relation.TransGen t.ChildOf x x)
    (hdeclared : ∀ x p, t.ChildOf x p → t.contains p = true) {id : TargetId} {fuel : Nat}
    {seen : List TargetId} {cursor : TargetRecord} (hcursor : t.target cursor.id = some cursor)
    (hbelow : ∀ x ∈ seen, Relation.TransGen t.ChildOf x cursor.id) (hnodup : seen.Nodup)
    (hfuel : t.targets.size + 2 ≤ fuel + seen.length) :
    t.check_chain id fuel seen cursor = .ok () := by
  induction fuel generalizing seen cursor with
  | zero =>
    -- More targets were seen than there are.
    have hstored : seen ⊆ t.targets.rows.map TargetRecord.id := by
      intro x hx
      obtain ⟨_, ⟨r, hr, _⟩, _⟩ := Relation.TransGen.head'_iff.mp (hbelow x hx)
      exact List.mem_map.mpr ⟨r, Table.mem_of_find hr, Table.key_of_find hr⟩
    have hlen := (hnodup.subperm hstored).length_le
    rw [List.length_map] at hlen
    have hsize : t.targets.size = t.targets.rows.length := rfl
    omega
  | succ fuel ih =>
    rw [check_chain]
    cases hparent : cursor.parent with
    | none => rfl
    | some parent =>
      have hlink : t.ChildOf cursor.id parent := ⟨cursor, hcursor, hparent⟩
      have hfresh : cursor.id ∉ seen := fun hmem => hacyclic _ (hbelow _ hmem)
      simp only [if_neg hfresh]
      cases hnext : t.target parent with
      | none =>
        have hcontains := hdeclared _ _ hlink
        rw [contains, hnext] at hcontains
        cases hcontains
      | some next =>
        have hid : next.id = parent := Table.key_of_find hnext
        refine ih (by rw [hid, hnext]) ?_ (List.nodup_cons.mpr ⟨hfresh, hnodup⟩) ?_
        · rw [hid]
          intro x hx
          rcases List.mem_cons.mp hx with rfl | hx
          · exact .single hlink
          · exact (hbelow x hx).tail hlink
        · rw [List.length_cons]
          omega

/-- Of what was built, validation refuses the cycles and nothing else. -/
theorem Built.validate_iff {t : Topology} (h : t.Built) :
    t.validate = .ok () ↔ ∀ x, ¬ Relation.TransGen t.ChildOf x x := by
  refine ⟨acyclic_of_validate, ?_⟩
  intro hacyclic
  have hstored := h.stored
  have hexact := h.exact
  -- Each check but the one of the chain was made when the row was added.
  have htarget : ∀ r ∈ t.targets.rows, t.check_stored_target r = .ok () := by
    intro r hr
    have hfind : t.target r.id = some r := Table.find_iff_mem.mpr hr
    obtain ⟨hrecord, hself⟩ := hstored.targets r hr
    simp only [check_stored_target, Result.bind_eq_ok, refuse_if_eq_ok]
    refine ⟨(), hrecord, (), ?_, (), ?_, ?_⟩
    · cases hparent : r.parent with
      | none => rfl
      | some p =>
        have hp : t.contains p = true := hexact.parents_declared r.id p ⟨r, hfind, hparent⟩
        have hne : p ≠ r.id := fun heq => hself (heq ▸ hparent)
        simp [hp, hne]
    · refine check_all_iff.mpr fun d hd => ?_
      have hsome := hexact.domains_declared r.id d ⟨r, hfind, hd⟩
      rw [refuse_if_eq_ok, Option.isNone_eq_false_iff]
      exact hsome
    · exact check_chain_of_acyclic hacyclic hexact.parents_declared hfind
        (List.forall_mem_nil _) List.nodup_nil (by simp)
  have hpool : ∀ p ∈ t.pools.rows, t.check_stored_pool p = .ok () := by
    intro p hp
    have hfind : t.pool p.id = some p := Table.find_iff_mem.mpr hp
    simp only [check_stored_pool, Result.bind_eq_ok, refuse_if_eq_ok]
    refine ⟨(), (h.entered.pools p hp).some_member, check_all_iff.mpr fun m hm => ?_⟩
    have hmember := hexact.members_declared p.id m ⟨p, hfind, hm⟩
    rw [refuse_if_eq_ok, hmember]
    rfl
  simp only [validate, Result.bind_eq_ok, refuse_if_eq_ok, decide_eq_false_iff_not, Nat.not_lt,
    check_all_iff]
  exact ⟨(), hstored.target_count, (), hstored.domain_count, (), hstored.pool_count, (), htarget,
    hpool⟩

end Topology

/-! ## What the lines say -/

/-- The domain of a line, before it is added. -/
def domain_of_line (line : Line) : Result DomainRecord := do
  require_known_keys line [text "kind", text "id", text "name", text "correlated"]
  let kind_text ← require_value line (text "kind")
  let id_text ← require_value line (text "id")
  let id ← expect line (text "domain kind/id is not valid") (domain_identity kind_text id_text)
  let correlated ← optional_value line (text "correlated") true (parse_bool line)
  .ok { id, name := (line.find (text "name")).getD id.to_string, correlated }

def target_of_line (line : Line) : Result TargetRecord := do
  require_known_keys line [text "kind", text "id", text "name", text "parent", text "domains",
    text "capacity", text "maintainable"]
  let kind_text ← require_value line (text "kind")
  let id_text ← require_value line (text "id")
  let domains_text ← require_value line (text "domains")
  let id ← expect line (text "target kind/id is not valid") (target_identity kind_text id_text)
  let domains ← parse_domain_list line domains_text
  let parent ← optional_value line (text "parent") none (load_parent line)
  let capacity_units ← optional_value line (text "capacity") 1 (parse_u32_value line)
  let maintainable ← optional_value line (text "maintainable") true (parse_bool line)
  .ok { id, name := (line.find (text "name")).getD id.to_string, parent, domains, capacity_units,
        maintainable }

def pool_of_line (line : Line) : Result PoolRecord := do
  require_known_keys line [text "id", text "name", text "members"]
  let id_text ← require_value line (text "id")
  let members_text ← require_value line (text "members")
  let index ← expect line (text "pool id is not valid") (parse_u32 id_text)
  let members ← parse_target_list line members_text
  .ok { id := ⟨index⟩, name := (line.find (text "name")).getD (⟨index⟩ : PoolId).to_string,
        members }

theorem load_domain_eq (t : Topology) (line : Line) :
    load_domain t line = (domain_of_line line >>= fun r => at_line line (t.add_domain r)) := by
  simp only [load_domain, domain_of_line, bind_assoc, Result.ok_bind]

theorem load_target_eq (t : Topology) (line : Line) :
    load_target t line = (target_of_line line >>= fun r => at_line line (t.add_target r)) := by
  simp only [load_target, target_of_line, bind_assoc, Result.ok_bind]

theorem load_pool_eq (t : Topology) (line : Line) :
    load_pool t line = (pool_of_line line >>= fun r => at_line line (t.add_pool r)) := by
  simp only [load_pool, pool_of_line, bind_assoc, Result.ok_bind]

def domain_lines : List Line → List DomainRecord := records_of_kind (text "domain") domain_of_line
def target_lines : List Line → List TargetRecord := records_of_kind (text "target") target_of_line
def pool_lines : List Line → List PoolRecord := records_of_kind (text "pool") pool_of_line

def declared_domains (lines : List Line) : List DomainId := (domain_lines lines).map DomainRecord.id
def declared_targets (lines : List Line) : List TargetId := (target_lines lines).map TargetRecord.id
def declared_pools (lines : List Line) : List PoolId := (pool_lines lines).map PoolRecord.id

/-! ## Line by line -/

/-- An identity that was not declared yet needs a place. -/
def Room {α : Type} [LinearOrder α] (bound : Nat) (known : List α) (id : α) : Prop :=
  id ∈ known ∨ known.dedup.length < bound

/-- What loading asks of a line and of those before it. -/
inductive LineFits (before : List Line) (line : Line) : Prop
  | domain (r : DomainRecord) : line.kind = text "domain" → domain_of_line line = .ok r →
      Topology.DomainEntered r →
      Room limits.kMaxDomainsPerTopology (declared_domains before) r.id → LineFits before line
  | target (r : TargetRecord) : line.kind = text "target" → target_of_line line = .ok r →
      validate_target_record r = .ok () →
      Room limits.kMaxTargetsPerTopology (declared_targets before) r.id →
      (∀ p, r.parent = some p → p ≠ r.id ∧ p ∈ declared_targets before) →
      (∀ d ∈ r.domains, d.valid = true ∧ d ∈ declared_domains before) → LineFits before line
  | pool (r : PoolRecord) : line.kind = text "pool" → pool_of_line line = .ok r →
      Topology.PoolEntered r →
      Room limits.kMaxPoolsPerTopology (declared_pools before) r.id →
      (∀ m ∈ r.members, m ∈ declared_targets before) → LineFits before line

/-- The topology holds what the lines declare. -/
structure Topology.Declared (t : Topology) (lines : List Line) : Prop where
  built : t.Built
  domains : t.domains = (domain_lines lines).foldl Table.put Table.empty
  targets : t.targets = (target_lines lines).foldl Table.put Table.empty
  pools : t.pools = (pool_lines lines).foldl Table.put Table.empty

theorem room_iff {ρ κ : Type} [LinearOrder κ] {key : ρ → κ} {t : Table key} {l : List ρ} {k : κ}
    {bound : Nat} (h : t = l.foldl Table.put Table.empty) :
    ¬ (t.size ≥ bound ∧ t.find k = none) ↔ Room bound (l.map key) k := by
  rw [h, Table.find_foldl_put_eq_none, Table.size_foldl_put, Room, not_and, not_not, not_le.symm,
    imp_iff_not_or, or_comm]

theorem load_record_ok {t u : Topology} {line : Line} : load_record t line = .ok u ↔
    (line.kind = text "domain" ∧ ∃ r, domain_of_line line = .ok r ∧ t.add_domain r = .ok u) ∨
    (line.kind = text "target" ∧ ∃ r, target_of_line line = .ok r ∧ t.add_target r = .ok u) ∨
    (line.kind = text "pool" ∧ ∃ r, pool_of_line line = .ok r ∧ t.add_pool r = .ok u) := by
  unfold load_record
  by_cases hdomain : line.kind = text "domain"
  · simp +decide [hdomain, load_domain_eq, Result.bind_eq_ok]
  by_cases htarget : line.kind = text "target"
  · simp +decide [htarget, load_target_eq, Result.bind_eq_ok]
  by_cases hpool : line.kind = text "pool"
  · simp +decide [hpool, load_pool_eq, Result.bind_eq_ok]
  · simp [hdomain, htarget, hpool]

namespace Topology.Declared

variable {t u : Topology} {before : List Line} {line : Line}

theorem domain_eq_none (h : t.Declared before) (d : DomainId) :
    t.domain d = none ↔ d ∉ declared_domains before := by
  rw [Topology.domain, h.domains, Table.find_foldl_put_eq_none]
  rfl

theorem contains_iff (h : t.Declared before) (x : TargetId) :
    t.contains x = true ↔ x ∈ declared_targets before := by
  rw [Topology.contains, Option.isSome_iff_ne_none, ne_eq, Topology.target, h.targets,
    Table.find_foldl_put_eq_none, not_not]
  rfl

/-- A line is loaded when it fits. -/
theorem loads_iff (h : t.Declared before) :
    (∃ u, load_record t line = .ok u) ↔ LineFits before line := by
  -- What an entry needs of the topology so far is what was declared on the lines before.
  have hdomain : ∀ r, (∃ u, t.add_domain r = .ok u) ↔ Topology.DomainEntered r ∧
      Room limits.kMaxDomainsPerTopology (declared_domains before) r.id := by
    intro r
    simp only [Topology.add_domain_ok, exists_and_left, exists_eq, and_true]
    exact and_congr_right fun _ => room_iff h.domains
  have htarget : ∀ r, (∃ u, t.add_target r = .ok u) ↔ validate_target_record r = .ok () ∧
      Room limits.kMaxTargetsPerTopology (declared_targets before) r.id ∧
      (∀ p, r.parent = some p → p ≠ r.id ∧ p ∈ declared_targets before) ∧
      ∀ d ∈ r.domains, d.valid = true ∧ d ∈ declared_domains before := by
    intro r
    rw [Topology.add_target_iff, Topology.check_target_ok]
    simp only [h.contains_iff, ne_eq, h.domain_eq_none, not_not]
    exact and_congr_right fun _ => and_congr_left fun _ => room_iff h.targets
  have hpool : ∀ r, (∃ u, t.add_pool r = .ok u) ↔ Topology.PoolEntered r ∧
      Room limits.kMaxPoolsPerTopology (declared_pools before) r.id ∧
      ∀ m ∈ r.members, m ∈ declared_targets before := by
    intro r
    simp only [Topology.add_pool_ok, h.contains_iff, exists_and_left, exists_eq, and_true]
    exact and_congr_right fun _ => and_congr_left fun _ => room_iff h.pools
  simp only [load_record_ok]
  constructor
  · rintro ⟨u, ⟨hkind, r, hr, hadd⟩ | ⟨hkind, r, hr, hadd⟩ | ⟨hkind, r, hr, hadd⟩⟩
    · obtain ⟨hentered, hroom⟩ := (hdomain r).mp ⟨u, hadd⟩
      exact .domain r hkind hr hentered hroom
    · obtain ⟨hrecord, hroom, hparent, hdomains⟩ := (htarget r).mp ⟨u, hadd⟩
      exact .target r hkind hr hrecord hroom hparent hdomains
    · obtain ⟨hentered, hroom, hmembers⟩ := (hpool r).mp ⟨u, hadd⟩
      exact .pool r hkind hr hentered hroom hmembers
  · rintro (⟨r, hkind, hr, hentered, hroom⟩ | ⟨r, hkind, hr, hrecord, hroom, hparent, hdomains⟩ |
      ⟨r, hkind, hr, hentered, hroom, hmembers⟩)
    · obtain ⟨u, hadd⟩ := (hdomain r).mpr ⟨hentered, hroom⟩
      exact ⟨u, .inl ⟨hkind, r, hr, hadd⟩⟩
    · obtain ⟨u, hadd⟩ := (htarget r).mpr ⟨hrecord, hroom, hparent, hdomains⟩
      exact ⟨u, .inr (.inl ⟨hkind, r, hr, hadd⟩)⟩
    · obtain ⟨u, hadd⟩ := (hpool r).mpr ⟨hentered, hroom, hmembers⟩
      exact ⟨u, .inr (.inr ⟨hkind, r, hr, hadd⟩)⟩

/-- The records of a kind are what they were, if the line is of another kind. -/
theorem records_after_other {α κ : Type} [LinearOrder κ] {key : α → κ} {kind : Text}
    {load : Line → Result α} (hkind : line.kind ≠ kind) {table : Table key}
    (h : table = (records_of_kind kind load before).foldl Table.put Table.empty) :
    table = (records_of_kind kind load (before ++ [line])).foldl Table.put Table.empty := by
  rw [records_of_kind_append, records_of_other hkind, List.append_nil]
  exact h

theorem records_after {α κ : Type} [LinearOrder κ] {key : α → κ} {kind : Text}
    {load : Line → Result α} {a : α} (hkind : line.kind = kind) (hload : load line = .ok a)
    {table : Table key} (h : table =
      (records_of_kind kind load before).foldl Table.put Table.empty) :
    table.put a = (records_of_kind kind load (before ++ [line])).foldl Table.put Table.empty := by
  rw [records_of_kind_append, records_of_one hkind hload, List.foldl_append, ← h]
  rfl

/-- A line that is loaded declares its record. -/
theorem step (h : t.Declared before) (hload : load_record t line = .ok u) :
    u.Declared (before ++ [line]) := by
  rcases load_record_ok.mp hload with ⟨hkind, r, hr, hadd⟩ | ⟨hkind, r, hr, hadd⟩ |
    ⟨hkind, r, hr, hadd⟩
  · have hbuilt := h.built.domain hadd
    obtain ⟨-, -, rfl⟩ := Topology.add_domain_ok.mp hadd
    exact ⟨hbuilt, records_after hkind hr h.domains,
      records_after_other (by rw [hkind]; decide) h.targets,
      records_after_other (by rw [hkind]; decide) h.pools⟩
  · obtain ⟨htargets, hdomains, hpools⟩ := Topology.add_target_ok hadd
    refine ⟨h.built.target hadd, ?_, ?_, ?_⟩
    · rw [hdomains]
      exact records_after_other (by rw [hkind]; decide) h.domains
    · rw [htargets]
      exact records_after hkind hr h.targets
    · rw [hpools]
      exact records_after_other (by rw [hkind]; decide) h.pools
  · have hbuilt := h.built.pool hadd
    obtain ⟨-, -, -, rfl⟩ := Topology.add_pool_ok.mp hadd
    exact ⟨hbuilt, records_after_other (by rw [hkind]; decide) h.domains,
      records_after_other (by rw [hkind]; decide) h.targets, records_after hkind hr h.pools⟩

/-- A run over more lines: each fits those before it, and all of them are declared. -/
theorem run {lines : List Line} (h : t.Declared before) :
    ((∃ u, lines.foldlM load_record t = .ok u) ↔
      ∀ l line m, lines = l ++ line :: m → LineFits (before ++ l) line) ∧
    ∀ u, lines.foldlM load_record t = .ok u → u.Declared (before ++ lines) := by
  -- The induction is on the lines; what is declared grows with those that were read.
  induction lines generalizing t before with
  | nil =>
    refine ⟨⟨fun _ l line m hl => by simp at hl, fun _ => ⟨t, rfl⟩⟩, ?_⟩
    intro u hu
    cases hu
    rw [List.append_nil]
    exact h
  | cons line lines ih =>
    simp only [List.foldlM_cons, Result.bind_eq_ok]
    have hassoc : before ++ line :: lines = (before ++ [line]) ++ lines := by simp
    refine ⟨⟨?_, ?_⟩, ?_⟩
    · rintro ⟨u, v, hv, hu⟩ l x m hl
      cases l with
      | nil =>
        cases hl
        rw [List.append_nil]
        exact h.loads_iff.mp ⟨v, hv⟩
      | cons y l =>
        cases hl
        have hfits := (ih (h.step hv)).1.mp ⟨u, hu⟩ l x m rfl
        rwa [List.append_assoc, List.singleton_append] at hfits
    · intro hfits
      obtain ⟨v, hv⟩ := h.loads_iff.mpr (List.append_nil before ▸ hfits [] line lines rfl)
      obtain ⟨u, hu⟩ := (ih (h.step hv)).1.mpr fun l x m hl => by
        rw [List.append_assoc, List.singleton_append]
        exact hfits (line :: l) x m (by rw [hl, List.cons_append])
      exact ⟨u, v, hv, hu⟩
    · rintro u ⟨v, hv, hu⟩
      rw [hassoc]
      exact (ih (h.step hv)).2 u hu

/-- The parent that the last line about a target gives it. -/
theorem childOf_iff (h : t.Declared before) {x p : TargetId} :
    t.ChildOf x p ↔ ∃ r, Stands TargetRecord.id (target_lines before) r ∧ r.id = x ∧
      r.parent = some p := by
  simp only [Topology.ChildOf, Topology.target, h.targets, Table.find_foldl_put_eq_some, and_assoc]

end Topology.Declared

/-! ## Accepted texts -/

/-- The last line about the target gives it the parent. -/
def LastParent (lines : List Line) (x p : TargetId) : Prop :=
  ∃ r, Stands TargetRecord.id (target_lines lines) r ∧ r.id = x ∧ r.parent = some p

/-- What loading asks of the lines of a topology. -/
structure TopologyLinesHold (lines : List Line) : Prop where
  fits : ∀ before line after, lines = before ++ line :: after → LineFits before line
  acyclic : ∀ x, ¬ Relation.TransGen (LastParent lines) x x

theorem load_topology_text_accepts_iff {t : Text} :
    (∃ u stats, load_topology_text t = .ok (u, stats)) ↔
      ∃ lines, tokenize t = .ok lines ∧ TopologyLinesHold lines := by
  have hempty : Topology.Declared {} [] := ⟨.empty, rfl, rfl, rfl⟩
  have hvalid : ∀ lines u, lines.foldlM load_record {} = .ok u →
      (u.validate = .ok () ↔ ∀ x, ¬ Relation.TransGen (LastParent lines) x x) := by
    intro lines u hu
    have hdeclared := hempty.run.2 u hu
    have hparent : u.ChildOf = LastParent lines := by
      funext x p
      exact propext hdeclared.childOf_iff
    rw [hdeclared.built.validate_iff, hparent]
  simp only [load_topology_text_eq_ok]
  constructor
  · rintro ⟨u, lines, hlines, hu, hok⟩
    exact ⟨lines, hlines, hempty.run.1.mp ⟨u, hu⟩, (hvalid lines u hu).mp hok⟩
  · rintro ⟨lines, hlines, h⟩
    obtain ⟨u, hu⟩ := hempty.run.1.mpr h.fits
    exact ⟨u, lines, hlines, hu, (hvalid lines u hu).mpr h.acyclic⟩

end MaintenanceFabric
