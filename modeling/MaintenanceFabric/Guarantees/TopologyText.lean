import MaintenanceFabric.Config.Lines
import MaintenanceFabric.Config.TopologyText
import MaintenanceFabric.Store.TopologyOrder

/-! # Topology text, there and back

    Every record that was loaded renders to a line that loads as the same
    record, so a rendered topology is refused only where the order of its lines
    is: when a target comes before its parent.
-/

namespace MaintenanceFabric

open Lib

/-! ## Rendered lines -/

def domain_fields (r : DomainRecord) : List Token :=
  [⟨text "kind", r.id.kind.to_string⟩, ⟨text "id", decimal r.id.index⟩, ⟨text "name", r.name⟩,
   ⟨text "correlated", bool_text r.correlated⟩]

def parent_fields : Option TargetId → List Token
  | none => []
  | some parent => [⟨text "parent", parent.to_string⟩]

def target_fields (r : TargetRecord) : List Token :=
  [⟨text "kind", r.id.kind.to_string⟩, ⟨text "id", decimal r.id.index⟩, ⟨text "name", r.name⟩] ++
    parent_fields r.parent ++
    [⟨text "domains", joined (r.domains.map DomainId.to_string)⟩,
     ⟨text "capacity", decimal r.capacity_units⟩,
     ⟨text "maintainable", bool_text r.maintainable⟩]

def pool_fields (r : PoolRecord) : List Token :=
  [⟨text "id", decimal r.id.value⟩, ⟨text "name", r.name⟩,
   ⟨text "members", joined (r.members.map TargetId.to_string)⟩]

theorem render_domain_eq (r : DomainRecord) :
    render_domain r = record_text (text "domain") (domain_fields r) ++ [newline] := by
  rw [record_text_eq, domain_fields]
  simp only [List.flatMap_cons, List.flatMap_nil, List.append_nil, field_text_append]
  rw [render_domain, show text "domain kind=" = text "domain" ++ (32 :: text "kind" ++ [equals])
    from rfl, show text " id=" = 32 :: text "id" ++ [equals] from rfl,
    show text " name=" = 32 :: text "name" ++ [equals] from rfl,
    show text " correlated=" = 32 :: text "correlated" ++ [equals] from rfl]
  simp only [List.append_assoc]

theorem render_target_eq (r : TargetRecord) :
    render_target r = record_text (text "target") (target_fields r) ++ [newline] := by
  have hparent : render_parent r.parent =
      (parent_fields r.parent).flatMap (fun f => 32 :: field_text f.key f.value) := by
    cases r.parent with
    | none => rfl
    | some p =>
      simp only [render_parent, parent_fields, List.flatMap_cons, List.flatMap_nil,
        List.append_nil, field_text_append]
      rfl
  rw [record_text_eq, target_fields]
  simp only [List.flatMap_append, ← hparent]
  simp only [List.flatMap_cons, List.flatMap_nil, List.append_nil, field_text_append]
  rw [render_target, comma_list_eq,
    show text "target kind=" = text "target" ++ (32 :: text "kind" ++ [equals]) from rfl,
    show text " id=" = 32 :: text "id" ++ [equals] from rfl,
    show text " name=" = 32 :: text "name" ++ [equals] from rfl,
    show text " domains=" = 32 :: text "domains" ++ [equals] from rfl,
    show text " capacity=" = 32 :: text "capacity" ++ [equals] from rfl,
    show text " maintainable=" = 32 :: text "maintainable" ++ [equals] from rfl]
  simp only [List.append_assoc]

theorem render_pool_eq (r : PoolRecord) :
    render_pool r = record_text (text "pool") (pool_fields r) ++ [newline] := by
  rw [record_text_eq, pool_fields]
  simp only [List.flatMap_cons, List.flatMap_nil, List.append_nil, field_text_append]
  rw [render_pool, comma_list_eq,
    show text "pool id=" = text "pool" ++ (32 :: text "id" ++ [equals]) from rfl,
    show text " name=" = 32 :: text "name" ++ [equals] from rfl,
    show text " members=" = 32 :: text "members" ++ [equals] from rfl]
  simp only [List.append_assoc]

/-- The records of a topology, in the order they are rendered. -/
def topology_records (t : Topology) : List (Text × List Token) :=
  t.domains.rows.map (fun r => (text "domain", domain_fields r)) ++
    (recorded_order t).map (fun r => (text "target", target_fields r)) ++
    t.pools.rows.map (fun r => (text "pool", pool_fields r))

theorem render_topology_eq (t : Topology) :
    render_topology t = records_text (topology_records t) := by
  rw [render_topology, records_text, topology_records, funext render_domain_eq,
    funext render_target_eq, funext render_pool_eq]
  simp only [List.flatMap_append, List.flatMap_map]

/-! ## What a record must be to be written -/

structure DomainRecord.written (r : DomainRecord) : Prop where
  id : r.id.written
  name : Plain r.name

structure TargetRecord.written (r : TargetRecord) : Prop where
  id : r.id.written
  name : Plain r.name
  parent : ∀ p, r.parent = some p → p.written
  some_domain : r.domains ≠ []
  domains : ∀ d ∈ r.domains, d.written
  capacity_units : r.capacity_units < 4294967296

structure PoolRecord.written (r : PoolRecord) : Prop where
  id : r.id.value < 4294967296
  name : Plain r.name
  some_member : r.members ≠ []
  members : ∀ m ∈ r.members, m.written

theorem plain_domains {r : TargetRecord} (h : r.written) :
    Plain (joined (r.domains.map DomainId.to_string)) := by
  refine plain_joined (by simpa using h.some_domain) ?_
  intro w hw
  obtain ⟨d, _, rfl⟩ := List.mem_map.mp hw
  exact plain_domain d

theorem plain_domain_record {r : DomainRecord} (h : r.written) :
    PlainRecord (text "domain") (domain_fields r) := by
  refine ⟨by decide, ?_, ?_, by simp [domain_fields]⟩
  · simp only [domain_fields, List.forall_mem_cons]
    refine ⟨plain_field (by decide) (prefix_domain_kind _).plain,
      plain_field (by decide) (plain_decimal _),
      plain_field (by decide) h.name,
      plain_field (by decide) (plain_bool _), ?_⟩
    intro f hf
    cases hf
  · show [text "kind", text "id", text "name", text "correlated"].Nodup
    decide

theorem plain_target_record {r : TargetRecord} (h : r.written) :
    PlainRecord (text "target") (target_fields r) := by
  have hparent : ∀ f ∈ parent_fields r.parent, f.Plain := by
    intro f hf
    cases hp : r.parent with
    | none =>
      rw [hp] at hf
      cases hf
    | some p =>
      rw [hp, parent_fields, List.mem_singleton] at hf
      rw [hf]
      exact plain_field (by decide) (plain_target p)
  refine ⟨by decide, ?_, ?_, ?_⟩
  · simp only [target_fields, List.forall_mem_append, List.forall_mem_cons]
    refine ⟨⟨⟨plain_field (by decide) (prefix_target_kind _).plain,
      plain_field (by decide) (plain_decimal _),
      plain_field (by decide) h.name, ?_⟩, hparent⟩,
      plain_field (by decide) (plain_domains h),
      plain_field (by decide) (plain_decimal _),
      plain_field (by decide) (plain_bool _), ?_⟩ <;>
    · intro f hf
      cases hf
  · cases hp : r.parent with
    | none =>
      rw [target_fields, hp]
      show [text "kind", text "id", text "name", text "domains", text "capacity",
        text "maintainable"].Nodup
      decide
    | some p =>
      rw [target_fields, hp]
      show [text "kind", text "id", text "name", text "parent", text "domains", text "capacity",
        text "maintainable"].Nodup
      decide
  · cases hp : r.parent with
    | none => simp [target_fields, hp, parent_fields]
    | some p => simp [target_fields, hp, parent_fields]

theorem plain_pool_record {r : PoolRecord} (h : r.written) :
    PlainRecord (text "pool") (pool_fields r) := by
  refine ⟨by decide, ?_, ?_, by simp [pool_fields]⟩
  · simp only [pool_fields, List.forall_mem_cons]
    refine ⟨plain_field (by decide) (plain_decimal _),
      plain_field (by decide) h.name,
      plain_field (by decide) (plain_targets h.some_member), ?_⟩
    intro f hf
    cases hf
  · show [text "id", text "name", text "members"].Nodup
    decide

/-! ## A rendered line loads as its record -/

theorem domain_identity_to_string {id : DomainId} (h : id.written) :
    domain_identity id.kind.to_string (decimal id.index) = some id := by
  simp [domain_identity, parse_domain_kind_to_string, parse_u32_decimal h.2, h.1]

theorem target_identity_to_string {id : TargetId} (h : id.written) :
    target_identity id.kind.to_string (decimal id.index) = some id := by
  simp [target_identity, parse_target_kind_to_string, parse_u32_decimal h.2, h.1]

theorem load_domain_line {r : DomainRecord} (h : r.written) (t : Topology) (number : Nat) :
    load_record t ⟨number, text "domain", domain_fields r⟩ =
      at_line ⟨number, text "domain", domain_fields r⟩ (t.add_domain r) := by
  have hkeys : require_known_keys ⟨number, text "domain", domain_fields r⟩
      [text "kind", text "id", text "name", text "correlated"] = .ok () := rfl
  have hkind : require_value ⟨number, text "domain", domain_fields r⟩ (text "kind") =
      .ok r.id.kind.to_string := rfl
  have hid : require_value ⟨number, text "domain", domain_fields r⟩ (text "id") =
      .ok (decimal r.id.index) := rfl
  have hname : (⟨number, text "domain", domain_fields r⟩ : Line).find (text "name") =
      some r.name := rfl
  have hcorrelated : optional_value ⟨number, text "domain", domain_fields r⟩
    (text "correlated") true
      (parse_bool ⟨number, text "domain", domain_fields r⟩) = .ok r.correlated :=
    parse_bool_text _ r.correlated
  rw [load_record, if_pos rfl, load_domain, hkeys, Result.ok_bind, hkind, Result.ok_bind, hid,
    Result.ok_bind, domain_identity_to_string h.id]
  simp only [expect, Result.ok_bind, hname, hcorrelated, Option.getD_some]

/-- The fields of a target do not depend on whether it has a parent, the parent apart. -/
theorem find_target_field (number : Nat) (r : TargetRecord) {key : Text}
    (hkey : key ≠ text "parent") :
    (⟨number, text "target", target_fields r⟩ : Line).find key =
      (⟨number, text "target", target_fields { r with parent := none }⟩ : Line).find key := by
  unfold Line.find target_fields
  cases r.parent with
  | none => rfl
  | some p =>
    have hskip : decide (text "parent" = key) = false := by simpa using hkey.symm
    simp only [parent_fields, List.find?_append, List.find?_cons, hskip, List.find?_nil,
      Option.or_none]

theorem load_target_line {r : TargetRecord} (h : r.written) (t : Topology) (number : Nat) :
    load_record t ⟨number, text "target", target_fields r⟩ =
      at_line ⟨number, text "target", target_fields r⟩ (t.add_target r) := by
  generalize hline : (⟨number, text "target", target_fields r⟩ : Line) = line
  -- Whether there is a parent decides if its field is there, and moves no other field.
  have hfield : ∀ key value, key ≠ text "parent" →
      (⟨number, text "target", target_fields { r with parent := none }⟩ : Line).find key =
        some value → line.find key = some value := by
    intro key value hkey hvalue
    rw [← hline, find_target_field number r hkey, hvalue]
  have hkeys : require_known_keys line [text "kind", text "id", text "name", text "parent",
      text "domains", text "capacity", text "maintainable"] = .ok () := by
    rw [← hline, target_fields]
    cases r.parent <;> rfl
  have hkind := require_value_eq_ok.mpr (hfield (text "kind") _ (by decide) rfl)
  have hid := require_value_eq_ok.mpr (hfield (text "id") _ (by decide) rfl)
  have hname := hfield (text "name") r.name (by decide) rfl
  have hdomains := require_value_eq_ok.mpr (hfield (text "domains") _ (by decide) rfl)
  have hparent : optional_value line (text "parent") none (load_parent line) = .ok r.parent := by
    cases hp : r.parent with
    | none =>
      have hfind : line.find (text "parent") = none := by
        rw [← hline, target_fields, hp]
        rfl
      rw [optional_value, hfind]
    | some p =>
      have hfind : line.find (text "parent") = some p.to_string := by
        rw [← hline, target_fields, hp]
        rfl
      rw [optional_value, hfind]
      simp only [load_parent, parse_target_id_to_string (h.parent p hp), expect]
      rfl
  have hcapacity : optional_value line (text "capacity") 1 (parse_u32_value line) =
      .ok r.capacity_units := by
    rw [optional_value, hfield (text "capacity") _ (by decide) rfl]
    exact parse_u32_value_eq_ok.mpr (parse_u32_decimal h.capacity_units)
  have hmaintainable : optional_value line (text "maintainable") true (parse_bool line) =
      .ok r.maintainable := by
    rw [optional_value, hfield (text "maintainable") _ (by decide) rfl]
    exact parse_bool_text line r.maintainable
  have hlist := parse_domain_list_joined line h.some_domain h.domains
  have hother : text "target" ≠ text "domain" := by decide
  rw [load_record, ← hline, if_neg hother, if_pos rfl, hline, load_target, hkeys,
    Result.ok_bind, hkind, Result.ok_bind, hid, Result.ok_bind, hdomains, Result.ok_bind,
    target_identity_to_string h.id]
  simp only [expect, Result.ok_bind, hname, hlist, hparent, hcapacity, hmaintainable,
    Option.getD_some]

theorem load_pool_line {r : PoolRecord} (h : r.written) (t : Topology) (number : Nat) :
    load_record t ⟨number, text "pool", pool_fields r⟩ =
      at_line ⟨number, text "pool", pool_fields r⟩ (t.add_pool r) := by
  have hkeys : require_known_keys ⟨number, text "pool", pool_fields r⟩
      [text "id", text "name", text "members"] = .ok () := rfl
  have hid : require_value ⟨number, text "pool", pool_fields r⟩ (text "id") =
      .ok (decimal r.id.value) := rfl
  have hmembers : require_value ⟨number, text "pool", pool_fields r⟩ (text "members") =
      .ok (joined (r.members.map TargetId.to_string)) := rfl
  have hname : (⟨number, text "pool", pool_fields r⟩ : Line).find (text "name") = some r.name := rfl
  have hlist := parse_target_list_joined ⟨number, text "pool", pool_fields r⟩ h.some_member
    h.members
  have hdomain : text "pool" ≠ text "domain" := by decide
  have htarget : text "pool" ≠ text "target" := by decide
  rw [load_record, if_neg hdomain, if_neg htarget, if_pos rfl, load_pool, hkeys,
    Result.ok_bind, hid, Result.ok_bind, hmembers, Result.ok_bind, parse_u32_decimal h.id]
  simp only [expect, Result.ok_bind, hname, hlist, Option.getD_some]

/-! ## What was loaded can be written -/

theorem written_domain_identity {kind_text id_text : Text} {id : DomainId}
    (h : domain_identity kind_text id_text = some id) : id.written := by
  simp only [domain_identity, Option.bind_eq_bind, Option.bind_eq_some_iff] at h
  obtain ⟨kind, _, h⟩ := h
  by_cases hkind : kind = .Unknown
  · rw [if_pos hkind] at h
    cases h
  · rw [if_neg hkind] at h
    obtain ⟨index, hindex, h⟩ := Option.bind_eq_some_iff.mp h
    cases h
    exact ⟨hkind, lt_of_parse_u32 hindex⟩

theorem written_target_identity {kind_text id_text : Text} {id : TargetId}
    (h : target_identity kind_text id_text = some id) : id.written := by
  simp only [target_identity, Option.bind_eq_bind, Option.bind_eq_some_iff] at h
  obtain ⟨kind, _, h⟩ := h
  by_cases hkind : kind = .Unknown
  · rw [if_pos hkind] at h
    cases h
  · rw [if_neg hkind] at h
    obtain ⟨index, hindex, h⟩ := Option.bind_eq_some_iff.mp h
    cases h
    exact ⟨hkind, lt_of_parse_u32 hindex⟩

/-- What one line does to a topology. -/
inductive Topology.Extended (t u : Topology) : Prop
  | domain {r : DomainRecord} : r.written → t.add_domain r = .ok u → Extended t u
  | target {r : TargetRecord} : r.written → t.add_target r = .ok u → Extended t u
  | pool {r : PoolRecord} : r.written → t.add_pool r = .ok u → Extended t u

theorem load_domain_extends {t u : Topology} {line : Line} (hline : line.Plain)
    (h : load_domain t line = .ok u) : Topology.Extended t u := by
  simp only [load_domain, Result.bind_eq_ok, expect_eq_ok, at_line_eq_ok] at h
  obtain ⟨_, _, _, _, _, _, id, hid, correlated, _, hadd⟩ := h
  exact .domain ⟨written_domain_identity hid, plain_name hline (plain_domain id) _⟩ hadd

theorem load_target_extends {t u : Topology} {line : Line} (hline : line.Plain)
    (h : load_target t line = .ok u) : Topology.Extended t u := by
  simp only [load_target, Result.bind_eq_ok, expect_eq_ok, at_line_eq_ok] at h
  obtain ⟨_, _, _, _, _, _, _, _, id, hid, domains, hdomains, parent, hparent, capacity_units,
    hcapacity, maintainable, _, hadd⟩ := h
  obtain ⟨hsome, hparsed⟩ := mem_parsed_list hdomains
  refine .target ⟨written_target_identity hid, plain_name hline (plain_target id) _, ?_, hsome,
    ?_, ?_⟩ hadd
  · intro p hp
    rcases optional_value_eq_ok hparent with rfl | ⟨value, hvalue⟩
    · cases hp
    · simp only [load_parent, Result.bind_eq_ok, expect_eq_ok] at hvalue
      obtain ⟨q, hq, hok⟩ := hvalue
      cases hok
      cases hp
      exact written_of_parse_target hq
  · intro d hd
    obtain ⟨piece, hpiece⟩ := hparsed d hd
    exact written_of_parse_domain hpiece
  · rcases optional_value_eq_ok hcapacity with rfl | ⟨value, hvalue⟩
    · exact Nat.one_lt_two_pow (n := 32) (by decide)
    · exact lt_of_parse_u32 (parse_u32_value_eq_ok.mp hvalue)

theorem load_pool_extends {t u : Topology} {line : Line} (hline : line.Plain)
    (h : load_pool t line = .ok u) : Topology.Extended t u := by
  simp only [load_pool, Result.bind_eq_ok, expect_eq_ok, at_line_eq_ok] at h
  obtain ⟨_, _, _, _, _, _, index, hindex, members, hmembers, hadd⟩ := h
  obtain ⟨hsome, hparsed⟩ := mem_parsed_list hmembers
  have hname : Plain (⟨index⟩ : PoolId).to_string :=
    (by decide : Plain (text "pool:")).append (plain_decimal index)
  refine .pool ⟨lt_of_parse_u32 hindex, plain_name hline hname _, hsome, ?_⟩ hadd
  intro m hm
  obtain ⟨piece, hpiece⟩ := hparsed m hm
  exact written_of_parse_target hpiece

theorem load_record_extends {t u : Topology} {line : Line} (hline : line.Plain)
    (h : load_record t line = .ok u) : Topology.Extended t u := by
  unfold load_record at h
  by_cases hdomain : line.kind = text "domain"
  · rw [if_pos hdomain] at h
    exact load_domain_extends hline h
  rw [if_neg hdomain] at h
  by_cases htarget : line.kind = text "target"
  · rw [if_pos htarget] at h
    exact load_target_extends hline h
  rw [if_neg htarget] at h
  by_cases hpool : line.kind = text "pool"
  · rw [if_pos hpool] at h
    exact load_pool_extends hline h
  · rw [if_neg hpool] at h
    cases h

/-- Every record of the topology can be written. -/
structure Topology.Written (t : Topology) : Prop where
  built : t.Built
  domains : ∀ r ∈ t.domains.rows, r.written
  targets : ∀ r ∈ t.targets.rows, r.written
  pools : ∀ r ∈ t.pools.rows, r.written

theorem Topology.written_empty : Topology.Written {} := by
  refine ⟨.empty, ?_, ?_, ?_⟩ <;>
  · intro r hr
    cases hr

theorem Topology.Extended.written {t u : Topology} (h : t.Extended u) (ht : t.Written) :
    u.Written := by
  cases h with
  | @domain r hr hadd =>
    have hbuilt := ht.built.domain hadd
    obtain ⟨-, -, rfl⟩ := add_domain_ok.mp hadd
    refine ⟨hbuilt, ?_, ht.targets, ht.pools⟩
    intro x hx
    rcases Table.mem_put.mp hx with rfl | ⟨hold, _⟩
    · exact hr
    · exact ht.domains x hold
  | @target r hr hadd =>
    have hbuilt := ht.built.target hadd
    obtain ⟨htargets, hdomains, hpools⟩ := add_target_ok hadd
    refine ⟨hbuilt, hdomains ▸ ht.domains, ?_, hpools ▸ ht.pools⟩
    rw [htargets]
    intro x hx
    rcases Table.mem_put.mp hx with rfl | ⟨hold, _⟩
    · exact hr
    · exact ht.targets x hold
  | @pool r hr hadd =>
    have hbuilt := ht.built.pool hadd
    obtain ⟨-, -, -, rfl⟩ := add_pool_ok.mp hadd
    refine ⟨hbuilt, ht.domains, ht.targets, ?_⟩
    intro x hx
    rcases Table.mem_put.mp hx with rfl | ⟨hold, _⟩
    · exact hr
    · exact ht.pools x hold

/-- The topology does not depend on what is counted. -/
theorem load_counted_run {lines : List Line} {t u : Topology} {counted stats : ParseStats}
    (h : lines.foldlM load_counted (t, counted) = .ok (u, stats)) :
    lines.foldlM load_record t = .ok u := by
  induction lines generalizing t counted with
  | nil =>
    cases h
    rfl
  | cons line lines ih =>
    rw [List.foldlM_cons, Result.bind_eq_ok] at h
    obtain ⟨next, hnext, hrest⟩ := h
    simp only [load_counted, Result.bind_eq_ok] at hnext
    obtain ⟨v, hv, hok⟩ := hnext
    cases hok
    rw [List.foldlM_cons, hv, Result.ok_bind]
    exact ih hrest

theorem load_counted_of_run {lines : List Line} {t u : Topology} (counted : ParseStats)
    (h : lines.foldlM load_record t = .ok u) :
    ∃ stats, lines.foldlM load_counted (t, counted) = .ok (u, stats) := by
  induction lines generalizing t counted with
  | nil =>
    cases h
    exact ⟨counted, rfl⟩
  | cons line lines ih =>
    rw [List.foldlM_cons, Result.bind_eq_ok] at h
    obtain ⟨v, hv, hrest⟩ := h
    obtain ⟨stats, hstats⟩ := ih { counted with records := counted.records + 1 } hrest
    refine ⟨stats, ?_⟩
    rw [List.foldlM_cons, load_counted, hv]
    exact hstats

theorem load_topology_text_eq_ok {t : Text} {u : Topology} :
    (∃ stats, load_topology_text t = .ok (u, stats)) ↔
      ∃ lines, tokenize t = .ok lines ∧ lines.foldlM load_record {} = .ok u ∧
        u.validate = .ok () := by
  simp only [load_topology_text, Result.bind_eq_ok]
  constructor
  · rintro ⟨stats, lines, hlines, ⟨v, counted⟩, hrun, _, hvalid, hok⟩
    cases hok
    exact ⟨lines, hlines, load_counted_run hrun, hvalid⟩
  · rintro ⟨lines, hlines, hrun, hvalid⟩
    obtain ⟨stats, hstats⟩ := load_counted_of_run { lines := lines.length } hrun
    exact ⟨stats, lines, hlines, (u, stats), hstats, (), hvalid, rfl⟩

theorem written_of_lines {lines : List Line} {t u : Topology} (ht : t.Written)
    (hplain : ∀ line ∈ lines, line.Plain) (h : lines.foldlM load_record t = .ok u) : u.Written := by
  induction lines generalizing t with
  | nil =>
    cases h
    exact ht
  | cons line lines ih =>
    rw [List.foldlM_cons, Result.bind_eq_ok] at h
    obtain ⟨v, hv, hrest⟩ := h
    have hstep := load_record_extends (hplain line List.mem_cons_self) hv
    exact ih (hstep.written ht) (fun x hx => hplain x (List.mem_cons_of_mem _ hx)) hrest

/-- Whatever the text was, the topology loaded from it can be written, and is valid. -/
theorem loaded_written {t : Text} {u : Topology} {stats : ParseStats}
    (h : load_topology_text t = .ok (u, stats)) : u.Written ∧ u.validate = .ok () := by
  obtain ⟨lines, hlines, hrun, hvalid⟩ := load_topology_text_eq_ok.mp ⟨stats, h⟩
  exact ⟨written_of_lines Topology.written_empty (plain_tokenize hlines) hrun, hvalid⟩

/-! ## A rendered topology is replayed -/

theorem plain_topology_records {t : Topology} (h : t.Written) :
    ∀ r ∈ topology_records t, PlainRecord r.1 r.2 := by
  intro r hr
  simp only [topology_records, List.mem_append, List.mem_map] at hr
  rcases hr with (⟨d, hd, rfl⟩ | ⟨x, hx, rfl⟩) | ⟨p, hp, rfl⟩
  · exact plain_domain_record (h.domains d hd)
  · exact plain_target_record (h.targets x ((recorded_order_perm t).mem_iff.mp hx))
  · exact plain_pool_record (h.pools p hp)

/-- Lines that load as records are replayed one by one. -/
theorem load_numbered {α : Type} {fields : α → Text × List Token}
    {add : Topology → α → Result Topology} {l : List α}
    (h : ∀ a ∈ l, ∀ number t u,
      load_record t ⟨number, (fields a).1, (fields a).2⟩ = .ok u ↔ added (add t a) = .ok u)
    (number : Nat) {t u : Topology} :
    (numbered number (l.map fields)).foldlM load_record t = .ok u ↔
      l.foldlM (fun t a => added (add t a)) t = .ok u := by
  induction l generalizing number t with
  | nil => exact Iff.rfl
  | cons a l ih =>
    have hone := h a List.mem_cons_self number t
    have hrest : ∀ v, (numbered (number + 1) (l.map fields)).foldlM load_record v = .ok u ↔
        l.foldlM (fun t a => added (add t a)) v = .ok u := by
      intro v
      exact ih (fun x hx => h x (List.mem_cons_of_mem _ hx)) (number + 1)
    rw [List.map_cons, numbered, List.foldlM_cons, List.foldlM_cons, Result.bind_eq_ok,
      Result.bind_eq_ok]
    constructor
    · rintro ⟨v, hv, hlater⟩
      exact ⟨v, (hone v).mp hv, (hrest v).mp hlater⟩
    · rintro ⟨v, hv, hlater⟩
      exact ⟨v, (hone v).mpr hv, (hrest v).mpr hlater⟩

theorem stored_target_name {t : Topology} (hv : t.validate = .ok ()) {r : TargetRecord}
    (hr : r ∈ t.targets.rows) : r.name.length ≤ limits.kMaxNameLength := by
  have hrecord := (Topology.validate_target hv hr).1
  simp only [validate_target_record, Result.bind_eq_ok, refuse_if_eq_ok, decide_eq_false_iff_not,
    Nat.not_lt] at hrecord
  obtain ⟨_, _, _, hname, _⟩ := hrecord
  exact hname

theorem load_domain_lines {l : List DomainRecord}
    (h : ∀ r ∈ l, r.written ∧ r.name.length ≤ limits.kMaxNameLength) (number : Nat)
    {t u : Topology} :
    (numbered number (l.map (fun r => (text "domain", domain_fields r)))).foldlM load_record t =
        .ok u ↔
      l.foldlM (fun t r => added (t.add_domain { r with name := recorded_name r.name })) t =
        .ok u := by
  refine load_numbered ?_ number
  intro r hr number t u
  obtain ⟨hwritten, hname⟩ := h r hr
  rw [load_domain_line hwritten, at_line_eq_ok, added_eq_ok, Topology.recorded_name_of_le hname]

theorem load_target_lines {l : List TargetRecord}
    (h : ∀ r ∈ l, r.written ∧ r.name.length ≤ limits.kMaxNameLength) (number : Nat)
    {t u : Topology} :
    (numbered number (l.map (fun r => (text "target", target_fields r)))).foldlM load_record t =
        .ok u ↔
      l.foldlM (fun t r => added (t.add_target { r with name := recorded_name r.name })) t =
        .ok u := by
  refine load_numbered ?_ number
  intro r hr number t u
  obtain ⟨hwritten, hname⟩ := h r hr
  rw [load_target_line hwritten, at_line_eq_ok, added_eq_ok, Topology.recorded_name_of_le hname]

theorem load_pool_lines {l : List PoolRecord}
    (h : ∀ r ∈ l, r.written ∧ r.name.length ≤ limits.kMaxNameLength) (number : Nat)
    {t u : Topology} :
    (numbered number (l.map (fun r => (text "pool", pool_fields r)))).foldlM load_record t =
        .ok u ↔
      l.foldlM (fun t r => added (t.add_pool { r with name := recorded_name r.name })) t =
        .ok u := by
  refine load_numbered ?_ number
  intro r hr number t u
  obtain ⟨hwritten, hname⟩ := h r hr
  rw [load_pool_line hwritten, at_line_eq_ok, added_eq_ok, Topology.recorded_name_of_le hname]

/-- Loading a rendered topology comes to replaying its records in the recorded order. -/
theorem load_rendered {t u : Topology} (h : t.Written) (hv : t.validate = .ok ()) :
    (∃ stats, load_topology_text (render_topology t) = .ok (u, stats)) ↔
      recorded_topology t = .ok u := by
  have hentered := h.built.entered
  have hdomains : ∀ r ∈ t.domains.rows, r.written ∧ r.name.length ≤ limits.kMaxNameLength :=
    fun r hr => ⟨h.domains r hr, (hentered.domains r hr).name⟩
  have htargets : ∀ r ∈ recorded_order t, r.written ∧ r.name.length ≤ limits.kMaxNameLength := by
    intro r hr
    have hmem := (recorded_order_perm t).mem_iff.mp hr
    exact ⟨h.targets r hmem, stored_target_name hv hmem⟩
  have hpools : ∀ r ∈ t.pools.rows, r.written ∧ r.name.length ≤ limits.kMaxNameLength :=
    fun r hr => ⟨h.pools r hr, (hentered.pools r hr).name⟩
  have htokens := tokenize_records (plain_topology_records h)
  rw [← render_topology_eq] at htokens
  rw [load_topology_text_eq_ok, htokens]
  simp only [topology_records, numbered_append, List.foldlM_append, recorded_topology,
    Result.bind_eq_ok, Except.ok.injEq, load_domain_lines hdomains, load_target_lines htargets,
    load_pool_lines hpools, exists_eq_left']
  constructor
  · rintro ⟨⟨v, ⟨w, hw, hv⟩, hu⟩, hvalid⟩
    exact ⟨w, hw, v, hv, u, hu, (), hvalid, rfl⟩
  · rintro ⟨w, hw, v, hv, u, hu, _, hvalid, rfl⟩
    exact ⟨⟨v, ⟨w, hw, hv⟩, hu⟩, hvalid⟩

/-- A loaded topology comes back from its text exactly when no target whose parent's ancestor
    list is full has a smaller identity than that parent. -/
theorem topology_text_kept_iff (t : Text) (u : Topology) (stats : ParseStats)
    (h : load_topology_text t = .ok (u, stats)) :
    (∃ v stats', load_topology_text (render_topology u) = .ok (v, stats') ∧
      v.domains = u.domains ∧ v.targets = u.targets ∧ v.pools = u.pools) ↔
    ∀ r ∈ u.targets.rows, ∀ p, r.parent = some p →
      (u.ancestors p).length = limits.kMaxTopologyChainDepth → p < r.id := by
  obtain ⟨hwritten, hvalid⟩ := loaded_written h
  have hrecorded := Topology.recorded_topology_iff hwritten.built hvalid
  rw [Topology.parents_recorded_first] at hrecorded
  rw [← hrecorded]
  constructor
  · rintro ⟨v, stats', hload, hdomains, htargets, hpools⟩
    exact ⟨v, (load_rendered hwritten hvalid).mp ⟨stats', hload⟩, hdomains, htargets, hpools⟩
  · rintro ⟨v, hrun, hsame⟩
    obtain ⟨stats', hload⟩ := (load_rendered hwritten hvalid).mpr hrun
    exact ⟨v, stats', hload, hsame.domains, hsame.targets, hsame.pools⟩

/-! ### A tall tower, written down -/

namespace TowerText

/-- Switches `2`, `3`, …, each inside the one before, and switch `1` inside the last. -/
def tower_text (height : Nat) : Text :=
  text "domain kind=rack id=1\n" ++ text "target kind=switch id=2 domains=rack:1\n" ++
    (List.range height).flatMap (fun i =>
      text "target kind=switch id=" ++ decimal (i + 3) ++ text " parent=switch:" ++
        decimal (i + 2) ++ text " domains=rack:1\n") ++
    text "target kind=switch id=1 parent=switch:" ++ decimal (height + 2) ++
    text " domains=rack:1\n"

def loaded (height : Nat) : Topology × ParseStats :=
  match load_topology_text (tower_text height) with
  | .ok found => found
  | .error _ => ({}, {})

theorem load_tower {height : Nat} (h : (load_topology_text (tower_text height)).isOk = true) :
    load_topology_text (tower_text height) = .ok ((loaded height).1, (loaded height).2) := by
  unfold loaded
  cases hload : load_topology_text (tower_text height) with
  | error e =>
    rw [hload] at h
    cases h
  | ok found => rfl

end TowerText

/-- A low tower comes back, although its last target has the smallest identity. -/
theorem tower_text_kept : ∃ v stats', load_topology_text (render_topology (TowerText.loaded 2).1) =
      .ok (v, stats') ∧ v.domains = (TowerText.loaded 2).1.domains ∧
    v.targets = (TowerText.loaded 2).1.targets ∧ v.pools = (TowerText.loaded 2).1.pools :=
  (topology_text_kept_iff (TowerText.tower_text 2) _ (TowerText.loaded 2).2
    (TowerText.load_tower (by decide +kernel))).mpr (by decide +kernel)

/-- In a tower of 33 floors the last target is written before its parent, and the text is
    refused. -/
theorem tall_tower_text_refused : ∃ u stats,
    load_topology_text (TowerText.tower_text 32) = .ok (u, stats) ∧
      ¬ ∃ v stats', load_topology_text (render_topology u) = .ok (v, stats') := by
  refine ⟨_, _, TowerText.load_tower (by decide +kernel), ?_⟩
  rintro ⟨v, stats', hload⟩
  have hrefused : (load_topology_text (render_topology (TowerText.loaded 32).1)).isOk = false := by
    decide +kernel
  rw [hload] at hrefused
  cases hrefused

end MaintenanceFabric
