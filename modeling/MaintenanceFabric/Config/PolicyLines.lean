import MaintenanceFabric.Config.PolicyText

/-! # Policy lines that read back

    Kind by kind: the fields a record is written with, that the renderer writes
    just these, and that the loader reads the record back from them.  A contract
    alone comes back changed: it asks for fresh evidence, whatever it asked for
    before.
-/

namespace MaintenanceFabric

open Lib

/-! ## Fields of a line -/

def lookup (fields : List Token) (key : Text) : Option Text :=
  (fields.find? (fun f => f.key = key)).map Token.value

section

variable {line : Line} {fields : List Token} (h : line.tokens = fields)

include h

theorem find_field {key : Text} {found : Option Text} (hfound : lookup fields key = found) :
    line.find key = found := by
  rw [Line.find, h]
  exact hfound

theorem field_value (key : Text) {value : Text} (hfound : lookup fields key = some value) :
    require_value line key = .ok value := require_value_eq_ok.mpr (find_field h hfound)

theorem field_name {value fallback : Text} (hfound : lookup fields (text "name") = some value) :
    named line fallback = value := by
  rw [named, find_field h hfound, Option.getD_some]

theorem field_optional {α : Type} {key value : Text} {fallback a : α} {parse : Text → Result α}
    (hfound : lookup fields key = some value) (hparse : parse value = .ok a) :
    optional_value line key fallback parse = .ok a := by
  rw [optional_value, find_field h hfound]
  exact hparse

theorem field_missing {α : Type} {key : Text} {fallback : α} {parse : Text → Result α}
    (hfound : lookup fields key = none) :
    optional_value line key fallback parse = .ok fallback := by
  rw [optional_value, find_field h hfound]

theorem known_fields {allowed : List Text}
    (hall : fields.all (fun f => allowed.contains f.key) = true) :
    require_known_keys line allowed = .ok () := by
  rw [require_known_keys, h]
  refine check_all_iff.mpr ?_
  intro f hf
  rw [List.all_eq_true.mp hall f hf]
  rfl

end

/-- The fields make a record that the tokenizer reads back, and `load` makes `a` of it. -/
structure ReadsBack {α : Type} (kind : Text) (fields : List Token) (load : Line → Result α)
    (a : α) : Prop where
  record : PlainRecord kind fields
  load : ∀ line : Line, line.tokens = fields → load line = .ok a

/-- An identity that fits the numbers of the text. -/
def StrongId.written {tag : IdTag} (id : StrongId tag) : Prop := id.value < 4294967296

/-! ## Rules -/

structure RedundancyRule.written (r : RedundancyRule) : Prop where
  pool : r.pool.written
  min_viable : r.min_viable < 4294967296
  tolerated_losses : r.tolerated_losses < 4294967296
  name : Plain r.name

def redundancy_fields (r : RedundancyRule) : List Token :=
  [⟨text "pool", decimal r.pool.value⟩, ⟨text "min_viable", decimal r.min_viable⟩,
   ⟨text "tolerated_losses", decimal r.tolerated_losses⟩, ⟨text "name", r.name⟩]

theorem render_redundancy_eq (r : RedundancyRule) :
    render_redundancy r = record_text (text "redundancy") (redundancy_fields r) ++ [newline] := by
  rw [record_text_eq, redundancy_fields]
  simp only [List.flatMap_cons, List.flatMap_nil, List.append_nil, field_text_append]
  rw [render_redundancy,
    show text "redundancy pool=" = text "redundancy" ++ (32 :: text "pool" ++ [equals]) from rfl,
    show text " min_viable=" = 32 :: text "min_viable" ++ [equals] from rfl,
    show text " tolerated_losses=" = 32 :: text "tolerated_losses" ++ [equals] from rfl,
    show text " name=" = 32 :: text "name" ++ [equals] from rfl]
  simp only [List.append_assoc]

theorem redundancy_back {r : RedundancyRule} (h : r.written) :
    ReadsBack (text "redundancy") (redundancy_fields r) load_redundancy r := by
  constructor
  · refine ⟨by decide, ?_, ?_, by simp [redundancy_fields]⟩
    · simp only [redundancy_fields, List.forall_mem_cons]
      refine ⟨plain_field (by decide) (plain_decimal _), plain_field (by decide) (plain_decimal _),
        plain_field (by decide) (plain_decimal _), plain_field (by decide) h.name, ?_⟩
      intro f hf
      cases hf
    · show [text "pool", text "min_viable", text "tolerated_losses", text "name"].Nodup
      decide
  · intro line htokens
    have hpool := field_value htokens (text "pool") rfl
    have hviable := field_value htokens (text "min_viable") rfl
    have hlosses := field_value htokens (text "tolerated_losses") rfl
    rw [load_redundancy, known_fields htokens rfl, Result.ok_bind, hpool, Result.ok_bind, hviable,
      Result.ok_bind, hlosses, Result.ok_bind,
      parse_u32_value_eq_ok.mpr (parse_u32_decimal h.min_viable), Result.ok_bind,
      parse_u32_value_eq_ok.mpr (parse_u32_decimal h.tolerated_losses), Result.ok_bind,
      expect_eq_ok.mpr (parse_u32_decimal h.pool), Result.ok_bind, field_name htokens rfl]

structure HeadroomRule.written (r : HeadroomRule) : Prop where
  pool : r.pool.written
  reserve_units : r.reserve_units < 4294967296
  name : Plain r.name

def headroom_fields (r : HeadroomRule) : List Token :=
  [⟨text "pool", decimal r.pool.value⟩, ⟨text "reserve", decimal r.reserve_units⟩,
   ⟨text "name", r.name⟩]

theorem render_headroom_eq (r : HeadroomRule) :
    render_headroom r = record_text (text "headroom") (headroom_fields r) ++ [newline] := by
  rw [record_text_eq, headroom_fields]
  simp only [List.flatMap_cons, List.flatMap_nil, List.append_nil, field_text_append]
  rw [render_headroom,
    show text "headroom pool=" = text "headroom" ++ (32 :: text "pool" ++ [equals]) from rfl,
    show text " reserve=" = 32 :: text "reserve" ++ [equals] from rfl,
    show text " name=" = 32 :: text "name" ++ [equals] from rfl]
  simp only [List.append_assoc]

theorem headroom_back {r : HeadroomRule} (h : r.written) :
    ReadsBack (text "headroom") (headroom_fields r) load_headroom r := by
  constructor
  · refine ⟨by decide, ?_, ?_, by simp [headroom_fields]⟩
    · simp only [headroom_fields, List.forall_mem_cons]
      refine ⟨plain_field (by decide) (plain_decimal _), plain_field (by decide) (plain_decimal _),
        plain_field (by decide) h.name, ?_⟩
      intro f hf
      cases hf
    · show [text "pool", text "reserve", text "name"].Nodup
      decide
  · intro line htokens
    have hpool := field_value htokens (text "pool") rfl
    have hreserve := field_value htokens (text "reserve") rfl
    rw [load_headroom, known_fields htokens rfl, Result.ok_bind, hpool, Result.ok_bind, hreserve,
      Result.ok_bind, parse_u32_value_eq_ok.mpr (parse_u32_decimal h.reserve_units), Result.ok_bind,
      expect_eq_ok.mpr (parse_u32_decimal h.pool), Result.ok_bind, field_name htokens rfl]

structure DomainLimitRule.written (r : DomainLimitRule) : Prop where
  domain : r.domain.written
  max_out : r.max_out < 4294967296
  name : Plain r.name

def domain_limit_fields (r : DomainLimitRule) : List Token :=
  [⟨text "domain", r.domain.to_string⟩, ⟨text "max_out", decimal r.max_out⟩,
   ⟨text "name", r.name⟩]

theorem render_domain_limit_eq (r : DomainLimitRule) :
    render_domain_limit r = record_text (text "domain_limit") (domain_limit_fields r) ++
      [newline] := by
  rw [record_text_eq, domain_limit_fields]
  simp only [List.flatMap_cons, List.flatMap_nil, List.append_nil, field_text_append]
  rw [render_domain_limit,
    show text "domain_limit domain=" = text "domain_limit" ++ (32 :: text "domain" ++ [equals])
      from rfl,
    show text " max_out=" = 32 :: text "max_out" ++ [equals] from rfl,
    show text " name=" = 32 :: text "name" ++ [equals] from rfl]
  simp only [List.append_assoc]

theorem domain_limit_back {r : DomainLimitRule} (h : r.written) :
    ReadsBack (text "domain_limit") (domain_limit_fields r) load_domain_limit r := by
  constructor
  · refine ⟨by decide, ?_, ?_, by simp [domain_limit_fields]⟩
    · simp only [domain_limit_fields, List.forall_mem_cons]
      refine ⟨plain_field (by decide) (plain_domain _), plain_field (by decide) (plain_decimal _),
        plain_field (by decide) h.name, ?_⟩
      intro f hf
      cases hf
    · show [text "domain", text "max_out", text "name"].Nodup
      decide
  · intro line htokens
    have hdomain := field_value htokens (text "domain") rfl
    have hmax := field_value htokens (text "max_out") rfl
    rw [load_domain_limit, known_fields htokens rfl, Result.ok_bind, hdomain, Result.ok_bind, hmax,
      Result.ok_bind, parse_u32_value_eq_ok.mpr (parse_u32_decimal h.max_out), Result.ok_bind,
      expect_eq_ok.mpr (parse_domain_id_to_string h.domain), Result.ok_bind,
      field_name htokens rfl]

/-! ## Contracts -/

structure Contract.written (c : Contract) : Prop where
  id : c.id.written
  name : Plain c.name
  some_member : c.members ≠ []
  members : ∀ m ∈ c.members, m.written
  min_available : c.min_available < 4294967296

def contract_fields (c : Contract) : List Token :=
  [⟨text "id", decimal c.id.value⟩, ⟨text "name", c.name⟩,
   ⟨text "members", joined (c.members.map TargetId.to_string)⟩,
   ⟨text "min_available", decimal c.min_available⟩]

theorem render_contract_eq (c : Contract) :
    render_contract c = record_text (text "contract") (contract_fields c) ++ [newline] := by
  rw [record_text_eq, contract_fields]
  simp only [List.flatMap_cons, List.flatMap_nil, List.append_nil, field_text_append]
  rw [render_contract, comma_list_eq,
    show text "contract id=" = text "contract" ++ (32 :: text "id" ++ [equals]) from rfl,
    show text " name=" = 32 :: text "name" ++ [equals] from rfl,
    show text " members=" = 32 :: text "members" ++ [equals] from rfl,
    show text " min_available=" = 32 :: text "min_available" ++ [equals] from rfl]
  simp only [List.append_assoc]

/-- The contract that its text stands for. -/
def Contract.rendered (c : Contract) : Contract := { c with require_fresh_evidence := true }

theorem Contract.rendered_eq_iff {c : Contract} :
    c.rendered = c ↔ c.require_fresh_evidence = true := by
  constructor
  · intro h
    rw [← h]
    rfl
  · intro h
    rw [Contract.rendered, ← h]

theorem contract_back {c : Contract} (h : c.written) :
    ReadsBack (text "contract") (contract_fields c) load_contract c.rendered := by
  constructor
  · refine ⟨by decide, ?_, ?_, by simp [contract_fields]⟩
    · simp only [contract_fields, List.forall_mem_cons]
      refine ⟨plain_field (by decide) (plain_decimal _), plain_field (by decide) h.name,
        plain_field (by decide) (plain_targets h.some_member),
        plain_field (by decide) (plain_decimal _), ?_⟩
      intro f hf
      cases hf
    · show [text "id", text "name", text "members", text "min_available"].Nodup
      decide
  · intro line htokens
    have hid := field_value htokens (text "id") rfl
    have hmembers := field_value htokens (text "members") rfl
    have hmin := field_value htokens (text "min_available") rfl
    rw [load_contract, known_fields htokens rfl, Result.ok_bind, hid, Result.ok_bind, hmembers,
      Result.ok_bind, hmin, Result.ok_bind,
      parse_target_list_joined line h.some_member h.members, Result.ok_bind,
      parse_u32_value_eq_ok.mpr (parse_u32_decimal h.min_available), Result.ok_bind,
      expect_eq_ok.mpr (parse_u32_decimal h.id), Result.ok_bind, field_missing htokens rfl,
      Result.ok_bind, field_name htokens rfl]
    rfl

/-! ## Windows -/

structure Window.written (w : Window) : Prop where
  id : w.id.written
  name : Plain w.name
  opens_at : i64_range w.opens_at
  closes_at : i64_range w.closes_at
  min_lead_time : duration_range w.min_lead_time
  abort_grace : duration_range w.abort_grace
  targets : ∀ m ∈ w.targets, m.written

def target_list_fields (targets : List TargetId) : List Token :=
  if targets.isEmpty then [] else [⟨text "targets", joined (targets.map TargetId.to_string)⟩]

def window_fields (w : Window) : List Token :=
  [⟨text "id", decimal w.id.value⟩, ⟨text "name", w.name⟩, ⟨text "opens", format_time w.opens_at⟩,
   ⟨text "closes", format_time w.closes_at⟩, ⟨text "min_lead", nanos_text w.min_lead_time⟩,
   ⟨text "abort_grace", nanos_text w.abort_grace⟩, ⟨text "on_close", w.on_close.to_string⟩] ++
    target_list_fields w.targets

theorem render_window_eq (w : Window) :
    render_window w = record_text (text "window") (window_fields w) ++ [newline] := by
  have htargets : render_targets w.targets =
      (target_list_fields w.targets).flatMap (fun f => 32 :: field_text f.key f.value) := by
    unfold render_targets target_list_fields
    by_cases hnone : w.targets.isEmpty = true
    · rw [if_pos hnone, if_pos hnone]
      rfl
    · rw [if_neg hnone, if_neg hnone, comma_list_eq]
      simp only [List.flatMap_cons, List.flatMap_nil, List.append_nil, field_text_append]
      rfl
  rw [record_text_eq, window_fields, List.flatMap_append, ← htargets]
  simp only [List.flatMap_cons, List.flatMap_nil, List.append_nil, field_text_append]
  rw [render_window,
    show text "window id=" = text "window" ++ (32 :: text "id" ++ [equals]) from rfl,
    show text " name=" = 32 :: text "name" ++ [equals] from rfl,
    show text " opens=" = 32 :: text "opens" ++ [equals] from rfl,
    show text " closes=" = 32 :: text "closes" ++ [equals] from rfl,
    show text " min_lead=" = 32 :: text "min_lead" ++ [equals] from rfl,
    show text " abort_grace=" = 32 :: text "abort_grace" ++ [equals] from rfl,
    show text " on_close=" = 32 :: text "on_close" ++ [equals] from rfl]
  simp only [List.append_assoc]

theorem plain_on_close (on_close : OnWindowClose) : Plain on_close.to_string := by
  cases on_close <;> decide

theorem parse_on_window_close_to_string (on_close : OnWindowClose) :
    parse_on_window_close on_close.to_string = some on_close := by
  cases on_close <;> decide

theorem plain_window_fields {w : Window} (h : w.written) : ∀ f ∈ window_fields w, f.Plain := by
  have htargets : ∀ f ∈ target_list_fields w.targets, f.Plain := by
    unfold target_list_fields
    by_cases hnone : w.targets.isEmpty = true
    · rw [if_pos hnone]
      intro f hf
      cases hf
    · rw [if_neg hnone]
      intro f hf
      rw [List.mem_singleton.mp hf]
      exact plain_field (by decide) (plain_targets (by simpa using hnone))
  simp only [window_fields, List.forall_mem_append, List.forall_mem_cons]
  refine ⟨⟨plain_field (by decide) (plain_decimal _), plain_field (by decide) h.name,
    plain_field (by decide) (plain_format_time h.opens_at),
    plain_field (by decide) (plain_format_time h.closes_at),
    plain_field (by decide) (plain_nanos h.min_lead_time),
    plain_field (by decide) (plain_nanos h.abort_grace),
    plain_field (by decide) (plain_on_close _), ?_⟩, htargets⟩
  intro f hf
  cases hf

/-- The keys of a window, with or without the last one. -/
theorem window_keys (w : Window) :
    ((window_fields w).map Token.key).Nodup ∧ (window_fields w).length ≤ 64 ∧
      (window_fields w).all (fun f => [text "id", text "name", text "opens", text "closes",
        text "min_lead", text "abort_grace", text "on_close", text "targets"].contains f.key) =
          true := by
  unfold window_fields target_list_fields
  by_cases hnone : w.targets.isEmpty = true
  · rw [if_pos hnone]
    refine ⟨?_, by simp, rfl⟩
    show [text "id", text "name", text "opens", text "closes", text "min_lead", text "abort_grace",
      text "on_close"].Nodup
    decide
  · rw [if_neg hnone]
    refine ⟨?_, by simp, rfl⟩
    show [text "id", text "name", text "opens", text "closes", text "min_lead", text "abort_grace",
      text "on_close", text "targets"].Nodup
    decide

theorem load_window_targets {w : Window} (h : w.written) {line : Line}
    (htokens : line.tokens = window_fields w) :
    optional_value line (text "targets") [] (parse_target_list line) = .ok w.targets := by
  unfold window_fields target_list_fields at htokens
  by_cases hnone : w.targets.isEmpty = true
  · rw [if_pos hnone] at htokens
    rw [field_missing htokens rfl, List.isEmpty_iff.mp hnone]
  · rw [if_neg hnone] at htokens
    exact field_optional htokens rfl
      (parse_target_list_joined line (by simpa using hnone) h.targets)

theorem window_back {w : Window} (h : w.written) (reference_now : Nanos) :
    ReadsBack (text "window") (window_fields w) (load_window reference_now) w := by
  obtain ⟨hnodup, hcount, hknown⟩ := window_keys w
  refine ⟨⟨by decide, plain_window_fields h, hnodup, hcount⟩, ?_⟩
  intro line htokens
  have hid := field_value htokens (text "id") rfl
  have hopens := field_value htokens (text "opens") rfl
  have hcloses := field_value htokens (text "closes") rfl
  rw [load_window, known_fields htokens hknown, Result.ok_bind, hid, Result.ok_bind, hopens,
    Result.ok_bind, hcloses, Result.ok_bind, expect_eq_ok.mpr (parse_u32_decimal h.id),
    Result.ok_bind, expect_eq_ok.mpr (parse_time_format_time h.opens_at reference_now),
    Result.ok_bind, expect_eq_ok.mpr (parse_time_format_time h.closes_at reference_now),
    Result.ok_bind,
    field_optional htokens rfl (expect_eq_ok.mpr (parse_duration_nanos h.min_lead_time)),
    Result.ok_bind,
    field_optional htokens rfl (expect_eq_ok.mpr (parse_duration_nanos h.abort_grace)),
    Result.ok_bind,
    field_optional htokens rfl (expect_eq_ok.mpr (parse_on_window_close_to_string w.on_close)),
    Result.ok_bind, load_window_targets h htokens, Result.ok_bind, field_name htokens rfl]

/-! ## Tiers, lifetimes and settings -/

structure PriorityTier.written (t : PriorityTier) : Prop where
  index : t.index < 4294967296
  name : Plain t.name

def tier_fields (t : PriorityTier) : List Token :=
  [⟨text "index", decimal t.index⟩, ⟨text "name", t.name⟩]

theorem render_tier_eq (t : PriorityTier) :
    render_tier t = record_text (text "tier") (tier_fields t) ++ [newline] := by
  rw [record_text_eq, tier_fields]
  simp only [List.flatMap_cons, List.flatMap_nil, List.append_nil, field_text_append]
  rw [render_tier,
    show text "tier index=" = text "tier" ++ (32 :: text "index" ++ [equals]) from rfl,
    show text " name=" = 32 :: text "name" ++ [equals] from rfl]
  simp only [List.append_assoc]

theorem tier_back {t : PriorityTier} (h : t.written) :
    ReadsBack (text "tier") (tier_fields t) load_tier t := by
  constructor
  · refine ⟨by decide, ?_, ?_, by simp [tier_fields]⟩
    · simp only [tier_fields, List.forall_mem_cons]
      refine ⟨plain_field (by decide) (plain_decimal _), plain_field (by decide) h.name, ?_⟩
      intro f hf
      cases hf
    · show [text "index", text "name"].Nodup
      decide
  · intro line htokens
    have hindex := field_value htokens (text "index") rfl
    rw [load_tier, known_fields htokens rfl, Result.ok_bind, hindex, Result.ok_bind,
      parse_u32_value_eq_ok.mpr (parse_u32_decimal h.index), Result.ok_bind, field_name htokens rfl]

theorem plain_evidence_kind (kind : EvidenceKind) : Plain kind.to_string := by
  cases kind <;> decide

theorem parse_evidence_kind_to_string (kind : EvidenceKind) :
    parse_evidence_kind kind.to_string = some kind := by
  cases kind <;> decide

def ttl_fields (e : EvidenceKind × Nanos) : List Token :=
  [⟨text "kind", e.1.to_string⟩, ⟨text "ttl", nanos_text e.2⟩]

theorem render_evidence_ttl_eq (e : EvidenceKind × Nanos) :
    render_evidence_ttl e = record_text (text "evidence_ttl") (ttl_fields e) ++ [newline] := by
  rw [record_text_eq, ttl_fields]
  simp only [List.flatMap_cons, List.flatMap_nil, List.append_nil, field_text_append]
  rw [render_evidence_ttl,
    show text "evidence_ttl kind=" =
    text "evidence_ttl" ++ (32 :: text "kind" ++ [equals]) from rfl,
    show text " ttl=" = 32 :: text "ttl" ++ [equals] from rfl]
  simp only [List.append_assoc]

theorem ttl_back {e : EvidenceKind × Nanos} (h : duration_range e.2) :
    ReadsBack (text "evidence_ttl") (ttl_fields e) load_evidence_ttl e := by
  constructor
  · refine ⟨by decide, ?_, ?_, by simp [ttl_fields]⟩
    · simp only [ttl_fields, List.forall_mem_cons]
      refine ⟨plain_field (by decide) (plain_evidence_kind _),
        plain_field (by decide) (plain_nanos h), ?_⟩
      intro f hf
      cases hf
    · show [text "kind", text "ttl"].Nodup
      decide
  · intro line htokens
    have hkind := field_value htokens (text "kind") rfl
    have httl := field_value htokens (text "ttl") rfl
    rw [load_evidence_ttl, known_fields htokens rfl, Result.ok_bind, hkind, Result.ok_bind, httl,
      Result.ok_bind, expect_eq_ok.mpr (parse_evidence_kind_to_string e.1), Result.ok_bind,
      expect_eq_ok.mpr (parse_duration_nanos h), Result.ok_bind]

def setting_fields (setting : Text × Text) : List Token :=
  [⟨text "key", setting.1⟩, ⟨text "value", setting.2⟩]

theorem render_setting_eq (setting : Text × Text) :
    render_setting setting =
      record_text (text "setting") (setting_fields setting) ++ [newline] := by
  rw [record_text_eq, setting_fields]
  simp only [List.flatMap_cons, List.flatMap_nil, List.append_nil, field_text_append]
  rw [render_setting,
    show text "setting key=" = text "setting" ++ (32 :: text "key" ++ [equals]) from rfl,
    show text " value=" = 32 :: text "value" ++ [equals] from rfl]
  simp only [List.append_assoc]

theorem setting_back {setting : Text × Text} (hkey : Plain setting.1) (hvalue : Plain setting.2) :
    ReadsBack (text "setting") (setting_fields setting) load_setting setting := by
  constructor
  · refine ⟨by decide, ?_, ?_, by simp [setting_fields]⟩
    · simp only [setting_fields, List.forall_mem_cons]
      refine ⟨plain_field (by decide) hkey, plain_field (by decide) hvalue, ?_⟩
      intro f hf
      cases hf
    · show [text "key", text "value"].Nodup
      decide
  · intro line htokens
    have hfirst := field_value htokens (text "key") rfl
    have hsecond := field_value htokens (text "value") rfl
    rw [load_setting, known_fields htokens rfl, Result.ok_bind, hfirst, Result.ok_bind, hsecond,
      Result.ok_bind]

/-! ## What a line loads as can be written -/

/-- A duration that is given or falls back on none. -/
theorem optional_duration {line : Line} {key message : Text} {v : Nanos}
    (h : optional_value line key 0 (fun value => expect line message (parse_duration_text value)) =
      .ok v) : duration_range v := by
  rcases optional_value_eq_ok h with rfl | ⟨value, hvalue⟩
  · exact ⟨le_refl 0, by decide⟩
  · exact duration_of_parse (expect_eq_ok.mp hvalue)

section

variable {line : Line} (hline : line.Plain)

include hline

theorem plain_named {fallback : Text} (hfallback : Plain fallback) : Plain (named line fallback) :=
  plain_name hline hfallback (text "name")

theorem written_redundancy {r : RedundancyRule} (h : load_redundancy line = .ok r) : r.written := by
  simp only [load_redundancy, Result.bind_eq_ok, expect_eq_ok, parse_u32_value_eq_ok,
    Except.ok.injEq] at h
  obtain ⟨_, _, _, _, _, _, _, _, viable, hviable, losses, hlosses, pool, hpool, rfl⟩ := h
  exact ⟨lt_of_parse_u32 hpool, lt_of_parse_u32 hviable, lt_of_parse_u32 hlosses,
    plain_named hline (by decide)⟩

theorem written_headroom {r : HeadroomRule} (h : load_headroom line = .ok r) : r.written := by
  simp only [load_headroom, Result.bind_eq_ok, expect_eq_ok, parse_u32_value_eq_ok,
    Except.ok.injEq] at h
  obtain ⟨_, _, _, _, _, _, reserve, hreserve, pool, hpool, rfl⟩ := h
  exact ⟨lt_of_parse_u32 hpool, lt_of_parse_u32 hreserve, plain_named hline (by decide)⟩

theorem written_domain_limit {r : DomainLimitRule} (h : load_domain_limit line = .ok r) :
    r.written := by
  simp only [load_domain_limit, Result.bind_eq_ok, expect_eq_ok, parse_u32_value_eq_ok,
    Except.ok.injEq] at h
  obtain ⟨_, _, _, _, _, _, max_out, hmax, domain, hdomain, rfl⟩ := h
  exact ⟨written_of_parse_domain hdomain, lt_of_parse_u32 hmax, plain_named hline (by decide)⟩

theorem written_contract {c : Contract} (h : load_contract line = .ok c) : c.written := by
  simp only [load_contract, Result.bind_eq_ok, expect_eq_ok, parse_u32_value_eq_ok,
    Except.ok.injEq] at h
  obtain ⟨_, _, _, _, _, _, _, _, members, hmembers, least, hleast, id, hid, _, _, rfl⟩ := h
  obtain ⟨hsome, hparsed⟩ := mem_parsed_list hmembers
  refine ⟨lt_of_parse_u32 hid, plain_named hline (by decide), hsome, ?_, lt_of_parse_u32 hleast⟩
  intro m hm
  obtain ⟨piece, hpiece⟩ := hparsed m hm
  exact written_of_parse_target hpiece

theorem written_window {reference_now : Nanos} {w : Window}
    (h : load_window reference_now line = .ok w) : w.written := by
  simp only [load_window, Result.bind_eq_ok, expect_eq_ok, Except.ok.injEq] at h
  obtain ⟨_, _, _, _, _, _, _, _, id, hid, opens, hopens, closes, hcloses, lead, hlead, grace,
    hgrace, _, _, targets, htargets, rfl⟩ := h
  refine ⟨lt_of_parse_u32 hid, plain_named hline (by decide), i64_of_parse_time hopens,
    i64_of_parse_time hcloses, optional_duration hlead, optional_duration hgrace, ?_⟩
  intro m hm
  rcases optional_value_eq_ok htargets with rfl | ⟨value, hvalue⟩
  · cases hm
  · obtain ⟨piece, hpiece⟩ := (mem_parsed_list hvalue).2 m hm
    exact written_of_parse_target hpiece

theorem written_tier {t : PriorityTier} (h : load_tier line = .ok t) : t.written := by
  simp only [load_tier, Result.bind_eq_ok, parse_u32_value_eq_ok, Except.ok.injEq] at h
  obtain ⟨_, _, _, _, index, hindex, rfl⟩ := h
  exact ⟨lt_of_parse_u32 hindex, plain_named hline (by decide)⟩

end

theorem written_ttl {line : Line} {e : EvidenceKind × Nanos} (h : load_evidence_ttl line = .ok e) :
    duration_range e.2 := by
  simp only [load_evidence_ttl, Result.bind_eq_ok, expect_eq_ok, Except.ok.injEq] at h
  obtain ⟨_, _, _, _, _, _, kind, _, ttl, httl, rfl⟩ := h
  exact duration_of_parse httl

end MaintenanceFabric
