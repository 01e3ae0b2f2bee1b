import MaintenanceFabric.Config.PolicyText
import MaintenanceFabric.Lib.Override

/-! # Which policy texts are accepted

    A text is accepted when each of its lines reads by itself, the rules pass
    their checks one by one, and every setting that no later line overrides
    would be accepted alone.  Nothing compares two lines with each other,
    except those of the priority tiers.
-/

namespace MaintenanceFabric

open Lib

/-! ## What the lines say -/

def redundancy_lines : List Line → List RedundancyRule :=
  records_of_kind (text "redundancy") load_redundancy

def headroom_lines : List Line → List HeadroomRule :=
  records_of_kind (text "headroom") load_headroom

def domain_limit_lines : List Line → List DomainLimitRule :=
  records_of_kind (text "domain_limit") load_domain_limit

def contract_lines : List Line → List Contract := records_of_kind (text "contract") load_contract

def window_lines (reference_now : Nanos) : List Line → List Window :=
  records_of_kind (text "window") (load_window reference_now)

def tier_lines : List Line → List PriorityTier := records_of_kind (text "tier") load_tier

def evidence_ttl_lines : List Line → List (EvidenceKind × Nanos) :=
  records_of_kind (text "evidence_ttl") load_evidence_ttl

def setting_lines : List Line → List (Text × Text) := records_of_kind (text "setting") load_setting

/-- The line reads, whatever stands around it. -/
def policy_line_reads (reference_now : Nanos) (line : Line) : Prop :=
  Status.isOk (load_policy_record reference_now {} line) = true

/-! ## Collecting them -/

/-- The draft with everything the lines say. -/
def PolicyDraft.filled (reference_now : Nanos) (d : PolicyDraft)
    (lines : List Line) : PolicyDraft :=
  { policy := { d.policy with
      redundancy := d.policy.redundancy ++ redundancy_lines lines
      headroom := d.policy.headroom ++ headroom_lines lines
      domain_limits := d.policy.domain_limits ++ domain_limit_lines lines
      contracts := d.policy.contracts ++ contract_lines lines
      windows := d.policy.windows ++ window_lines reference_now lines
      tiers := d.policy.tiers ++ tier_lines lines
      evidence_ttl := (evidence_ttl_lines lines).foldl Table.put d.policy.evidence_ttl }
    settings := (setting_lines lines).foldl Table.put d.settings
    stats := { d.stats with records := d.stats.records + lines.length } }

theorem PolicyDraft.filled_eq (reference_now : Nanos) (d : PolicyDraft) (lines : List Line) :
    d.filled reference_now lines =
      { policy := { d.policy with
          redundancy := d.policy.redundancy ++
            records_of_kind (text "redundancy") load_redundancy lines
          headroom := d.policy.headroom ++ records_of_kind (text "headroom") load_headroom lines
          domain_limits := d.policy.domain_limits ++
            records_of_kind (text "domain_limit") load_domain_limit lines
          contracts := d.policy.contracts ++ records_of_kind (text "contract") load_contract lines
          windows := d.policy.windows ++
            records_of_kind (text "window") (load_window reference_now) lines
          tiers := d.policy.tiers ++ records_of_kind (text "tier") load_tier lines
          evidence_ttl := (records_of_kind (text "evidence_ttl") load_evidence_ttl lines).foldl
            Table.put d.policy.evidence_ttl }
        settings := (records_of_kind (text "setting") load_setting lines).foldl Table.put d.settings
        stats := { d.stats with records := d.stats.records + lines.length } } := rfl

theorem PolicyDraft.filled_nil (reference_now : Nanos) (d : PolicyDraft) :
    d.filled reference_now [] = d := by
  simp [PolicyDraft.filled_eq, records_of_kind]

theorem PolicyDraft.filled_append (reference_now : Nanos) (d : PolicyDraft) (l m : List Line) :
    (d.filled reference_now l).filled reference_now m = d.filled reference_now (l ++ m) := by
  simp only [PolicyDraft.filled_eq, records_of_kind_append, List.append_assoc, List.foldl_append,
    List.length_append, Nat.add_assoc]

/-- A line of a kind fills the draft with its record. -/
theorem load_line_ok {α : Type} {reference_now : Nanos} {line : Line} (load : Line → Result α)
    (enter : PolicyDraft → α → PolicyDraft) {d d' : PolicyDraft}
    (hrecord : ∀ d, load_policy_record reference_now d line =
      (load line >>= fun a => .ok (enter d a)))
    (hfilled : ∀ d a, load line = .ok a → enter d a = d.filled reference_now [line]) :
    load_policy_record reference_now d line = .ok d' ↔
      policy_line_reads reference_now line ∧ d' = d.filled reference_now [line] := by
  unfold policy_line_reads
  rw [hrecord, hrecord]
  cases hload : load line with
  | error e =>
    constructor
    · intro h
      cases h
    · rintro ⟨h, -⟩
      cases h
  | ok a =>
    rw [Result.ok_bind, Result.ok_bind, hfilled d a hload, Except.ok.injEq]
    constructor
    · exact fun h => ⟨rfl, h.symm⟩
    · exact fun h => h.2.symm

theorem load_policy_record_ok {reference_now : Nanos} {line : Line} {d d' : PolicyDraft} :
    load_policy_record reference_now d line = .ok d' ↔
      policy_line_reads reference_now line ∧ d' = d.filled reference_now [line] := by
  by_cases hredundancy : line.kind = text "redundancy"
  · refine load_line_ok load_redundancy
      (fun d rule => d.grown { d.policy with redundancy := d.policy.redundancy ++ [rule] }) ?_ ?_
    · intro d
      simp +decide [load_policy_record, hredundancy]
    · intro d rule hload
      simp +decide [PolicyDraft.filled_eq, PolicyDraft.grown, records_of_kind, hredundancy, hload,
        Except.toOption]
  by_cases hheadroom : line.kind = text "headroom"
  · refine load_line_ok load_headroom
      (fun d rule => d.grown { d.policy with headroom := d.policy.headroom ++ [rule] }) ?_ ?_
    · intro d
      simp +decide [load_policy_record, hheadroom]
    · intro d rule hload
      simp +decide [PolicyDraft.filled_eq, PolicyDraft.grown, records_of_kind, hheadroom, hload,
        Except.toOption]
  by_cases hlimit : line.kind = text "domain_limit"
  · refine load_line_ok load_domain_limit
      (fun d rule => d.grown { d.policy with domain_limits := d.policy.domain_limits ++ [rule] })
      ?_ ?_
    · intro d
      simp +decide [load_policy_record, hlimit]
    · intro d rule hload
      simp +decide [PolicyDraft.filled_eq, PolicyDraft.grown, records_of_kind, hlimit, hload,
        Except.toOption]
  by_cases hcontract : line.kind = text "contract"
  · refine load_line_ok load_contract
      (fun d contract => d.grown { d.policy with contracts := d.policy.contracts ++ [contract] })
      ?_ ?_
    · intro d
      simp +decide [load_policy_record, hcontract]
    · intro d contract hload
      simp +decide [PolicyDraft.filled_eq, PolicyDraft.grown, records_of_kind, hcontract, hload,
        Except.toOption]
  by_cases hwindow : line.kind = text "window"
  · refine load_line_ok (load_window reference_now)
      (fun d window => d.grown { d.policy with windows := d.policy.windows ++ [window] }) ?_ ?_
    · intro d
      simp +decide [load_policy_record, hwindow]
    · intro d window hload
      simp +decide [PolicyDraft.filled_eq, PolicyDraft.grown, records_of_kind, hwindow, hload,
        Except.toOption]
  by_cases htier : line.kind = text "tier"
  · refine load_line_ok load_tier
      (fun d tier => d.grown { d.policy with tiers := d.policy.tiers ++ [tier] }) ?_ ?_
    · intro d
      simp +decide [load_policy_record, htier]
    · intro d tier hload
      simp +decide [PolicyDraft.filled_eq, PolicyDraft.grown, records_of_kind, htier, hload,
        Except.toOption]
  by_cases httl : line.kind = text "evidence_ttl"
  · refine load_line_ok load_evidence_ttl
      (fun d entry => d.grown { d.policy with evidence_ttl := d.policy.evidence_ttl.put entry })
      ?_ ?_
    · intro d
      simp +decide [load_policy_record, httl]
    · intro d entry hload
      simp +decide [PolicyDraft.filled_eq, PolicyDraft.grown, records_of_kind, httl, hload,
        Except.toOption]
  by_cases hsetting : line.kind = text "setting"
  · refine load_line_ok load_setting
      (fun d setting => d.set setting) ?_ ?_
    · intro d
      simp +decide [load_policy_record, hsetting]
    · intro d setting hload
      simp +decide [PolicyDraft.filled_eq, PolicyDraft.grown, PolicyDraft.set,
        records_of_kind, hsetting, hload,
        Except.toOption]
  -- No other kind is known.
  · constructor
    · intro h
      rw [load_policy_record] at h
      simp only [hredundancy, hheadroom, hlimit, hcontract, hwindow, htier, httl, hsetting,
        if_false] at h
      cases h
    · rintro ⟨h, -⟩
      rw [policy_line_reads, load_policy_record] at h
      simp only [hredundancy, hheadroom, hlimit, hcontract, hwindow, htier, httl, hsetting,
        if_false] at h
      cases h

/-- The lines all read, and together fill the draft. -/
theorem load_policy_lines_ok {reference_now : Nanos} {lines : List Line} {d d' : PolicyDraft} :
    lines.foldlM (load_policy_record reference_now) d = .ok d' ↔
      (∀ line ∈ lines, policy_line_reads reference_now line) ∧
        d' = d.filled reference_now lines := by
  induction lines generalizing d with
  | nil =>
    rw [PolicyDraft.filled_nil]
    constructor
    · intro h
      cases h
      exact ⟨List.forall_mem_nil _, rfl⟩
    · rintro ⟨-, rfl⟩
      rfl
  | cons line lines ih =>
    have hfilled : (d.filled reference_now [line]).filled reference_now lines =
        d.filled reference_now (line :: lines) := d.filled_append reference_now [line] lines
    simp only [List.foldlM_cons, Result.bind_eq_ok, load_policy_record_ok, ih,
      List.forall_mem_cons]
    constructor
    · rintro ⟨_, ⟨hline, rfl⟩, hlines, rfl⟩
      exact ⟨⟨hline, hlines⟩, hfilled⟩
    · rintro ⟨⟨hline, hlines⟩, rfl⟩
      exact ⟨_, ⟨hline, rfl⟩, hlines, hfilled.symm⟩

/-! ## Validation, rule by rule -/

namespace Policy

/-- What validation asks of the rules. -/
structure RulesHold (p : Policy) : Prop where
  redundancy_count : p.redundancy.length ≤ limits.kMaxRedundancyRules
  domain_limit_count : p.domain_limits.length ≤ limits.kMaxDomainLimitRules
  contract_count : p.contracts.length ≤ limits.kMaxContracts
  window_count : p.windows.length ≤ limits.kMaxWindowRules
  tier_count : p.tiers.length ≤ limits.kMaxPriorityTiers
  first_tier : p.tiers ≠ [] → 0 ∈ p.tiers.map PriorityTier.index
  redundancy : ∀ r ∈ p.redundancy, check_redundancy r = .ok ()
  domain_limits : ∀ r ∈ p.domain_limits, check_domain_limit r = .ok ()
  contracts : ∀ c ∈ p.contracts, check_contract c = .ok ()
  windows : ∀ w ∈ p.windows, check_window w = .ok ()
  evidence_ttl : ∀ e ∈ p.evidence_ttl.rows, check_ttl e = .ok ()
  tiers : (p.tiers.map PriorityTier.index).Nodup

/-- What it asks of the settings. -/
structure SettingsHold (p : Policy) : Prop where
  min_evidence_sources : ¬ (p.min_evidence_sources = 0 ∨
    p.min_evidence_sources > limits.kMaxEvidenceSourcesPerKey)
  max_precondition_age : ¬ (p.max_precondition_age ≤ 0 ∨
    p.max_precondition_age > limits.kMaxPreconditionAgeNanos)
  default_duration : ¬ p.default_duration ≤ 0
  max_concurrent_jobs : ¬ (p.max_concurrent_jobs = 0 ∨
    p.max_concurrent_jobs > limits.kMaxLiveReservations)
  authority_lease : ¬ (p.authority_lease < limits.kMinDrainLeaseNanos ∨
    p.authority_lease > limits.kMaxAuthorityLeaseNanos)
  drain_lease : ¬ (p.drain_lease < limits.kMinDrainLeaseNanos ∨
    p.drain_lease > limits.kMaxDrainLeaseNanos)
  max_drain_failures : p.max_drain_failures_before_block ≠ 0
  max_verification_attempts : p.max_verification_attempts ≠ 0
  max_restoration_attempts : p.max_restoration_attempts ≠ 0

theorem check_tiers_ok {seen : List Nat} {l : List PriorityTier} {u : Unit} :
    check_tiers seen l = .ok u ↔
      (l.map PriorityTier.index).Nodup ∧ ∀ t ∈ l, t.index ∉ seen := by
  induction l generalizing seen with
  | nil => simp [check_tiers, ok_status]
  | cons t l ih =>
    simp only [check_tiers, Result.bind_eq_ok, refuse_if_eq_ok, decide_eq_false_iff_not, ih,
      List.map_cons, List.nodup_cons, List.forall_mem_cons]
    constructor
    · rintro ⟨_, hseen, hnodup, hrest⟩
      refine ⟨⟨?_, hnodup⟩, hseen, fun x hx hmem => hrest x hx (List.mem_cons_of_mem _ hmem)⟩
      intro hmem
      obtain ⟨x, hx, hindex⟩ := List.mem_map.mp hmem
      exact hrest x hx (hindex ▸ List.mem_cons_self)
    · rintro ⟨⟨hfresh, hnodup⟩, hseen, hrest⟩
      refine ⟨(), hseen, hnodup, ?_⟩
      intro x hx hmem
      rcases List.mem_cons.mp hmem with hindex | hmem
      · exact hfresh (hindex ▸ List.mem_map_of_mem hx)
      · exact hrest x hx hmem

theorem first_tier_iff (p : Policy) :
    (!p.known_tier 0 && !p.tiers.isEmpty) = false ↔
      (p.tiers ≠ [] → 0 ∈ p.tiers.map PriorityTier.index) := by
  have hknown : p.known_tier 0 = true ↔ 0 ∈ p.tiers.map PriorityTier.index := by
    simp [known_tier]
  rw [← hknown]
  cases p.known_tier 0 <;> simp

theorem validate_iff {p : Policy} : p.validate = .ok () ↔ p.RulesHold ∧ p.SettingsHold := by
  simp only [validate, Result.bind_eq_ok, refuse_if_eq_ok, decide_eq_false_iff_not, Nat.not_lt,
    first_tier_iff, check_all_iff, check_tiers_ok]
  constructor
  · rintro ⟨_, h1, _, h2, _, h3, _, h4, _, h5, _, h6, _, h7, _, h8, _, h9, _, h10, _, h11,
      _, hretries, _, h12, _, h13, _, h14, _, h15, _, h16, _, h17, h18, _⟩
    obtain ⟨hdrain, hretries⟩ := not_or.mp hretries
    obtain ⟨hverify, hrestore⟩ := not_or.mp hretries
    exact ⟨⟨h1, h2, h3, h4, h5, h12, h13, h14, h15, h16, h17, h18⟩,
      ⟨h6, h7, h8, h9, h10, h11, hdrain, hverify, hrestore⟩⟩
  · rintro ⟨⟨h1, h2, h3, h4, h5, h12, h13, h14, h15, h16, h17, h18⟩,
      ⟨h6, h7, h8, h9, h10, h11, hdrain, hverify, hrestore⟩⟩
    have hretries := not_or.mpr ⟨hdrain, not_or.mpr ⟨hverify, hrestore⟩⟩
    exact ⟨(), h1, (), h2, (), h3, (), h4, (), h5, (), h6, (), h7, (), h8, (), h9, (), h10, (),
      h11, (), hretries, (), h12, (), h13, (), h14, (), h15, (), h16, (), h17, h18, by simp⟩

end Policy

/-! ## Settings -/

/-- A setting whose value has been read. -/
inductive Setting where
  | min_evidence_sources (n : Nat)
  | require_window (b : Bool)
  | max_precondition_age (v : Nanos)
  | default_duration (v : Nanos)
  | max_concurrent_jobs (n : Nat)
  | authority_lease (v : Nanos)
  | drain_lease (v : Nanos)
  | max_drain_failures (n : Nat)
  | max_verification_attempts (n : Nat)
  | max_restoration_attempts (n : Nat)

namespace Setting

def key : Setting → Text
  | .min_evidence_sources _ => text "min_evidence_sources"
  | .require_window _ => text "require_window"
  | .max_precondition_age _ => text "max_precondition_age"
  | .default_duration _ => text "default_duration"
  | .max_concurrent_jobs _ => text "max_concurrent_jobs"
  | .authority_lease _ => text "authority_lease"
  | .drain_lease _ => text "drain_lease"
  | .max_drain_failures _ => text "max_drain_failures"
  | .max_verification_attempts _ => text "max_verification_attempts"
  | .max_restoration_attempts _ => text "max_restoration_attempts"

/-- The policy with the setting. -/
def put (p : Policy) : Setting → Policy
  | .min_evidence_sources n => { p with min_evidence_sources := n }
  | .require_window b => { p with require_window := b }
  | .max_precondition_age v => { p with max_precondition_age := v }
  | .default_duration v => { p with default_duration := v }
  | .max_concurrent_jobs n => { p with max_concurrent_jobs := n }
  | .authority_lease v => { p with authority_lease := v }
  | .drain_lease v => { p with drain_lease := v }
  | .max_drain_failures n => { p with max_drain_failures_before_block := n }
  | .max_verification_attempts n => { p with max_verification_attempts := n }
  | .max_restoration_attempts n => { p with max_restoration_attempts := n }

/-- Settings with different keys do not touch each other. -/
theorem put_comm {s s' : Setting} (h : s.key ≠ s'.key) (p : Policy) :
    put (put p s) s' = put (put p s') s := by
  cases s <;> cases s' <;> first
    | rfl
    | exact absurd rfl h

theorem default_settings_hold : ({} : Policy).SettingsHold := by
  constructor <;> decide

/-- Whether a setting is in range does not depend on the other settings. -/
theorem holds_put {s : Setting} {p q : Policy} (hs : (put p s).SettingsHold)
    (hq : q.SettingsHold) : (put q s).SettingsHold := by
  cases s with
  | min_evidence_sources n => exact { hq with min_evidence_sources := hs.min_evidence_sources }
  | require_window b => exact { hq with }
  | max_precondition_age v => exact { hq with max_precondition_age := hs.max_precondition_age }
  | default_duration v => exact { hq with default_duration := hs.default_duration }
  | max_concurrent_jobs n => exact { hq with max_concurrent_jobs := hs.max_concurrent_jobs }
  | authority_lease v => exact { hq with authority_lease := hs.authority_lease }
  | drain_lease v => exact { hq with drain_lease := hs.drain_lease }
  | max_drain_failures n => exact { hq with max_drain_failures := hs.max_drain_failures }
  | max_verification_attempts n =>
    exact { hq with max_verification_attempts := hs.max_verification_attempts }
  | max_restoration_attempts n =>
    exact { hq with max_restoration_attempts := hs.max_restoration_attempts }

theorem rules_hold_put {s : Setting} {p : Policy} : (put p s).RulesHold ↔ p.RulesHold := by
  cases s <;> exact ⟨fun h => { h with }, fun h => { h with }⟩

end Setting

/-- The pair is a setting for every policy, or refused by every policy. -/
def SettingOrRefused (pair : Text × Text) : Prop :=
  (∃ s : Setting, s.key = pair.1 ∧ ∀ p, apply_setting p pair = .ok (s.put p)) ∨
    ∀ p q, apply_setting p pair ≠ .ok q

theorem number_setting_cases {key value : Text} (setting : Nat → Setting)
    (hkey : ∀ n, (setting n).key = key)
    (happly : ∀ p, apply_setting p (key, value) =
      number_setting key value (fun n => (setting n).put p)) : SettingOrRefused (key, value) := by
  cases hparse : parse_u32 value with
  | none =>
    refine .inr fun p q h => ?_
    rw [happly, number_setting, hparse] at h
    cases h
  | some n => exact .inl ⟨setting n, hkey n, fun p => by rw [happly, number_setting, hparse]⟩

theorem duration_setting_cases {key value : Text} (setting : Nanos → Setting)
    (hkey : ∀ v, (setting v).key = key)
    (happly : ∀ p, apply_setting p (key, value) =
      duration_setting key value (fun v => (setting v).put p)) : SettingOrRefused (key, value) := by
  cases hparse : parse_duration_text value with
  | none =>
    refine .inr fun p q h => ?_
    rw [happly, duration_setting, hparse] at h
    cases h
  | some v => exact .inl ⟨setting v, hkey v, fun p => by rw [happly, duration_setting, hparse]⟩

theorem bool_setting_cases (value : Text) : SettingOrRefused (text "require_window", value) := by
  have happly : ∀ p, apply_setting p (text "require_window", value) =
      if value = text "true" ∨ value = text "1" then .ok { p with require_window := true }
      else if value = text "false" ∨ value = text "0" then .ok { p with require_window := false }
      else .error (make_error .InvalidArgument (text "require_window is not a boolean")) :=
    fun _ => rfl
  by_cases htrue : value = text "true" ∨ value = text "1"
  · exact .inl ⟨.require_window true, rfl, fun p => by rw [happly, if_pos htrue]; rfl⟩
  · by_cases hfalse : value = text "false" ∨ value = text "0"
    · exact .inl ⟨.require_window false, rfl, fun p => by
        rw [happly, if_neg htrue, if_pos hfalse]; rfl⟩
    · refine .inr fun p q h => ?_
      rw [happly, if_neg htrue, if_neg hfalse] at h
      cases h

theorem setting_or_refused (pair : Text × Text) : SettingOrRefused pair := by
  obtain ⟨key, value⟩ := pair
  -- A key of the source is a setting, whatever its value; any other key is refused.
  by_cases hsources : key = text "min_evidence_sources"
  · subst hsources
    exact number_setting_cases .min_evidence_sources (fun _ => rfl) (fun _ => rfl)
  by_cases hwindow : key = text "require_window"
  · subst hwindow
    exact bool_setting_cases value
  by_cases hage : key = text "max_precondition_age"
  · subst hage
    exact duration_setting_cases .max_precondition_age (fun _ => rfl) (fun _ => rfl)
  by_cases hduration : key = text "default_duration"
  · subst hduration
    exact duration_setting_cases .default_duration (fun _ => rfl) (fun _ => rfl)
  by_cases hjobs : key = text "max_concurrent_jobs"
  · subst hjobs
    exact number_setting_cases .max_concurrent_jobs (fun _ => rfl) (fun _ => rfl)
  by_cases hauthority : key = text "authority_lease"
  · subst hauthority
    exact duration_setting_cases .authority_lease (fun _ => rfl) (fun _ => rfl)
  by_cases hdrain : key = text "drain_lease"
  · subst hdrain
    exact duration_setting_cases .drain_lease (fun _ => rfl) (fun _ => rfl)
  by_cases hfailures : key = text "max_drain_failures"
  · subst hfailures
    exact number_setting_cases .max_drain_failures (fun _ => rfl) (fun _ => rfl)
  by_cases hverify : key = text "max_verification_attempts"
  · subst hverify
    exact number_setting_cases .max_verification_attempts (fun _ => rfl) (fun _ => rfl)
  by_cases hrestore : key = text "max_restoration_attempts"
  · subst hrestore
    exact number_setting_cases .max_restoration_attempts (fun _ => rfl) (fun _ => rfl)
  · refine .inr fun p q h => ?_
    simp only [apply_setting, hsources, hwindow, hage, hduration, hjobs, hauthority, hdrain,
      hfailures, hverify, hrestore, if_false] at h
    cases h

/-- With nothing else set, the pair makes a valid policy. -/
def setting_alone (pair : Text × Text) : Prop :=
  ∃ q, apply_setting {} pair = .ok q ∧ q.validate = .ok ()

theorem setting_alone_iff {pair : Text × Text} {s : Setting}
    (h : ∀ p, apply_setting p pair = .ok (s.put p)) :
    setting_alone pair ↔ (s.put {}).SettingsHold := by
  have hrules : (s.put {}).RulesHold := Setting.rules_hold_put.mpr (by constructor <;> decide)
  unfold setting_alone
  simp only [h, Policy.validate_iff]
  constructor
  · rintro ⟨q, hq, -, hholds⟩
    cases hq
    exact hholds
  · exact fun hholds => ⟨_, rfl, hrules, hholds⟩

/-- A setting that succeeds is put. -/
theorem apply_setting_ok {pair : Text × Text} {p q : Policy} (h : apply_setting p pair = .ok q) :
    ∃ s : Setting, s.key = pair.1 ∧ q = s.put p ∧
      (setting_alone pair ↔ (s.put {}).SettingsHold) := by
  rcases setting_or_refused pair with ⟨s, hkey, hput⟩ | hrefused
  · rw [hput] at h
    cases h
    exact ⟨s, hkey, rfl, setting_alone_iff hput⟩
  · exact absurd h (hrefused p q)

theorem settings_keep_rules {rows : List (Text × Text)} {p q : Policy}
    (h : rows.foldlM apply_setting p = .ok q) : q.RulesHold ↔ p.RulesHold := by
  induction rows generalizing p with
  | nil =>
    cases h
    rfl
  | cons pair rows ih =>
    rw [List.foldlM_cons, Result.bind_eq_ok] at h
    obtain ⟨next, hnext, hrest⟩ := h
    obtain ⟨s, _, rfl, _⟩ := apply_setting_ok hnext
    rw [ih hrest, Setting.rules_hold_put]

/-- Other settings leave one where it is. -/
theorem setting_last {rows : List (Text × Text)} {s : Setting} {p q : Policy}
    (hkeys : ∀ pair ∈ rows, s.key ≠ pair.1) (h : rows.foldlM apply_setting (s.put p) = .ok q) :
    ∃ before, q = s.put before := by
  induction rows generalizing p with
  | nil =>
    cases h
    exact ⟨p, rfl⟩
  | cons pair rows ih =>
    rw [List.foldlM_cons, Result.bind_eq_ok] at h
    obtain ⟨next, hnext, hrest⟩ := h
    obtain ⟨s', hkey, rfl, _⟩ := apply_setting_ok hnext
    rw [List.forall_mem_cons, ← hkey] at hkeys
    rw [Setting.put_comm hkeys.1] at hrest
    exact ih hkeys.2 hrest

/-- Whatever ends up in range is in range alone. -/
theorem alone_of_settings {rows : List (Text × Text)}
    (hrows : rows.Pairwise (fun a b => a.1 ≠ b.1)) {p q : Policy}
    (h : rows.foldlM apply_setting p = .ok q) (hq : q.SettingsHold) :
    ∀ pair ∈ rows, setting_alone pair := by
  induction rows generalizing p with
  | nil => exact List.forall_mem_nil _
  | cons pair rows ih =>
    obtain ⟨hkeys, hrows⟩ := List.pairwise_cons.mp hrows
    rw [List.foldlM_cons, Result.bind_eq_ok] at h
    obtain ⟨next, hnext, hrest⟩ := h
    obtain ⟨s, hkey, rfl, halone⟩ := apply_setting_ok hnext
    obtain ⟨before, rfl⟩ := setting_last (hkey ▸ hkeys) hrest
    refine List.forall_mem_cons.mpr ⟨halone.mpr ?_, ih hrows hrest⟩
    exact Setting.holds_put hq Setting.default_settings_hold

theorem settings_of_alone {rows : List (Text × Text)} (h : ∀ pair ∈ rows, setting_alone pair)
    {p : Policy} (hp : p.SettingsHold) :
    ∃ q, rows.foldlM apply_setting p = .ok q ∧ q.SettingsHold := by
  induction rows generalizing p with
  | nil => exact ⟨p, rfl, hp⟩
  | cons pair rows ih =>
    rw [List.forall_mem_cons] at h
    rcases setting_or_refused pair with ⟨s, _, hput⟩ | hrefused
    · have hs := (setting_alone_iff hput).mp h.1
      obtain ⟨q, hq, hholds⟩ := ih h.2 (Setting.holds_put hs hp)
      refine ⟨q, ?_, hholds⟩
      rw [List.foldlM_cons, hput]
      exact hq
    · obtain ⟨q, hq, -⟩ := h.1
      exact absurd hq (hrefused {} q)

/-- Settings under different keys are accepted together when each is alone. -/
theorem settings_accepted_iff {rows : List (Text × Text)}
    (hrows : rows.Pairwise (fun a b => a.1 ≠ b.1)) {p : Policy} (hp : p.SettingsHold) :
    (∃ q, rows.foldlM apply_setting p = .ok q ∧ q.validate = .ok ()) ↔
      p.RulesHold ∧ ∀ pair ∈ rows, setting_alone pair := by
  simp only [Policy.validate_iff]
  constructor
  · rintro ⟨q, hq, hrules, hholds⟩
    exact ⟨(settings_keep_rules hq).mp hrules, alone_of_settings hrows hq hholds⟩
  · rintro ⟨hrules, halone⟩
    obtain ⟨q, hq, hholds⟩ := settings_of_alone halone hp
    exact ⟨q, hq, (settings_keep_rules hq).mpr hrules, hholds⟩

/-! ## Accepted texts -/

/-- What loading asks of the lines of a policy. -/
structure PolicyLinesHold (reference_now : Nanos) (lines : List Line) : Prop where
  reads : ∀ line ∈ lines, policy_line_reads reference_now line
  redundancy_count : (redundancy_lines lines).length ≤ limits.kMaxRedundancyRules
  domain_limit_count : (domain_limit_lines lines).length ≤ limits.kMaxDomainLimitRules
  contract_count : (contract_lines lines).length ≤ limits.kMaxContracts
  window_count : (window_lines reference_now lines).length ≤ limits.kMaxWindowRules
  tier_count : (tier_lines lines).length ≤ limits.kMaxPriorityTiers
  first_tier : tier_lines lines ≠ [] → 0 ∈ (tier_lines lines).map PriorityTier.index
  redundancy : ∀ r ∈ redundancy_lines lines, Policy.check_redundancy r = .ok ()
  domain_limits : ∀ r ∈ domain_limit_lines lines, Policy.check_domain_limit r = .ok ()
  contracts : ∀ c ∈ contract_lines lines, Policy.check_contract c = .ok ()
  windows : ∀ w ∈ window_lines reference_now lines, Policy.check_window w = .ok ()
  evidence_ttl : ∀ e, Stands Prod.fst (evidence_ttl_lines lines) e → Policy.check_ttl e = .ok ()
  tiers : ((tier_lines lines).map PriorityTier.index).Nodup
  settings : ∀ pair, Stands Prod.fst (setting_lines lines) pair → setting_alone pair

theorem setting_key_eq_iff {a b : Text × Text} : setting_key a = setting_key b ↔ a.1 = b.1 :=
  (List.map_injective_iff.mpr fun _ _ => UInt8.toNat_inj.mp).eq_iff

theorem filled_settings (l : List (Text × Text)) :
    (l.foldl Table.put (Table.empty : Table setting_key)).rows.Pairwise (fun a b => a.1 ≠ b.1) ∧
      ∀ pair, pair ∈ (l.foldl Table.put (Table.empty : Table setting_key)).rows ↔
        Stands Prod.fst l pair := by
  constructor
  · refine (Table.sorted _).imp fun hlt heq => ?_
    exact hlt.ne (setting_key_eq_iff.mpr heq)
  · intro pair
    rw [Table.mem_foldl_put]
    simp only [Stands, ne_eq, setting_key_eq_iff]

theorem load_policy_text_accepts_iff {t : Text} {reference_now : Nanos} :
    (∃ p stats, load_policy_text t reference_now = .ok (p, stats)) ↔
      ∃ lines, tokenize t = .ok lines ∧ PolicyLinesHold reference_now lines := by
  -- Past the tokens, the rules and the settings that stand are looked at.
  have hfilled : ∀ lines stats,
      (∃ q, (PolicyDraft.filled reference_now { stats } lines).settings.rows.foldlM apply_setting
        (PolicyDraft.filled reference_now { stats } lines).policy = .ok q ∧ q.validate = .ok ()) ↔
      (PolicyDraft.filled reference_now { stats } lines).policy.RulesHold ∧
        ∀ pair, Stands Prod.fst (setting_lines lines) pair → setting_alone pair := by
    intro lines stats
    obtain ⟨hdistinct, hmem⟩ := filled_settings (setting_lines lines)
    have hholds : (PolicyDraft.filled reference_now { stats } lines).policy.SettingsHold :=
      { Setting.default_settings_hold with }
    refine (settings_accepted_iff hdistinct hholds).trans (and_congr_right fun _ => ?_)
    exact forall_congr' fun pair => by rw [← hmem]
  simp only [load_policy_text, Result.bind_eq_ok, load_policy_lines_ok]
  constructor
  · rintro ⟨p, stats, lines, hlines, _, ⟨hreads, rfl⟩, q, hq, _, hvalid, hok⟩
    obtain ⟨hrules, hsettings⟩ := (hfilled lines _).mp ⟨q, hq, hvalid⟩
    have httl : ∀ e, Stands Prod.fst (evidence_ttl_lines lines) e → Policy.check_ttl e = .ok () :=
      fun e he => hrules.evidence_ttl e (Table.mem_foldl_put.mpr he)
    exact ⟨lines, hlines, { hrules with
      reads := hreads, evidence_ttl := httl, settings := hsettings }⟩
  · rintro ⟨lines, hlines, h⟩
    have hrules : (PolicyDraft.filled reference_now { stats := { lines := lines.length } }
        lines).policy.RulesHold :=
      { h with evidence_ttl := fun e he => h.evidence_ttl e (Table.mem_foldl_put.mp he) }
    obtain ⟨q, hq, hvalid⟩ := (hfilled lines _).mpr ⟨hrules, h.settings⟩
    exact ⟨q, _, lines, hlines, _, ⟨h.reads, rfl⟩, q, hq, (), hvalid, rfl⟩

end MaintenanceFabric
