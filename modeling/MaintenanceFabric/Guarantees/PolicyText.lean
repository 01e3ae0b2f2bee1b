import MaintenanceFabric.Config.PolicyLines

/-! # Policy text, there and back

    A policy that was loaded is valid and made of values that can be written.
    Its text loads as the same policy but for one field: a contract's demand
    for fresh evidence is not written, and a contract without it is read as one
    that demands it.
-/

namespace MaintenanceFabric

open Lib

/-! ## Running over rendered lines -/

/-- The records, on lines of their own, take the loader from `before` to `after`. -/
def Fills (reference_now : Nanos) (records : List (Text × List Token))
    (before after : Policy × Table setting_key) : Prop :=
  ∀ number stats, ∃ stats', (numbered number records).foldlM (load_policy_record reference_now)
    { policy := before.1, settings := before.2, stats } =
      .ok { policy := after.1, settings := after.2, stats := stats' }

theorem Fills.append {reference_now : Nanos} {first second : List (Text × List Token)}
    {a b c : Policy × Table setting_key} (h1 : Fills reference_now first a b)
    (h2 : Fills reference_now second b c) : Fills reference_now (first ++ second) a c := by
  intro number stats
  obtain ⟨stats1, hfirst⟩ := h1 number stats
  obtain ⟨stats2, hsecond⟩ := h2 (number + first.length) stats1
  refine ⟨stats2, ?_⟩
  rw [numbered_append, List.foldlM_append, hfirst]
  exact hsecond

/-- Records of one kind, each of which grows the policy. -/
theorem fills_section {α : Type} {reference_now : Nanos} {kind : Text} {fields : α → List Token}
    {push : Policy → α → Policy} {l : List α}
    (h : ∀ a ∈ l, ∀ number d, load_policy_record reference_now d ⟨number, kind, fields a⟩ =
      .ok (PolicyDraft.grown d (push d.policy a))) (p : Policy) (settings : Table setting_key) :
    Fills reference_now (l.map (fun a => (kind, fields a))) (p, settings)
      (l.foldl push p, settings) := by
  induction l generalizing p with
  | nil =>
    intro number stats
    exact ⟨stats, rfl⟩
  | cons a l ih =>
    intro number stats
    have hone := h a List.mem_cons_self number { policy := p, settings, stats }
    obtain ⟨stats', hrest⟩ := ih (fun x hx => h x (List.mem_cons_of_mem _ hx)) (push p a)
      (number + 1) { stats with records := stats.records + 1 }
    refine ⟨stats', ?_⟩
    rw [List.map_cons, numbered, List.foldlM_cons, hone]
    exact hrest

theorem fills_settings {reference_now : Nanos} {l : List (Text × Text)}
    (h : ∀ s ∈ l, Plain s.1 ∧ Plain s.2) (p : Policy) (settings : Table setting_key) :
    Fills reference_now (l.map (fun s => (text "setting", setting_fields s))) (p, settings)
      (p, l.foldl Table.put settings) := by
  induction l generalizing settings with
  | nil =>
    intro number stats
    exact ⟨stats, rfl⟩
  | cons s l ih =>
    intro number stats
    obtain ⟨hkey, hvalue⟩ := h s List.mem_cons_self
    have hload := (setting_back hkey hvalue).load ⟨number, text "setting", setting_fields s⟩ rfl
    have hone : load_policy_record reference_now { policy := p, settings, stats }
        ⟨number, text "setting", setting_fields s⟩ =
          .ok (PolicyDraft.set { policy := p, settings, stats } s) := by
      have hdispatch : load_policy_record reference_now { policy := p, settings, stats }
          ⟨number, text "setting", setting_fields s⟩ =
            (do let setting ← load_setting ⟨number, text "setting", setting_fields s⟩
                .ok (PolicyDraft.set { policy := p, settings, stats } setting)) := rfl
      rw [hdispatch, hload, Result.ok_bind]
    obtain ⟨stats', hrest⟩ := ih (fun x hx => h x (List.mem_cons_of_mem _ hx)) (settings.put s)
      (number + 1) { stats with records := stats.records + 1 }
    refine ⟨stats', ?_⟩
    rw [List.map_cons, numbered, List.foldlM_cons, hone]
    exact hrest

/-- A field of a record that holds a list. -/
structure ListField (σ α : Type) where
  get : σ → List α
  set : σ → List α → σ
  get_set : ∀ s l, get (set s l) = l
  set_set : ∀ s l l', set (set s l) l' = set s l'
  set_get : ∀ s, set s (get s) = s

/-- Pushing the images of a list one after the other appends them. -/
theorem ListField.foldl_push {σ α : Type} (field : ListField σ α) (image : α → α) (l : List α)
    (s : σ) :
    l.foldl (fun s a => field.set s (field.get s ++ [image a])) s =
      field.set s (field.get s ++ l.map image) := by
  induction l generalizing s with
  | nil => rw [List.map_nil, List.append_nil, field.set_get, List.foldl_nil]
  | cons a l ih =>
    rw [List.foldl_cons, ih, field.get_set, field.set_set, List.map_cons, List.append_assoc,
      List.singleton_append]

/-- Records of one kind that go to a list field are appended to it. -/
theorem fills_list {α : Type} (field : ListField Policy α) (image : α → α) {reference_now : Nanos}
    {kind : Text} {fields : α → List Token} {load : Line → Result α} {l : List α}
    (hdispatch : ∀ number tokens d, load_policy_record reference_now d ⟨number, kind, tokens⟩ =
      (do let a ← load ⟨number, kind, tokens⟩
          .ok (PolicyDraft.grown d (field.set d.policy (field.get d.policy ++ [a])))))
    (hback : ∀ a ∈ l, ReadsBack kind (fields a) load (image a)) (p : Policy)
    (settings : Table setting_key) :
    Fills reference_now (l.map (fun a => (kind, fields a))) (p, settings)
      (field.set p (field.get p ++ l.map image), settings) := by
  rw [← field.foldl_push]
  refine fills_section ?_ p settings
  intro a ha number d
  rw [hdispatch, (hback a ha).load _ rfl, Result.ok_bind]

namespace Policy

def redundancy_list : ListField Policy RedundancyRule :=
  ⟨Policy.redundancy, fun p l => { p with redundancy := l }, fun _ _ => rfl, fun _ _ _ => rfl,
    fun _ => rfl⟩

def headroom_list : ListField Policy HeadroomRule :=
  ⟨Policy.headroom, fun p l => { p with headroom := l }, fun _ _ => rfl, fun _ _ _ => rfl,
    fun _ => rfl⟩

def domain_limit_list : ListField Policy DomainLimitRule :=
  ⟨Policy.domain_limits, fun p l => { p with domain_limits := l }, fun _ _ => rfl,
    fun _ _ _ => rfl, fun _ => rfl⟩

def contract_list : ListField Policy Contract :=
  ⟨Policy.contracts, fun p l => { p with contracts := l }, fun _ _ => rfl, fun _ _ _ => rfl,
    fun _ => rfl⟩

def window_list : ListField Policy Window :=
  ⟨Policy.windows, fun p l => { p with windows := l }, fun _ _ => rfl, fun _ _ _ => rfl,
    fun _ => rfl⟩

def tier_list : ListField Policy PriorityTier :=
  ⟨Policy.tiers, fun p l => { p with tiers := l }, fun _ _ => rfl, fun _ _ _ => rfl,
    fun _ => rfl⟩

end Policy

theorem fills_ttl (reference_now : Nanos) {l : List (EvidenceKind × Nanos)}
    (h : ∀ e ∈ l, duration_range e.2) (p : Policy) (settings : Table setting_key) :
    Fills reference_now (l.map (fun e => (text "evidence_ttl", ttl_fields e))) (p, settings)
      ({ p with evidence_ttl := l.foldl Table.put p.evidence_ttl }, settings) := by
  have hfold : ∀ (l : List (EvidenceKind × Nanos)) (p : Policy),
      l.foldl (fun p e => { p with evidence_ttl := p.evidence_ttl.put e }) p =
        { p with evidence_ttl := l.foldl Table.put p.evidence_ttl } := by
    intro l
    induction l with
    | nil =>
      intro p
      rfl
    | cons e l ih =>
      intro p
      rw [List.foldl_cons, ih, List.foldl_cons]
  rw [← hfold]
  refine fills_section ?_ p settings
  intro e he number d
  have hload := (ttl_back (h e he)).load ⟨number, text "evidence_ttl", ttl_fields e⟩ rfl
  have hdispatch : load_policy_record reference_now d ⟨number, text "evidence_ttl", ttl_fields e⟩ =
      (do let entry ← load_evidence_ttl ⟨number, text "evidence_ttl", ttl_fields e⟩
          .ok (PolicyDraft.grown d
            { d.policy with evidence_ttl := d.policy.evidence_ttl.put entry })) := rfl
  rw [hdispatch, hload, Result.ok_bind]

/-! ## What was loaded can be written -/

/-- A policy made of values that its text can hold. -/
structure Policy.Written (p : Policy) : Prop where
  redundancy : ∀ r ∈ p.redundancy, r.written
  domain_limits : ∀ r ∈ p.domain_limits, r.written
  headroom : ∀ r ∈ p.headroom, r.written
  contracts : ∀ c ∈ p.contracts, c.written
  windows : ∀ w ∈ p.windows, w.written
  tiers : ∀ t ∈ p.tiers, t.written
  evidence_ttl : ∀ e ∈ p.evidence_ttl.rows, duration_range e.2
  min_evidence_sources : p.min_evidence_sources < 4294967296
  max_precondition_age : duration_range p.max_precondition_age
  default_duration : duration_range p.default_duration
  max_concurrent_jobs : p.max_concurrent_jobs < 4294967296
  authority_lease : duration_range p.authority_lease
  drain_lease : duration_range p.drain_lease
  max_drain_failures : p.max_drain_failures_before_block < 4294967296
  max_verification_attempts : p.max_verification_attempts < 4294967296
  max_restoration_attempts : p.max_restoration_attempts < 4294967296
  revision : p.revision = ⟨0⟩

/-- The records of a policy, in the order they are rendered. -/
def policy_records (p : Policy) : List (Text × List Token) :=
  p.evidence_ttl.rows.map (fun e => (text "evidence_ttl", ttl_fields e)) ++
    p.redundancy.map (fun r => (text "redundancy", redundancy_fields r)) ++
    p.headroom.map (fun r => (text "headroom", headroom_fields r)) ++
    p.domain_limits.map (fun r => (text "domain_limit", domain_limit_fields r)) ++
    p.contracts.map (fun c => (text "contract", contract_fields c)) ++
    p.windows.map (fun w => (text "window", window_fields w)) ++
    p.tiers.map (fun t => (text "tier", tier_fields t)) ++
    (policy_settings p).map (fun s => (text "setting", setting_fields s))

theorem render_policy_eq (p : Policy) : render_policy p = records_text (policy_records p) := by
  rw [render_policy, records_text, policy_records, funext render_evidence_ttl_eq,
    funext render_redundancy_eq, funext render_headroom_eq, funext render_domain_limit_eq,
    funext render_contract_eq, funext render_window_eq, funext render_tier_eq,
    funext render_setting_eq]
  simp only [List.flatMap_append, List.flatMap_map]

theorem plain_settings {p : Policy} (h : p.Written) :
    ∀ s ∈ policy_settings p, Plain s.1 ∧ Plain s.2 := by
  simp only [policy_settings, List.forall_mem_cons]
  refine ⟨⟨by decide, plain_decimal _⟩, ⟨by decide, plain_bool _⟩,
    ⟨by decide, plain_nanos h.max_precondition_age⟩, ⟨by decide, plain_nanos h.default_duration⟩,
    ⟨by decide, plain_decimal _⟩, ⟨by decide, plain_nanos h.authority_lease⟩,
    ⟨by decide, plain_nanos h.drain_lease⟩, ⟨by decide, plain_decimal _⟩,
    ⟨by decide, plain_decimal _⟩, ⟨by decide, plain_decimal _⟩, ?_⟩
  intro s hs
  cases hs

theorem plain_policy_records {p : Policy} (h : p.Written) :
    ∀ r ∈ policy_records p, PlainRecord r.1 r.2 := by
  simp only [policy_records, List.forall_mem_append, List.forall_mem_map]
  refine ⟨⟨⟨⟨⟨⟨⟨?_, ?_⟩, ?_⟩, ?_⟩, ?_⟩, ?_⟩, ?_⟩, ?_⟩
  · intro e he
    exact (ttl_back (h.evidence_ttl e he)).record
  · intro r hr
    exact (redundancy_back (h.redundancy r hr)).record
  · intro r hr
    exact (headroom_back (h.headroom r hr)).record
  · intro r hr
    exact (domain_limit_back (h.domain_limits r hr)).record
  · intro c hc
    exact (contract_back (h.contracts c hc)).record
  · intro w hw
    exact (window_back (h.windows w hw) 0).record
  · intro t ht
    exact (tier_back (h.tiers t ht)).record
  · intro s hs
    obtain ⟨hkey, hvalue⟩ := plain_settings h s hs
    exact (setting_back hkey hvalue).record

/-! ## Loading a rendered policy -/

/-- The policy that the text of a policy stands for. -/
def Policy.rendered (p : Policy) : Policy :=
  { p with contracts := p.contracts.map Contract.rendered }

/-- The rules of a policy, before its settings are applied. -/
def Policy.ruled (p : Policy) : Policy :=
  { redundancy := p.redundancy, domain_limits := p.domain_limits, headroom := p.headroom,
    contracts := p.contracts.map Contract.rendered, windows := p.windows, tiers := p.tiers,
    evidence_ttl := p.evidence_ttl }

theorem fills_policy {p : Policy} (h : p.Written) (reference_now : Nanos) :
    Fills reference_now (policy_records p) ({}, Table.empty)
      (p.ruled, (policy_settings p).foldl Table.put Table.empty) := by
  have httl := fills_ttl reference_now h.evidence_ttl {} Table.empty
  have hempty : ({} : Policy).evidence_ttl = Table.empty := rfl
  rw [hempty, Table.foldl_put_rows] at httl
  have hredundancy := httl.append (fills_list Policy.redundancy_list id
    (fun _ _ _ => rfl) (fun r hr => redundancy_back (h.redundancy r hr)) _ _)
  have hheadroom := hredundancy.append (fills_list Policy.headroom_list id
    (fun _ _ _ => rfl) (fun r hr => headroom_back (h.headroom r hr)) _ _)
  have hlimits := hheadroom.append (fills_list Policy.domain_limit_list id
    (fun _ _ _ => rfl) (fun r hr => domain_limit_back (h.domain_limits r hr)) _ _)
  have hcontracts := hlimits.append (fills_list Policy.contract_list Contract.rendered
    (fun _ _ _ => rfl) (fun c hc => contract_back (h.contracts c hc)) _ _)
  have hwindows := hcontracts.append (fills_list Policy.window_list id
    (fun _ _ _ => rfl) (fun w hw => window_back (h.windows w hw) reference_now) _ _)
  have htiers := hwindows.append (fills_list Policy.tier_list id
    (fun _ _ _ => rfl) (fun t ht => tier_back (h.tiers t ht)) _ _)
  have hsettings := htiers.append (fills_settings (plain_settings h) _ _)
  simp only [List.map_id] at hsettings
  exact hsettings

/-- The settings in the order of their keys. -/
theorem setting_rows (p : Policy) :
    ((policy_settings p).foldl Table.put (Table.empty : Table setting_key)).rows =
      [(text "authority_lease", nanos_text p.authority_lease),
       (text "default_duration", nanos_text p.default_duration),
       (text "drain_lease", nanos_text p.drain_lease),
       (text "max_concurrent_jobs", decimal p.max_concurrent_jobs),
       (text "max_drain_failures", decimal p.max_drain_failures_before_block),
       (text "max_precondition_age", nanos_text p.max_precondition_age),
       (text "max_restoration_attempts", decimal p.max_restoration_attempts),
       (text "max_verification_attempts", decimal p.max_verification_attempts),
       (text "min_evidence_sources", decimal p.min_evidence_sources),
       (text "require_window", bool_text p.require_window)] := rfl

theorem number_setting_decimal {key : Text} {put : Nat → Policy} {n : Nat} (h : n < 4294967296) :
    number_setting key (decimal n) put = .ok (put n) := by
  rw [number_setting, parse_u32_decimal h]

theorem duration_setting_nanos {key : Text} {put : Nanos → Policy} {v : Nanos}
    (h : duration_range v) : duration_setting key (nanos_text v) put = .ok (put v) := by
  rw [duration_setting, parse_duration_nanos h]

theorem apply_bool_setting (q : Policy) (b : Bool) :
    apply_setting q (text "require_window", bool_text b) = .ok { q with require_window := b } := by
  cases b <;> rfl

/-- The settings complete the rules. -/
theorem apply_settings {p : Policy} (h : p.Written) :
    ((policy_settings p).foldl Table.put (Table.empty : Table setting_key)).rows.foldlM
      apply_setting p.ruled = .ok p.rendered := by
  have h1 : ∀ q : Policy, apply_setting q (text "authority_lease", nanos_text p.authority_lease) =
      .ok { q with authority_lease := p.authority_lease } :=
    fun _ => duration_setting_nanos h.authority_lease
  have h2 : ∀ q : Policy, apply_setting q (text "default_duration", nanos_text p.default_duration) =
      .ok { q with default_duration := p.default_duration } :=
    fun _ => duration_setting_nanos h.default_duration
  have h3 : ∀ q : Policy, apply_setting q (text "drain_lease", nanos_text p.drain_lease) =
      .ok { q with drain_lease := p.drain_lease } :=
    fun _ => duration_setting_nanos h.drain_lease
  have h4 : ∀ q : Policy, apply_setting q (text "max_concurrent_jobs",
    decimal p.max_concurrent_jobs) =
      .ok { q with max_concurrent_jobs := p.max_concurrent_jobs } :=
    fun _ => number_setting_decimal h.max_concurrent_jobs
  have h5 : ∀ q : Policy, apply_setting q
      (text "max_drain_failures", decimal p.max_drain_failures_before_block) =
      .ok { q with max_drain_failures_before_block := p.max_drain_failures_before_block } :=
    fun _ => number_setting_decimal h.max_drain_failures
  have h6 : ∀ q : Policy, apply_setting q
      (text "max_precondition_age", nanos_text p.max_precondition_age) =
      .ok { q with max_precondition_age := p.max_precondition_age } :=
    fun _ => duration_setting_nanos h.max_precondition_age
  have h7 : ∀ q : Policy, apply_setting q
      (text "max_restoration_attempts", decimal p.max_restoration_attempts) =
      .ok { q with max_restoration_attempts := p.max_restoration_attempts } :=
    fun _ => number_setting_decimal h.max_restoration_attempts
  have h8 : ∀ q : Policy, apply_setting q
      (text "max_verification_attempts", decimal p.max_verification_attempts) =
      .ok { q with max_verification_attempts := p.max_verification_attempts } :=
    fun _ => number_setting_decimal h.max_verification_attempts
  have h9 : ∀ q : Policy, apply_setting q
      (text "min_evidence_sources", decimal p.min_evidence_sources) =
      .ok { q with min_evidence_sources := p.min_evidence_sources } :=
    fun _ => number_setting_decimal h.min_evidence_sources
  -- The settings are kept sorted by key, and each sets its own field.
  rw [setting_rows]
  simp only [List.foldlM_cons, List.foldlM_nil, h1, h2, h3, h4, h5, h6, h7, h8, h9, Result.ok_bind,
    apply_bool_setting]
  show Except.ok { p.rendered with revision := ⟨0⟩ } = _
  rw [← h.revision]
  rfl

/-- Asking for fresh evidence changes nothing that validation looks at. -/
theorem validate_rendered (p : Policy) : p.rendered.validate = p.validate := by
  have hcontracts : ∀ l : List Contract, check_all Policy.check_contract (l.map Contract.rendered) =
      check_all Policy.check_contract l := by
    intro l
    induction l with
    | nil => rfl
    | cons c l ih =>
      rw [List.map_cons, check_all, check_all, ih]
      rfl
  have hshape : p.rendered.contracts = p.contracts.map Contract.rendered := rfl
  unfold Policy.validate
  rw [hshape, List.length_map, hcontracts]
  rfl

/-- The text of a written policy loads as the policy it stands for. -/
theorem load_rendered_policy {p : Policy} (h : p.Written) (hv : p.validate = .ok ())
    (reference_now : Nanos) :
    ∃ stats, load_policy_text (render_policy p) reference_now = .ok (p.rendered, stats) := by
  have htokens := tokenize_records (plain_policy_records h)
  rw [← render_policy_eq] at htokens
  obtain ⟨stats, hrun⟩ := fills_policy h reference_now 1
    { lines := (numbered 1 (policy_records p)).length }
  refine ⟨stats, ?_⟩
  rw [load_policy_text, htokens, Result.ok_bind, hrun, Result.ok_bind, apply_settings h,
    Result.ok_bind, validate_rendered, hv]
  rfl

/-! ## Every loaded policy is written -/

theorem written_empty : Policy.Written {} := by
  refine ⟨?_, ?_, ?_, ?_, ?_, ?_, ?_, by decide, ⟨by decide, by decide⟩, ⟨by decide, by decide⟩,
    by decide, ⟨by decide, by decide⟩, ⟨by decide, by decide⟩, by decide, by decide, by decide,
    rfl⟩ <;>
  · intro x hx
    cases hx

/-- What one line does to a policy. -/
inductive Policy.Extended (p : Policy) : Policy → Prop
  | redundancy {r : RedundancyRule} : r.written →
      Extended p { p with redundancy := p.redundancy ++ [r] }
  | headroom {r : HeadroomRule} : r.written → Extended p { p with headroom := p.headroom ++ [r] }
  | domain_limit {r : DomainLimitRule} : r.written →
      Extended p { p with domain_limits := p.domain_limits ++ [r] }
  | contract {c : Contract} : c.written → Extended p { p with contracts := p.contracts ++ [c] }
  | window {w : Window} : w.written → Extended p { p with windows := p.windows ++ [w] }
  | tier {t : PriorityTier} : t.written → Extended p { p with tiers := p.tiers ++ [t] }
  | ttl {e : EvidenceKind × Nanos} : duration_range e.2 →
      Extended p { p with evidence_ttl := p.evidence_ttl.put e }
  | setting : Extended p p

theorem load_policy_record_extends {reference_now : Nanos} {d d' : PolicyDraft} {line : Line}
    (hline : line.Plain) (h : load_policy_record reference_now d line = .ok d') :
    d.policy.Extended d'.policy := by
  unfold load_policy_record at h
  -- Each kind of line adds one entry at most, and a setting changes no list.
  by_cases hredundancy : line.kind = text "redundancy"
  · rw [if_pos hredundancy, Result.bind_eq_ok] at h
    obtain ⟨r, hr, hok⟩ := h
    cases hok
    exact .redundancy (written_redundancy hline hr)
  rw [if_neg hredundancy] at h
  by_cases hheadroom : line.kind = text "headroom"
  · rw [if_pos hheadroom, Result.bind_eq_ok] at h
    obtain ⟨r, hr, hok⟩ := h
    cases hok
    exact .headroom (written_headroom hline hr)
  rw [if_neg hheadroom] at h
  by_cases hlimit : line.kind = text "domain_limit"
  · rw [if_pos hlimit, Result.bind_eq_ok] at h
    obtain ⟨r, hr, hok⟩ := h
    cases hok
    exact .domain_limit (written_domain_limit hline hr)
  rw [if_neg hlimit] at h
  by_cases hcontract : line.kind = text "contract"
  · rw [if_pos hcontract, Result.bind_eq_ok] at h
    obtain ⟨c, hc, hok⟩ := h
    cases hok
    exact .contract (written_contract hline hc)
  rw [if_neg hcontract] at h
  by_cases hwindow : line.kind = text "window"
  · rw [if_pos hwindow, Result.bind_eq_ok] at h
    obtain ⟨w, hw, hok⟩ := h
    cases hok
    exact .window (written_window hline hw)
  rw [if_neg hwindow] at h
  by_cases htier : line.kind = text "tier"
  · rw [if_pos htier, Result.bind_eq_ok] at h
    obtain ⟨t, ht, hok⟩ := h
    cases hok
    exact .tier (written_tier hline ht)
  rw [if_neg htier] at h
  by_cases httl : line.kind = text "evidence_ttl"
  · rw [if_pos httl, Result.bind_eq_ok] at h
    obtain ⟨e, he, hok⟩ := h
    cases hok
    exact .ttl (written_ttl he)
  rw [if_neg httl] at h
  by_cases hsetting : line.kind = text "setting"
  · rw [if_pos hsetting, Result.bind_eq_ok] at h
    obtain ⟨s, _, hok⟩ := h
    cases hok
    exact .setting
  · rw [if_neg hsetting] at h
    cases h

/-- An entry more keeps what holds of all entries. -/
theorem forall_mem_push {α : Type} {P : α → Prop} {l : List α} {a : α} (hl : ∀ x ∈ l, P x)
    (ha : P a) : ∀ x ∈ l ++ [a], P x := by
  intro x hx
  rcases List.mem_append.mp hx with hx | hx
  · exact hl x hx
  · rw [List.mem_singleton.mp hx]
    exact ha

theorem Policy.Extended.written {p q : Policy} (h : p.Extended q) (hp : p.Written) : q.Written := by
  cases h with
  | redundancy hr => exact { hp with redundancy := forall_mem_push hp.redundancy hr }
  | headroom hr => exact { hp with headroom := forall_mem_push hp.headroom hr }
  | domain_limit hr => exact { hp with domain_limits := forall_mem_push hp.domain_limits hr }
  | contract hc => exact { hp with contracts := forall_mem_push hp.contracts hc }
  | window hw => exact { hp with windows := forall_mem_push hp.windows hw }
  | tier ht => exact { hp with tiers := forall_mem_push hp.tiers ht }
  | @ttl e he =>
    refine { hp with evidence_ttl := ?_ }
    intro x hx
    rcases Table.mem_put.mp hx with rfl | ⟨hold, _⟩
    · exact he
    · exact hp.evidence_ttl x hold
  | setting => exact hp

theorem written_of_policy_lines {reference_now : Nanos} {lines : List Line} {d d' : PolicyDraft}
    (hd : d.policy.Written) (hplain : ∀ line ∈ lines, line.Plain)
    (h : lines.foldlM (load_policy_record reference_now) d = .ok d') : d'.policy.Written := by
  induction lines generalizing d with
  | nil =>
    cases h
    exact hd
  | cons line lines ih =>
    rw [List.foldlM_cons, Result.bind_eq_ok] at h
    obtain ⟨v, hv, hrest⟩ := h
    have hstep := load_policy_record_extends (hplain line List.mem_cons_self) hv
    exact ih (hstep.written hd) (fun x hx => hplain x (List.mem_cons_of_mem _ hx)) hrest

theorem number_setting_ok {key value : Text} {put : Nat → Policy} {q : Policy}
    (h : number_setting key value put = .ok q) : ∃ n, n < 4294967296 ∧ q = put n := by
  unfold number_setting at h
  split at h
  · cases h
  · next n hn =>
    cases h
    exact ⟨n, lt_of_parse_u32 hn, rfl⟩

theorem duration_setting_ok {key value : Text} {put : Nanos → Policy} {q : Policy}
    (h : duration_setting key value put = .ok q) : ∃ v, duration_range v ∧ q = put v := by
  unfold duration_setting at h
  split at h
  · cases h
  · next v hv =>
    cases h
    exact ⟨v, duration_of_parse hv, rfl⟩

theorem written_applied {p q : Policy} {setting : Text × Text} (hp : p.Written)
    (h : apply_setting p setting = .ok q) : q.Written := by
  obtain ⟨key, value⟩ := setting
  simp only [apply_setting] at h
  -- One key after the other, in the order of the source; a key that is none of them is refused.
  by_cases hsources : key = text "min_evidence_sources"
  · rw [if_pos hsources] at h
    obtain ⟨n, hn, rfl⟩ := number_setting_ok h
    exact { hp with min_evidence_sources := hn }
  rw [if_neg hsources] at h
  by_cases hwindow : key = text "require_window"
  · rw [if_pos hwindow] at h
    split at h
    · cases h
      exact { hp with }
    · split at h
      · cases h
        exact { hp with }
      · cases h
  rw [if_neg hwindow] at h
  by_cases hage : key = text "max_precondition_age"
  · rw [if_pos hage] at h
    obtain ⟨v, hv, rfl⟩ := duration_setting_ok h
    exact { hp with max_precondition_age := hv }
  rw [if_neg hage] at h
  by_cases hduration : key = text "default_duration"
  · rw [if_pos hduration] at h
    obtain ⟨v, hv, rfl⟩ := duration_setting_ok h
    exact { hp with default_duration := hv }
  rw [if_neg hduration] at h
  by_cases hjobs : key = text "max_concurrent_jobs"
  · rw [if_pos hjobs] at h
    obtain ⟨n, hn, rfl⟩ := number_setting_ok h
    exact { hp with max_concurrent_jobs := hn }
  rw [if_neg hjobs] at h
  by_cases hauthority : key = text "authority_lease"
  · rw [if_pos hauthority] at h
    obtain ⟨v, hv, rfl⟩ := duration_setting_ok h
    exact { hp with authority_lease := hv }
  rw [if_neg hauthority] at h
  by_cases hdrain : key = text "drain_lease"
  · rw [if_pos hdrain] at h
    obtain ⟨v, hv, rfl⟩ := duration_setting_ok h
    exact { hp with drain_lease := hv }
  rw [if_neg hdrain] at h
  by_cases hfailures : key = text "max_drain_failures"
  · rw [if_pos hfailures] at h
    obtain ⟨n, hn, rfl⟩ := number_setting_ok h
    exact { hp with max_drain_failures := hn }
  rw [if_neg hfailures] at h
  by_cases hverification : key = text "max_verification_attempts"
  · rw [if_pos hverification] at h
    obtain ⟨n, hn, rfl⟩ := number_setting_ok h
    exact { hp with max_verification_attempts := hn }
  rw [if_neg hverification] at h
  by_cases hrestoration : key = text "max_restoration_attempts"
  · rw [if_pos hrestoration] at h
    obtain ⟨n, hn, rfl⟩ := number_setting_ok h
    exact { hp with max_restoration_attempts := hn }
  · rw [if_neg hrestoration] at h
    cases h

theorem written_of_settings {settings : List (Text × Text)} {p q : Policy} (hp : p.Written)
    (h : settings.foldlM apply_setting p = .ok q) : q.Written := by
  induction settings generalizing p with
  | nil =>
    cases h
    exact hp
  | cons s settings ih =>
    rw [List.foldlM_cons, Result.bind_eq_ok] at h
    obtain ⟨v, hv, hrest⟩ := h
    exact ih (written_applied hp hv) hrest

/-- Whatever the text was, the policy loaded from it can be written, and is valid. -/
theorem loaded_policy_written {t : Text} {now : Nanos} {p : Policy} {stats : ParseStats}
    (h : load_policy_text t now = .ok (p, stats)) : p.Written ∧ p.validate = .ok () := by
  simp only [load_policy_text, Result.bind_eq_ok, Except.ok.injEq, Prod.mk.injEq] at h
  obtain ⟨lines, hlines, draft, hdraft, q, hq, _, hvalid, rfl, _⟩ := h
  have hrules := written_of_policy_lines written_empty (plain_tokenize hlines) hdraft
  exact ⟨written_of_settings hrules hq, hvalid⟩

/-- A loaded policy comes back from its text exactly when every contract of it asks for fresh
    evidence; the instants of its windows always come back. -/
theorem policy_text_kept_iff (t : Text) (now later : Nanos) (p : Policy) (stats : ParseStats)
    (h : load_policy_text t now = .ok (p, stats)) :
    (∃ q stats', load_policy_text (render_policy p) later = .ok (q, stats') ∧ q = p ∧
      q.digest = p.digest) ↔ ∀ c ∈ p.contracts, c.require_fresh_evidence = true := by
  obtain ⟨hwritten, hvalid⟩ := loaded_policy_written h
  obtain ⟨stats', hload⟩ := load_rendered_policy hwritten hvalid later
  constructor
  · rintro ⟨q, _, hq, hsame, _⟩ c hc
    rw [hload] at hq
    cases hq
    have hcontracts : p.contracts.map Contract.rendered = p.contracts :=
      congrArg Policy.contracts hsame
    have heach := List.map_inj_left.mp (hcontracts.trans (List.map_id p.contracts).symm) c hc
    exact Contract.rendered_eq_iff.mp heach
  · intro hfresh
    have hcontracts : p.contracts.map Contract.rendered = p.contracts := by
      refine (List.map_congr_left ?_).trans (List.map_id p.contracts)
      intro c hc
      exact Contract.rendered_eq_iff.mpr (hfresh c hc)
    have hsame : p.rendered = p := by
      rw [Policy.rendered, hcontracts]
    exact ⟨p.rendered, stats', hload, hsame, by rw [hsame]⟩

/-! ### Two texts -/

namespace PolicyTexts

/-- A policy with an entry of most kinds; its window opens an hour after it was read. -/
def night : Text :=
  text "tier index=0 name=emergency\n" ++
  text "redundancy pool=1 min_viable=2 tolerated_losses=2 name=n-plus-2\n" ++
  text "headroom pool=1 reserve=1 name=reserve\n" ++
  text "domain_limit domain=rack:1 max_out=1\n" ++
  text "contract id=1 name=web members=link:1,link:2 min_available=1\n" ++
  text "window id=1 name=night opens=+1h closes=+3h min_lead=60s abort_grace=30s\n" ++
  text "evidence_ttl kind=target-health ttl=15s\n" ++
  text "setting key=require_window value=true\n"

/-- A contract that does without fresh evidence. -/
def lenient : Text :=
  text "contract id=1 members=link:1 min_available=1 fresh_evidence=false\n"

def loaded (t : Text) : Policy × ParseStats :=
  match load_policy_text t 0 with
  | .ok found => found
  | .error _ => ({}, {})

theorem load {t : Text} (h : (load_policy_text t 0).isOk = true) :
    load_policy_text t 0 = .ok ((loaded t).1, (loaded t).2) := by
  unfold loaded
  cases hload : load_policy_text t 0 with
  | error e =>
    rw [hload] at h
    cases h
  | ok found => rfl

end PolicyTexts

theorem night_policy_kept : ∃ q stats',
    load_policy_text (render_policy (PolicyTexts.loaded PolicyTexts.night).1) 9000000000 =
      .ok (q, stats') ∧ q = (PolicyTexts.loaded PolicyTexts.night).1 ∧
      q.digest = (PolicyTexts.loaded PolicyTexts.night).1.digest :=
  (policy_text_kept_iff PolicyTexts.night 0 9000000000 _ _
    (PolicyTexts.load (by decide +kernel))).mpr (by decide +kernel)

/-- The lenient contract comes back as one that asks for fresh evidence. -/
theorem lenient_contract_lost : ∃ p stats, load_policy_text PolicyTexts.lenient 0 = .ok (p, stats) ∧
    ¬ ∃ q stats', load_policy_text (render_policy p) 0 = .ok (q, stats') ∧ q = p ∧
      q.digest = p.digest := by
  refine ⟨_, _, PolicyTexts.load (by decide +kernel), ?_⟩
  rintro ⟨q, stats', hload, hsame, _⟩
  have hcontracts : (load_policy_text (render_policy
      (PolicyTexts.loaded PolicyTexts.lenient).1) 0).toOption.map (fun found => found.1.contracts) ≠
        some (PolicyTexts.loaded PolicyTexts.lenient).1.contracts := by
    decide +kernel
  rw [hload, hsame] at hcontracts
  exact hcontracts rfl

end MaintenanceFabric
