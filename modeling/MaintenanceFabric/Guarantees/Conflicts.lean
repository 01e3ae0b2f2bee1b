import MaintenanceFabric.Config.Lines
import MaintenanceFabric.Engine.Conflicts

/-! # The conflict report is exact

    A pair of jobs is in the report once for the scopes they share and once for
    every limited domain both reach into, and for nothing else.  That entries
    are not repeated rests on the texts: a domain is named in the detail only,
    and its name reads back.
-/

namespace MaintenanceFabric

open Lib

/-! ## Names that read back -/

/-- The number a decimal text stands for. -/
def decimal_value (t : Text) : Nat := t.foldl (fun v b => v * 10 + (b.toNat - 48)) 0

theorem decimal_value_decimal (n : Nat) : decimal_value (decimal n) = n := by
  induction n using Nat.strong_induction_on with
  | _ n ih =>
    by_cases h : n < 10
    · rw [decimal_digit h]
      unfold decimal_value
      rw [List.foldl_cons, List.foldl_nil, (digit_value h).2]
      omega
    · have hlast : n % 10 < 10 := Nat.mod_lt n (by decide)
      have hrest := ih (n / 10) (by omega)
      unfold decimal_value at hrest ⊢
      rw [decimal_step n (by omega), decimal_digit hlast, List.foldl_append, hrest,
        List.foldl_cons, List.foldl_nil, (digit_value hlast).2]
      omega

theorem decimal_injective : Function.Injective decimal :=
  Function.LeftInverse.injective decimal_value_decimal

theorem DomainKind.to_string_injective : Function.Injective DomainKind.to_string := by
  intro a b h
  cases a <;> cases b <;> first | rfl | exact absurd h (by decide)

/-- The name of a kind ends at the colon. -/
theorem DomainKind.no_colon (k : DomainKind) : ∀ b ∈ k.to_string, decide (b ≠ 58) = true := by
  have hall : k.to_string.all (fun b => decide (b ≠ 58)) = true := by cases k <;> decide
  exact List.all_eq_true.mp hall

theorem DomainId.to_string_injective : Function.Injective DomainId.to_string := by
  have hkind : ∀ d : DomainId, d.to_string.takeWhile (fun b => decide (b ≠ 58)) =
      d.kind.to_string := by
    intro d
    have hname : d.to_string = d.kind.to_string ++ (58 :: decimal d.index) := by
      show (_ ++ [58]) ++ _ = _
      rw [List.append_assoc]
      rfl
    rw [hname, List.takeWhile_append_of_pos d.kind.no_colon]
    simp
  intro a b h
  have hkinds : a.kind.to_string = b.kind.to_string := by rw [← hkind a, h, hkind b]
  unfold to_string at h
  rw [hkinds, List.append_cancel_left_eq] at h
  exact DomainId.ext (DomainKind.to_string_injective hkinds) (decimal_injective h)

namespace ConflictContext

variable {c : ConflictContext}

/-! ## One pair -/

theorem mem_shared_target {a b : MaintenanceJob} {e : ConflictEntry} :
    e ∈ shared_target a b ↔ ∃ target,
      a.removal_set.find? (fun target => decide (target ∈ b.removal_set)) = some target ∧
      e = target_entry a b target := by
  unfold shared_target
  simp only [Option.mem_toList, Option.map_eq_some_iff]
  constructor
  · rintro ⟨target, hfound, rfl⟩
    exact ⟨target, hfound, rfl⟩
  · rintro ⟨target, hfound, rfl⟩
    exact ⟨target, hfound, rfl⟩

/-- Do both scopes have a target in the domain? -/
def Reaches (c : ConflictContext) (domain : DomainId) (job : MaintenanceJob) : Prop :=
  ∃ topology, c.topology = some topology ∧
    ∃ target ∈ job.removal_set, ∃ record, topology.target target = some record ∧
      domain ∈ record.domains

/-- Does the policy, if there is one, limit the domain? -/
def Limits (c : ConflictContext) (domain : DomainId) : Prop :=
  ∀ policy, c.policy = some policy → ∃ rule ∈ policy.domain_limits, rule.domain = domain

theorem counts_domain_iff {domain : DomainId} :
    c.counts_domain domain = true ↔ c.Limits domain := by
  unfold counts_domain Limits
  cases c.policy with
  | none => simp
  | some policy => simp [Policy.has_domain_limit]

theorem mem_shared_domains {a b : MaintenanceJob} {e : ConflictEntry} :
    e ∈ c.shared_domains a b ↔ ∃ domain, c.Reaches domain a ∧ c.Reaches domain b ∧
      c.Limits domain ∧ e = domain_entry a b domain := by
  unfold shared_domains Reaches
  cases htopology : c.topology with
  | none => simp
  | some topology =>
    simp only [List.mem_map, List.mem_filter, decide_eq_true_eq, Topology.mem_domains_of,
      counts_domain_iff, Option.some.injEq, exists_eq_left']
    constructor
    · rintro ⟨domain, ⟨⟨ha, hb⟩, hlimits⟩, rfl⟩
      exact ⟨domain, ha, hb, hlimits, rfl⟩
    · rintro ⟨domain, ha, hb, hlimits, rfl⟩
      exact ⟨domain, ⟨⟨ha, hb⟩, hlimits⟩, rfl⟩

/-- Both kinds of entries name the pair. -/
theorem names_pair {a b : MaintenanceJob} {e : ConflictEntry} (h : e ∈ c.pair_conflicts a b) :
    e.first = a.id ∧ e.second = b.id := by
  unfold pair_conflicts at h
  rcases List.mem_append.mp h with h | h
  · obtain ⟨target, _, rfl⟩ := mem_shared_target.mp h
    exact ⟨rfl, rfl⟩
  · obtain ⟨domain, _, _, _, rfl⟩ := mem_shared_domains.mp h
    exact ⟨rfl, rfl⟩

theorem nodup_domains_of (topology : Topology) (targets : List TargetId) :
    (topology.domains_of targets).Nodup := by
  unfold Topology.domains_of
  refine (List.perm_insertionSort _ _).nodup_iff.mpr ?_
  refine List.foldlRecOn targets _ List.nodup_nil ?_
  intro out h id _
  split
  · exact h
  · exact nodup_push_all_unique h _

theorem nodup_pair_conflicts (a b : MaintenanceJob) : (c.pair_conflicts a b).Nodup := by
  unfold pair_conflicts
  refine List.Nodup.append ?_ ?_ ?_
  · unfold shared_target
    cases (a.removal_set.find? fun target => decide (target ∈ b.removal_set)) with
    | none => exact List.nodup_nil
    | some target => exact List.nodup_singleton _
  · unfold shared_domains
    cases c.topology with
    | none => exact List.nodup_nil
    | some topology =>
      refine List.Nodup.map_on ?_ (((nodup_domains_of topology _).filter _).filter _)
      -- The domain is named in the detail only.
      intro domain _ domain' _ heq
      have hdetail := congrArg ConflictEntry.detail heq
      simp only [domain_entry, List.append_cancel_left_eq] at hdetail
      exact DomainId.to_string_injective hdetail
  · intro e htarget hdomain
    obtain ⟨target, _, rfl⟩ := mem_shared_target.mp htarget
    obtain ⟨domain, _, _, _, heq⟩ := mem_shared_domains.mp hdomain
    have hkind : text "shared-target" = text "shared-correlated-domain" :=
      congrArg ConflictEntry.kind heq
    exact absurd hkind (by decide)

/-! ## All pairs -/

/-- By induction on the list: a job is compared with the ones behind it, which have larger ids. -/
theorem mem_all_conflicts {jobs : List MaintenanceJob}
    (hsorted : jobs.Pairwise (fun a b => a.id < b.id)) {e : ConflictEntry} :
    e ∈ c.all_conflicts jobs ↔
      ∃ a ∈ jobs, ∃ b ∈ jobs, a.id < b.id ∧ e ∈ c.pair_conflicts a b := by
  induction jobs with
  | nil => simp [all_conflicts]
  | cons job rest ih =>
    obtain ⟨hfirst, hrest⟩ := List.pairwise_cons.mp hsorted
    unfold all_conflicts
    rw [List.mem_append, List.mem_flatMap, ih hrest]
    constructor
    · rintro (⟨b, hb, he⟩ | ⟨a, ha, b, hb, hlt, he⟩)
      · exact ⟨job, List.mem_cons_self, b, List.mem_cons_of_mem _ hb, hfirst b hb, he⟩
      · exact ⟨a, List.mem_cons_of_mem _ ha, b, List.mem_cons_of_mem _ hb, hlt, he⟩
    · rintro ⟨a, ha, b, hb, hlt, he⟩
      rcases List.mem_cons.mp ha with rfl | ha
      · rcases List.mem_cons.mp hb with rfl | hb
        · exact absurd hlt (lt_irrefl _)
        · exact .inl ⟨b, hb, he⟩
      · rcases List.mem_cons.mp hb with hb | hb
        · -- The first job of the list has the smallest id.
          exact absurd (hb ▸ hlt) (hfirst a ha).asymm
        · exact .inr ⟨a, ha, b, hb, hlt, he⟩

theorem nodup_all_conflicts {jobs : List MaintenanceJob}
    (hsorted : jobs.Pairwise (fun a b => a.id < b.id)) : (c.all_conflicts jobs).Nodup := by
  induction jobs with
  | nil => exact List.nodup_nil
  | cons job rest ih =>
    obtain ⟨hfirst, hrest⟩ := List.pairwise_cons.mp hsorted
    unfold all_conflicts
    refine List.Nodup.append ?_ (ih hrest) ?_
    · refine List.nodup_flatMap.mpr ⟨fun b _ => nodup_pair_conflicts job b, ?_⟩
      refine hrest.imp ?_
      intro b b' hlt e he he'
      exact hlt.ne ((names_pair he).2.symm.trans (names_pair he').2)
    · intro e he he'
      obtain ⟨b, _, he⟩ := List.mem_flatMap.mp he
      obtain ⟨a, ha, _, _, _, he'⟩ := (mem_all_conflicts hrest).mp he'
      exact (hfirst a ha).ne ((names_pair he).1.symm.trans (names_pair he').1)

/-! ## The report -/

/-- The job is in the table, and in a state the report looks at. -/
def Reported (c : ConflictContext) (job : MaintenanceJob) : Prop :=
  ∃ jobs, c.jobs = some jobs ∧ jobs.find job.id = some job ∧ reports job = true

/-- The jobs the report looks at, by ascending ids. -/
theorem pairwise_reported (jobs : JobTable) :
    (sort_by MaintenanceJob.id (jobs.jobs.rows.filter reports)).Pairwise
      (fun a b => a.id < b.id) := by
  have hdistinct : (sort_by MaintenanceJob.id (jobs.jobs.rows.filter reports)).Pairwise
      (fun a b => a.id ≠ b.id) := by
    refine List.Pairwise.perm ?_ (List.perm_insertionSort _ _).symm (fun h => h.symm)
    exact (jobs.jobs.sorted.imp (fun h => ne_of_lt h)).filter _
  exact ((pairwise_sort_by _ _).and hdistinct).imp (fun h => lt_of_le_of_ne h.1 h.2)

theorem mem_reported {jobs : JobTable} (hjobs : c.jobs = some jobs) {job : MaintenanceJob} :
    job ∈ sort_by MaintenanceJob.id (jobs.jobs.rows.filter reports) ↔ c.Reported job := by
  unfold Reported
  rw [mem_sort_by, List.mem_filter, hjobs]
  constructor
  · rintro ⟨hmem, hreports⟩
    exact ⟨jobs, rfl, Table.find_iff_mem.mpr hmem, hreports⟩
  · rintro ⟨_, hsame, hfound, hreports⟩
    cases Option.some.inj hsame
    exact ⟨Table.mem_of_find hfound, hreports⟩

/-! ## What it says -/

/-- The first target of the first job's scope that the second claims too. -/
def FirstShared (a b : MaintenanceJob) (target : TargetId) : Prop :=
  a.removal_set.find? (fun target => decide (target ∈ b.removal_set)) = some target

theorem mem_conflicts {e : ConflictEntry} :
    e ∈ (inspect_conflicts c).conflicts ↔
      ∃ a b, c.Reported a ∧ c.Reported b ∧ a.id < b.id ∧ e ∈ c.pair_conflicts a b := by
  unfold inspect_conflicts
  cases hjobs : c.jobs with
  | none => simp [Reported, hjobs]
  | some jobs =>
    simp only
    rw [mem_all_conflicts (pairwise_reported jobs)]
    simp only [mem_reported hjobs]
    constructor
    · rintro ⟨a, ha, b, hb, h⟩
      exact ⟨a, b, ha, hb, h⟩
    · rintro ⟨a, b, ha, hb, h⟩
      exact ⟨a, ha, b, hb, h⟩

theorem nodup_conflicts : (inspect_conflicts c).conflicts.Nodup := by
  unfold inspect_conflicts
  cases c.jobs with
  | none => exact List.nodup_nil
  | some jobs => exact nodup_all_conflicts (pairwise_reported jobs)

/-- A job of the table is known by its id. -/
theorem Reported.unique {a b : MaintenanceJob} (ha : c.Reported a) (hb : c.Reported b)
    (h : a.id = b.id) : a = b := by
  obtain ⟨jobs, hjobs, hfound, _⟩ := ha
  obtain ⟨jobs', hjobs', hfound', _⟩ := hb
  cases Option.some.inj (hjobs.symm.trans hjobs')
  rw [h, hfound'] at hfound
  exact (Option.some.inj hfound).symm

theorem mem_pair_conflicts {a b : MaintenanceJob} {e : ConflictEntry} :
    e ∈ c.pair_conflicts a b ↔ (∃ target, FirstShared a b target ∧ e = target_entry a b target) ∨
      ∃ domain, c.Reaches domain a ∧ c.Reaches domain b ∧ c.Limits domain ∧
        e = domain_entry a b domain := by
  unfold pair_conflicts
  rw [List.mem_append, mem_shared_target, mem_shared_domains]
  rfl

theorem exists_first_shared {a b : MaintenanceJob} :
    (∃ target, FirstShared a b target) ↔
      ∃ target, target ∈ a.removal_set ∧ target ∈ b.removal_set := by
  unfold FirstShared
  rw [← Option.isSome_iff_exists, List.find?_isSome]
  simp only [decide_eq_true_eq]

theorem pair_listed_iff {a b : MaintenanceJob} (ha : c.Reported a) (hb : c.Reported b)
    (hlt : a.id < b.id) :
    (∃ e ∈ (inspect_conflicts c).conflicts, e.first = a.id ∧ e.second = b.id) ↔
      (∃ target, target ∈ a.removal_set ∧ target ∈ b.removal_set) ∨
        ∃ domain, c.Reaches domain a ∧ c.Reaches domain b ∧ c.Limits domain := by
  rw [← exists_first_shared]
  constructor
  · rintro ⟨e, he, hfirst, hsecond⟩
    obtain ⟨a', b', ha', hb', _, hpair⟩ := mem_conflicts.mp he
    obtain ⟨hfirst', hsecond'⟩ := names_pair hpair
    cases ha'.unique ha (hfirst'.symm.trans hfirst)
    cases hb'.unique hb (hsecond'.symm.trans hsecond)
    rcases mem_pair_conflicts.mp hpair with ⟨target, hshared, _⟩ | ⟨domain, h₁, h₂, h₃, _⟩
    · exact .inl ⟨target, hshared⟩
    · exact .inr ⟨domain, h₁, h₂, h₃⟩
  · intro h
    have hlisted : ∀ e ∈ c.pair_conflicts a b, ∃ e ∈ (inspect_conflicts c).conflicts,
        e.first = a.id ∧ e.second = b.id := by
      intro e he
      exact ⟨e, mem_conflicts.mpr ⟨a, b, ha, hb, hlt, he⟩, names_pair he⟩
    rcases h with ⟨target, hshared⟩ | ⟨domain, h₁, h₂, h₃⟩
    · exact hlisted _ (mem_pair_conflicts.mpr (.inl ⟨target, hshared, rfl⟩))
    · exact hlisted _ (mem_pair_conflicts.mpr (.inr ⟨domain, h₁, h₂, h₃, rfl⟩))

/-- The list of queued jobs also asks for validated jobs, which the report never looks at. -/
theorem mem_queued {line : ExplanationLine} :
    line ∈ (inspect_conflicts c).queued ↔ ∃ job, c.Reported job ∧
      (job.state = .Proposed ∨ job.state = .Prerequisites ∨ job.state = .Ready) ∧
      line = queued_line job := by
  have hstates : ∀ job, c.Reported job → (waits job.state = true ↔
      job.state = .Proposed ∨ job.state = .Prerequisites ∨ job.state = .Ready) := by
    rintro job ⟨_, _, _, hreports⟩
    unfold reports at hreports
    cases hstate : job.state <;> simp_all [waits, JobState.holds_resources]
  unfold inspect_conflicts
  cases hjobs : c.jobs with
  | none => simp [Reported, hjobs]
  | some jobs =>
    simp only [List.mem_map, List.mem_filter, mem_reported hjobs]
    constructor
    · rintro ⟨job, ⟨hreported, hwaits⟩, rfl⟩
      exact ⟨job, hreported, (hstates job hreported).mp hwaits, rfl⟩
    · rintro ⟨job, hreported, hstate, rfl⟩
      exact ⟨job, ⟨hreported, (hstates job hreported).mpr hstate⟩, rfl⟩

/-- The report has one entry for every two jobs it looks at whose scopes meet, about the first
    common target, and one for every limited domain both scopes reach into; it has no other
    entries and repeats none. Two jobs appear in it exactly if their scopes meet or reach into
    one such domain, and a job that is validated but not begun appears nowhere. -/
theorem conflict_report_exact (c : ConflictContext) :
    (∀ e, e ∈ (inspect_conflicts c).conflicts ↔
      ∃ a b, c.Reported a ∧ c.Reported b ∧ a.id < b.id ∧
        ((∃ target, FirstShared a b target ∧ e = target_entry a b target) ∨
          ∃ domain, c.Reaches domain a ∧ c.Reaches domain b ∧ c.Limits domain ∧
            e = domain_entry a b domain)) ∧
    (inspect_conflicts c).conflicts.Nodup ∧
    (∀ a b, c.Reported a → c.Reported b → a.id < b.id →
      ((∃ e ∈ (inspect_conflicts c).conflicts, e.first = a.id ∧ e.second = b.id) ↔
        (∃ target, target ∈ a.removal_set ∧ target ∈ b.removal_set) ∨
          ∃ domain, c.Reaches domain a ∧ c.Reaches domain b ∧ c.Limits domain)) ∧
    (∀ line, line ∈ (inspect_conflicts c).queued ↔ ∃ job, c.Reported job ∧
      (job.state = .Proposed ∨ job.state = .Prerequisites ∨ job.state = .Ready) ∧
      line = queued_line job) := by
  refine ⟨?_, nodup_conflicts, fun a b => pair_listed_iff, fun line => mem_queued⟩
  intro e
  simp only [mem_conflicts, mem_pair_conflicts]

end ConflictContext

end MaintenanceFabric
