import MaintenanceFabric.Store.Reopening

/-! # The policy in force

    `commit_policy` validates the policy it is given and installs what its
    record decodes to.  Validation bounds most of what the record can hold,
    but not the names, the revision, the number of headroom rules, nor the
    members of contracts and the targets of windows.
-/

namespace MaintenanceFabric

open Lib

/-! ## What a record keeps -/

namespace Policy

/-- Every name a policy record stores. -/
def names (p : Policy) : List Text :=
  p.redundancy.map RedundancyRule.name ++ p.domain_limits.map DomainLimitRule.name ++
    p.headroom.map HeadroomRule.name ++ p.contracts.map Contract.name ++
    p.windows.map Window.name ++ p.tiers.map PriorityTier.name

/-- The bounds of the record format that `validate` does not ask for. -/
structure Recordable (p : Policy) : Prop where
  revision : p.revision.value < u32_range
  names : ∀ name ∈ p.names, name.length ≤ limits.kMaxNameLength
  headroom : p.headroom.length ≤ limits.kMaxRedundancyRules
  members : ∀ c ∈ p.contracts, c.members.length ≤ limits.kMaxMembersPerPool ∧
    ∀ m ∈ c.members, m.valid = true
  window_targets : ∀ w ∈ p.windows, ∀ t ∈ w.targets, t.valid = true

end Policy

theorem recorded_name_eq_iff {name : Text} :
    recorded_name name = name ↔ name.length ≤ limits.kMaxNameLength := by
  constructor
  · intro h
    rw [← h]
    exact clip_length_le _ _
  · exact clip_of_le

/-- Renaming the elements of a list changes nothing exactly when it changes no name. -/
theorem map_renamed_eq_iff {α : Type} (rename : α → α) (name : α → Text)
    (h : ∀ a, rename a = a ↔ recorded_name (name a) = name a) (l : List α) :
    l.map rename = l ↔ ∀ n ∈ l.map name, n.length ≤ limits.kMaxNameLength := by
  induction l with
  | nil => simp
  | cons a l ih =>
    simp only [List.map_cons, List.cons.injEq, List.forall_mem_cons, ih, h, recorded_name_eq_iff]

theorem clipped_policy_eq_iff (p : Policy) :
    clipped_policy p = p ↔
      p.revision.value < u32_range ∧ ∀ name ∈ p.names, name.length ≤ limits.kMaxNameLength := by
  have hrevision : (⟨wrap32 p.revision.value⟩ : Revision) = p.revision ↔
      p.revision.value < u32_range := by
    obtain ⟨v⟩ := p.revision
    simp only [StrongId.mk.injEq, wrap32, u32_range]
    omega
  -- A list keeps its names exactly if each of them is kept.
  have hredundancy := map_renamed_eq_iff
    (fun r : RedundancyRule => { r with name := recorded_name r.name }) RedundancyRule.name
      (by rintro ⟨⟩; simp) p.redundancy
  have hdomain := map_renamed_eq_iff
    (fun r : DomainLimitRule => { r with name := recorded_name r.name })
      DomainLimitRule.name (by rintro ⟨⟩; simp)
    p.domain_limits
  have hheadroom := map_renamed_eq_iff
    (fun r : HeadroomRule => { r with name := recorded_name r.name }) HeadroomRule.name
      (by rintro ⟨⟩; simp) p.headroom
  have hcontracts := map_renamed_eq_iff
    (fun r : Contract => { r with name := recorded_name r.name }) Contract.name
      (by rintro ⟨⟩; simp) p.contracts
  have hwindows := map_renamed_eq_iff
    (fun r : Window => { r with name := recorded_name r.name }) Window.name
      (by rintro ⟨⟩; simp) p.windows
  have htiers := map_renamed_eq_iff
    (fun r : PriorityTier => { r with name := recorded_name r.name }) PriorityTier.name
      (by rintro ⟨⟩; simp) p.tiers
  have hfields : clipped_policy p = p ↔
      (clipped_policy p).redundancy = p.redundancy ∧
      (clipped_policy p).domain_limits = p.domain_limits ∧
      (clipped_policy p).headroom = p.headroom ∧ (clipped_policy p).contracts = p.contracts ∧
      (clipped_policy p).windows = p.windows ∧ (clipped_policy p).tiers = p.tiers ∧
      (clipped_policy p).revision = p.revision := by
    cases p
    simp only [clipped_policy, Policy.mk.injEq, true_and]
  rw [hfields]
  simp only [clipped_policy, hredundancy, hdomain, hheadroom, hcontracts, hwindows, htiers,
    hrevision, Policy.names, List.forall_mem_append]
  constructor
  · rintro ⟨h1, h2, h3, h4, h5, h6, h7⟩
    exact ⟨h7, ⟨⟨⟨⟨⟨h1, h2⟩, h3⟩, h4⟩, h5⟩, h6⟩⟩
  · rintro ⟨h7, ⟨⟨⟨⟨⟨h1, h2⟩, h3⟩, h4⟩, h5⟩, h6⟩⟩
    exact ⟨h1, h2, h3, h4, h5, h6, h7⟩

/-! ### Validation does not look at names -/

theorem check_tiers_map (seen : List Nat) (l : List PriorityTier) :
    Policy.check_tiers seen (l.map (fun t => { t with name := recorded_name t.name })) =
      Policy.check_tiers seen l := by
  induction l generalizing seen with
  | nil => rfl
  | cons t l ih => simp only [List.map_cons, Policy.check_tiers, ih]

theorem validate_clipped_policy (p : Policy) : (clipped_policy p).validate = p.validate := by
  have htier : (clipped_policy p).known_tier 0 = p.known_tier 0 := by
    simp [Policy.known_tier, clipped_policy, Function.comp_def]
  have hempty : (clipped_policy p).tiers.isEmpty = p.tiers.isEmpty := by
    simp [clipped_policy]
  unfold Policy.validate
  rw [htier, hempty]
  simp only [clipped_policy, List.length_map, check_all_map, check_tiers_map]
  rfl

/-! ### Exactly the recordable policies come back -/

/-- Of a validated policy the decoder asks three things more. -/
theorem check_policy_record_iff {p : Policy} (hv : p.validate = .ok ()) :
    check_policy_record p = .ok () ↔
      p.headroom.length ≤ limits.kMaxRedundancyRules ∧
      (∀ c ∈ p.contracts, c.members.length ≤ limits.kMaxMembersPerPool ∧
        ∀ m ∈ c.members, m.valid = true) ∧
      ∀ w ∈ p.windows, ∀ t ∈ w.targets, t.valid = true := by
  simp only [Policy.validate, Result.bind_eq_ok, refuse_if_eq_ok, decide_eq_false_iff_not,
    Nat.not_lt] at hv
  obtain ⟨_, hredundancy, _, hdomains, _, hcontracts, _, hwindows, _, htiers, _, _, _, _, _, _, _,
    _, _, _, _, _, _, _, _, _, _, _, _, _, _, _, _, hwindow, _⟩ := hv
  have htargets : ∀ w ∈ p.windows, w.targets.length ≤ limits.kMaxWindowTargets := by
    intro w hw
    have hone := check_all_ok hwindow w hw
    simp only [Policy.check_window, Result.bind_eq_ok, refuse_if_eq_ok, decide_eq_false_iff_not,
      Nat.not_lt] at hone
    obtain ⟨_, _, _, _, _, _, hlen⟩ := hone
    exact hlen
  simp only [check_policy_record, Result.bind_eq_ok, refuse_if_eq_ok, decide_eq_false_iff_not,
    Nat.not_lt, check_all_iff, check_target_list_iff]
  constructor
  · rintro ⟨_, _, _, _, _, hheadroom, _, _, _, hmembers, _, _, _, hwindow, _⟩
    exact ⟨hheadroom, hmembers, fun w hw => (hwindow w hw).2⟩
  · rintro ⟨hheadroom, hmembers, hwindow⟩
    exact ⟨(), hredundancy, (), hdomains, (), hheadroom, (), hcontracts, (), hmembers, (),
      hwindows, (), fun w hw => ⟨htargets w hw, hwindow w hw⟩, htiers⟩

/-- The record of a validated policy stands for the policy itself. -/
theorem recorded_policy_eq_iff {p : Policy} (hv : p.validate = .ok ()) :
    recorded_policy p = .ok p ↔ p.Recordable := by
  unfold recorded_policy
  rw [validate_clipped_policy, hv]
  simp only [Result.bind_eq_ok, Except.ok.injEq, clipped_policy_eq_iff]
  constructor
  · rintro ⟨_, hcheck, hrevision, hnames⟩
    obtain ⟨hheadroom, hmembers, hwindow⟩ := (check_policy_record_iff hv).mp hcheck
    exact ⟨hrevision, hnames, hheadroom, hmembers, hwindow⟩
  · intro h
    exact ⟨(), (check_policy_record_iff hv).mpr ⟨h.headroom, h.members, h.window_targets⟩,
      h.revision, h.names⟩

/-! ## Committing -/

namespace Store

/-- A journal that accepts everything takes a policy whose record decodes. -/
theorem commit_policy_of_verdicts_nil {s : Store} {p image : Policy} (hs : s.verdicts = [])
    (hv : p.validate = .ok ()) (hsize : policy_size p ≤ 4000000)
    (hrecorded : recorded_policy p = .ok image) :
    s.commit_policy p = (.ok (),
      { s with log := s.log ++ [[.policy p]], state := { s.state with policy := image } }) := by
  unfold commit_policy
  rw [hv, append_and_flush_of_verdicts_nil hs (admit_single (e := .policy p) hsize)]
  simp only [ok_status, hrecorded]

/-- An accepted policy is logged, and the image of its record installed. -/
theorem commit_policy_ok {s s' : Store} {p : Policy} (h : s.commit_policy p = (.ok (), s')) :
    s'.log = s.log ++ [[.policy p]] ∧ recorded_policy p = .ok s'.state.policy := by
  unfold commit_policy at h
  split at h
  · cases h
  · split at h
    · cases h
    · next happend =>
      obtain ⟨-, hlog, -⟩ := append_and_flush_ok happend
      split at h
      · cases h
      · next hrecorded =>
        cases h
        exact ⟨hlog, hrecorded⟩

end Store

/-- Only policy entries change the policy. -/
theorem Image.effect_policy {e : Entry} (h : e.type ≠ .Policy) (i : Image) :
    (i.effect e).policy = i.policy := by
  cases e with
  | policy p => exact absurd rfl h
  | _ =>
    simp only [Image.effect]
    split <;> rfl

theorem Image.effects_policy {entries : List Entry} (h : ∀ e ∈ entries, e.type ≠ .Policy)
    (i : Image) : (entries.foldl Image.effect i).policy = i.policy := by
  induction entries generalizing i with
  | nil => rfl
  | cons e entries ih =>
    rw [List.foldl_cons, ih (fun x hx => h x (List.mem_cons_of_mem _ hx)),
      Image.effect_policy (h e List.mem_cons_self)]

/-- A validated policy comes back from its record, is the one in force once it is committed, and
    the one in force after a restart, exactly when the record can hold it. -/
theorem policy_kept_iff {p : Policy} (h : p.machine) (hv : p.validate = .ok ()) :
    (decode_policy_record (encode_policy_record p) = .ok p ↔ p.Recordable) ∧
    ∀ s s' : Store, s.commit_policy p = (.ok (), s') →
      (s'.state.policy = p ↔ p.Recordable) ∧
      ∀ (options : StoreOptions) (before after : List (List Entry)), options.journal_path ≠ [] →
        (∀ entries ∈ before ++ s'.log ++ after, admit_transaction entries = .ok ()) →
        (∀ e ∈ (before ++ s'.log ++ after).flatten, e.machine) →
        (∀ e ∈ after.flatten, e.type ≠ .Policy) →
        ∃ j r, Store.open options (some (Store.file_of options (before ++ s'.log ++ after))) =
            .ok (j, r) ∧ (r.state.policy = p ↔ p.Recordable) := by
  have hround := recorded_policy_eq_iff hv
  refine ⟨by rw [decode_encode_policy h]; exact hround, ?_⟩
  intro s s' hcommit
  obtain ⟨hlog, hrecorded⟩ := Store.commit_policy_ok hcommit
  rw [hrecorded, Except.ok.injEq] at hround
  refine ⟨hround, ?_⟩
  intro options before after hpath hadm hmachine hafter
  obtain ⟨r, hopen, himage⟩ := Store.open_laid hpath hadm hmachine
  refine ⟨_, r, hopen, ?_⟩
  -- The last policy of the file decides what is in force.
  have hpolicy : r.state.policy = s'.state.policy := by
    show r.image.policy = s'.state.policy
    rw [himage, replayed_append, hlog, ← List.append_assoc, replayed_append]
    unfold replayed
    rw [Image.effects_policy hafter]
    simp only [List.flatten_cons, List.flatten_nil, List.append_nil, List.foldl_cons,
      List.foldl_nil, Image.effect, hrecorded]
  rw [hpolicy]
  exact hround

namespace Drill

/-- One rule, one contract, and names within their bound. -/
def named_policy : Policy :=
  { redundancy := [{ pool := ⟨1⟩, min_viable := 2, name := text "spine" }]
    contracts := [{ id := ⟨1⟩, name := text "uplinks", members := [⟨.Link, 1⟩, ⟨.Link, 2⟩] }]
    revision := ⟨3⟩ }

/-- A redundancy rule whose name has one byte too many for its record. -/
def overnamed_policy : Policy :=
  { redundancy := [{ pool := ⟨1⟩, name := List.replicate 97 97 }] }

def store_options : StoreOptions := { journal_path := text "state.journal" }

theorem named_policy_recordable : named_policy.Recordable := by
  constructor
  all_goals decide

end Drill

theorem named_policy_kept :
    decode_policy_record (encode_policy_record Drill.named_policy) = .ok Drill.named_policy ∧
    ∃ s' j r, ({} : Store).commit_policy Drill.named_policy = (.ok (), s') ∧
      s'.state.policy = Drill.named_policy ∧
      Store.open Drill.store_options (some (Store.file_of Drill.store_options s'.log)) =
        .ok (j, r) ∧ r.state.policy = Drill.named_policy := by
  have hmachine : Drill.named_policy.machine := by
    constructor
    all_goals decide
  have hv : Drill.named_policy.validate = .ok () := by decide
  have hrecorded := (recorded_policy_eq_iff hv).mpr Drill.named_policy_recordable
  have hcommit := Store.commit_policy_of_verdicts_nil (s := {}) rfl hv (by decide) hrecorded
  obtain ⟨hround, hkept⟩ := policy_kept_iff hmachine hv
  obtain ⟨hforce, hrestart⟩ := hkept _ _ hcommit
  obtain ⟨j, r, hopen, hpolicy⟩ := hrestart Drill.store_options [] [] (by decide)
    (by simpa using Store.admit_single (e := .policy Drill.named_policy) (by decide))
    (by simpa [Entry.machine] using hmachine) (by simp)
  exact ⟨hround.mpr Drill.named_policy_recordable, _, j, r, hcommit,
    hforce.mpr Drill.named_policy_recordable, by simpa using hopen,
    hpolicy.mpr Drill.named_policy_recordable⟩

/-- A policy that validation and commit accept is replaced by another one. -/
theorem overnamed_policy_changed :
    Drill.overnamed_policy.validate = .ok () ∧
    (encode_policy_record Drill.overnamed_policy).payload.length ≤
      limits.kMaxJournalRecordBytes ∧
    decode_policy_record (encode_policy_record Drill.overnamed_policy) ≠
      .ok Drill.overnamed_policy ∧
    ∃ s', ({} : Store).commit_policy Drill.overnamed_policy = (.ok (), s') ∧
      s'.state.policy ≠ Drill.overnamed_policy := by
  have hmachine : Drill.overnamed_policy.machine := by
    constructor
    all_goals decide
  have hv : Drill.overnamed_policy.validate = .ok () := by decide
  have hlong : ¬ Drill.overnamed_policy.Recordable := by
    intro h
    exact absurd (h.names (List.replicate 97 97) (by decide)) (by decide)
  have hchanged : recorded_policy Drill.overnamed_policy ≠ .ok Drill.overnamed_policy :=
    fun h => hlong ((recorded_policy_eq_iff hv).mp h)
  have hcheck := (check_policy_record_iff hv).mpr ⟨by decide, by decide, by decide⟩
  have hrecorded : recorded_policy Drill.overnamed_policy =
      .ok (clipped_policy Drill.overnamed_policy) := by
    unfold recorded_policy
    rw [hcheck, validate_clipped_policy, hv]
    rfl
  refine ⟨hv, ?_, ?_, ?_⟩
  · rw [policy_record_length]
    decide
  · rw [decode_encode_policy hmachine]
    exact hchanged
  · refine ⟨_, Store.commit_policy_of_verdicts_nil rfl hv (by decide) hrecorded, ?_⟩
    intro hsame
    exact hchanged (hrecorded.trans (congrArg Except.ok hsame))

end MaintenanceFabric
