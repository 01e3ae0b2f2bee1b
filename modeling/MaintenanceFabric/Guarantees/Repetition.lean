import MaintenanceFabric.Guarantees.PolicyFiles
import MaintenanceFabric.Guarantees.PolicyText
import MaintenanceFabric.Guarantees.TopologyFiles

/-! # Definitions that are repeated

    Within a line a repeated key is refused, but lines are not compared: a
    second line about the same setting, pool, contract, window, domain or
    target is accepted, and takes the place of the first one or stands behind
    it.  A text is free of repetitions only when it has none, or is refused
    for something else.
-/

namespace MaintenanceFabric

open Lib

/-! ## Strictness -/

/-- No two lines of a policy define the same thing. -/
structure PolicyLinesDistinct (reference_now : Nanos) (lines : List Line) : Prop where
  settings : ((setting_lines lines).map Prod.fst).Nodup
  evidence_ttl : ((evidence_ttl_lines lines).map Prod.fst).Nodup
  redundancy : ((redundancy_lines lines).map RedundancyRule.pool).Nodup
  headroom : ((headroom_lines lines).map HeadroomRule.pool).Nodup
  contracts : ((contract_lines lines).map Contract.id).Nodup
  windows : ((window_lines reference_now lines).map Window.id).Nodup

/-- No two lines of a topology declare the same thing. -/
structure TopologyLinesDistinct (lines : List Line) : Prop where
  domains : (declared_domains lines).Nodup
  targets : (declared_targets lines).Nodup
  pools : (declared_pools lines).Nodup

/-- If the policy is accepted, its lines are distinct. -/
def StrictPolicyText (t : Text) (reference_now : Nanos) : Prop :=
  ∀ p stats lines, load_policy_text t reference_now = .ok (p, stats) → tokenize t = .ok lines →
    PolicyLinesDistinct reference_now lines

def StrictTopologyText (t : Text) : Prop :=
  ∀ u stats lines, load_topology_text t = .ok (u, stats) → tokenize t = .ok lines →
    TopologyLinesDistinct lines

/-- What is accepted under a condition on the lines has a property when that condition implies
    it. -/
theorem accepted_iff {t : Text} {accepted : Prop} {holds distinct : List Line → Prop}
    (haccepted : accepted ↔ ∃ lines, tokenize t = .ok lines ∧ holds lines) :
    (accepted → ∀ lines, tokenize t = .ok lines → distinct lines) ↔
      ∀ lines, tokenize t = .ok lines → distinct lines ∨ ¬ holds lines := by
  constructor
  · intro h lines hlines
    by_cases hholds : holds lines
    · exact .inl (h (haccepted.mpr ⟨lines, hlines, hholds⟩) lines hlines)
    · exact .inr hholds
  · intro h hyes lines hlines
    obtain ⟨lines', hlines', hholds⟩ := haccepted.mp hyes
    rw [hlines] at hlines'
    cases hlines'
    exact (h lines hlines).resolve_right (not_not.mpr hholds)

/-- A text is strict exactly when its lines are distinct, or have a fault of another kind: nothing
    else keeps a repeated definition out. -/
theorem strict_configuration_iff (policy topology : Text) (reference_now : Nanos) :
    (StrictPolicyText policy reference_now ∧ StrictTopologyText topology) ↔
      (∀ lines, tokenize policy = .ok lines →
        PolicyLinesDistinct reference_now lines ∨ ¬ PolicyLinesHold reference_now lines) ∧
      ∀ lines, tokenize topology = .ok lines →
        TopologyLinesDistinct lines ∨ ¬ TopologyLinesHold lines := by
  refine and_congr ?_ ?_
  · rw [← accepted_iff load_policy_text_accepts_iff]
    constructor
    · rintro h ⟨p, stats, hload⟩ lines
      exact h p stats lines hload
    · exact fun h p stats lines hload => h ⟨p, stats, hload⟩ lines
  · rw [← accepted_iff load_topology_text_accepts_iff]
    constructor
    · rintro h ⟨u, stats, hload⟩ lines
      exact h u stats lines hload
    · exact fun h u stats lines hload => h ⟨u, stats, hload⟩ lines

/-! ## Two texts that repeat themselves -/

namespace Repeating

/-- Every kind of rule is given twice. -/
def policy : Text :=
  text "redundancy pool=1 min_viable=2 tolerated_losses=1\n" ++
  text "redundancy pool=1 min_viable=1 tolerated_losses=0\n" ++
  text "headroom pool=1 reserve=2\n" ++
  text "headroom pool=1 reserve=1\n" ++
  text "contract id=1 members=link:1,link:2 min_available=2\n" ++
  text "contract id=1 members=link:3 min_available=1\n" ++
  text "window id=1 opens=+1h closes=+2h\n" ++
  text "window id=1 opens=+3h closes=+4h\n" ++
  text "evidence_ttl kind=target-health ttl=15s\n" ++
  text "evidence_ttl kind=target-health ttl=30s\n" ++
  text "setting key=max_concurrent_jobs value=1\n" ++
  text "setting key=max_concurrent_jobs value=8\n"

def topology : Text :=
  text "domain kind=rack id=1 name=a\n" ++
  text "domain kind=rack id=1 name=b\n" ++
  text "target kind=link id=1 domains=rack:1\n" ++
  text "target kind=link id=1 domains=rack:1 maintainable=false\n" ++
  text "pool id=1 members=link:1 name=a\n" ++
  text "pool id=1 members=link:1 name=b\n"

def lines (t : Text) : List Line := (tokenize t).toOption.getD []

theorem lines_of {t : Text} (h : (tokenize t).isOk = true) : tokenize t = .ok (lines t) := by
  unfold lines
  cases htokens : tokenize t with
  | error e =>
    rw [htokens] at h
    cases h
  | ok found => rfl

theorem accepted {t : Text} (h : (load_topology_text t).isOk = true) :
    ∃ u stats, load_topology_text t = .ok (u, stats) := by
  cases hload : load_topology_text t with
  | error e =>
    rw [hload] at h
    cases h
  | ok found => exact ⟨found.1, found.2, rfl⟩

end Repeating

/-- Both texts are accepted; of the two settings the first is lost. -/
theorem repeated_definitions_accepted :
    ¬ StrictPolicyText Repeating.policy 0 ∧ ¬ StrictTopologyText Repeating.topology ∧
    ∃ p stats, load_policy_text Repeating.policy 0 = .ok (p, stats) ∧
      p.max_concurrent_jobs = 8 := by
  have hpolicy := PolicyTexts.load (t := Repeating.policy) (by decide +kernel)
  refine ⟨fun h => ?_, fun h => ?_, ⟨_, _, hpolicy, by decide +kernel⟩⟩
  · have hdistinct := h _ _ _ hpolicy (Repeating.lines_of (by decide +kernel))
    exact absurd hdistinct.settings (by decide +kernel)
  · obtain ⟨u, stats, hload⟩ := Repeating.accepted (t := Repeating.topology) (by decide +kernel)
    have hdistinct := h u stats _ hload (Repeating.lines_of (by decide +kernel))
    exact absurd hdistinct.targets (by decide +kernel)

end MaintenanceFabric
