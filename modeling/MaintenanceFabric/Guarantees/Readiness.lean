import MaintenanceFabric.Engine.Readiness

/-! # Readiness is the worst case

    A target is fresh when enough distinct sources report its health afresh,
    and serving when no such report says otherwise.  So one more report can
    only take a target out of service.
-/

namespace MaintenanceFabric

open Lib

/-- A report on the target's health that the store holds and that evaluates fresh. -/
structure FreshReport (evidence : EvidenceStore) (current : ControllerIncarnation) (now : Nanos)
    (id : TargetId) (record : EvidenceRecord) : Prop where
  held : evidence.find record.key = some record
  kind : record.key.kind = .TargetHealth
  subject : record.key.subject = EvidenceSubject.of id
  fresh : (evidence.evaluate { key := record.key, current, now }).fresh = true

/-- A source that vouches for the target. -/
def Vouches (evidence : EvidenceStore) (current : ControllerIncarnation) (now : Nanos)
    (id : TargetId) (source : SourceId) : Prop :=
  ∃ record, FreshReport evidence current now id record ∧ record.key.source = source

section View

variable {evidence : EvidenceStore} {current : ControllerIncarnation} {now : Nanos} {id : TargetId}

theorem mem_fresh_sources {source : SourceId} :
    source ∈ evidence.fresh_sources .TargetHealth (EvidenceSubject.of id) current now ↔
      Vouches evidence current now id source := by
  simp only [EvidenceStore.fresh_sources, mem_sorted_unique, List.mem_map, List.mem_filter,
    Bool.and_eq_true, decide_eq_true_eq]
  constructor
  · rintro ⟨record, ⟨hrow, ⟨hkind, hsubject⟩, hfresh⟩, hsource⟩
    exact ⟨record, ⟨Table.find_iff_mem.mpr hrow, hkind, hsubject, hfresh⟩, hsource⟩
  · rintro ⟨record, ⟨hheld, hkind, hsubject, hfresh⟩, hsource⟩
    exact ⟨record, ⟨Table.find_iff_mem.mp hheld, ⟨hkind, hsubject⟩, hfresh⟩, hsource⟩

/-- The sources are counted once each, and all of them are. -/
theorem enough_sources_iff {least : Nat} :
    least ≤ (evidence.fresh_sources .TargetHealth (EvidenceSubject.of id) current now).length ↔
      ∃ sources : List SourceId, sources.Nodup ∧ least ≤ sources.length ∧
        ∀ source ∈ sources, Vouches evidence current now id source := by
  constructor
  · intro h
    exact ⟨_, nodup_sorted_unique _, h, fun source hsource => mem_fresh_sources.mp hsource⟩
  · rintro ⟨sources, hnodup, hleast, hvouch⟩
    have hsubset : sources ⊆ evidence.fresh_sources .TargetHealth (EvidenceSubject.of id) current
        now := fun source hsource => mem_fresh_sources.mpr (hvouch source hsource)
    exact hleast.trans (List.subperm_of_subset hnodup hsubset).length_le

/-- The key of a report is made of the target and the source. -/
theorem FreshReport.key_eq {record : EvidenceRecord}
    (h : FreshReport evidence current now id record) :
    record.key = { kind := .TargetHealth, subject := EvidenceSubject.of id
                   source := record.key.source } :=
  EvidenceKey.ext h.kind h.subject rfl

theorem mem_observations {record : EvidenceRecord} :
    record ∈ (evidence.fresh_sources .TargetHealth (EvidenceSubject.of id) current now).filterMap
        (fun source => evidence.find
          { kind := .TargetHealth, subject := EvidenceSubject.of id, source }) ↔
      FreshReport evidence current now id record := by
  rw [List.mem_filterMap]
  constructor
  · rintro ⟨source, hsource, hfind⟩
    obtain ⟨report, hreport, rfl⟩ := mem_fresh_sources.mp hsource
    rw [← hreport.key_eq, hreport.held] at hfind
    exact Option.some.inj hfind ▸ hreport
  · intro h
    refine ⟨record.key.source, mem_fresh_sources.mpr ⟨record, h, rfl⟩, ?_⟩
    rw [← h.key_eq]
    exact h.held

theorem serving_iff_mild (health : Health) :
    health.is_serving = true ↔ health_severity health ≤ health_severity .Degraded := by
  cases health <;> decide

/-- The worst of the reports serves just when all of them do. -/
theorem worst_health_serving (rest : List EvidenceRecord) (first : EvidenceRecord) :
    (worst_health rest first).is_serving = true ↔
      ∀ o ∈ first :: rest, o.payload.health.is_serving = true := by
  have hfold : ∀ (observations : List EvidenceRecord) (worst : Health),
      (observations.foldl (fun worst o =>
        if health_severity o.payload.health > health_severity worst then o.payload.health
        else worst) worst).is_serving = true ↔
      worst.is_serving = true ∧ ∀ o ∈ observations, o.payload.health.is_serving = true := by
    intro observations
    induction observations with
    | nil => simp
    | cons o observations ih =>
      intro worst
      rw [List.foldl_cons, ih, List.forall_mem_cons, ← and_assoc]
      refine and_congr_left ?_
      intro _
      simp only [serving_iff_mild]
      by_cases hworse : health_severity o.payload.health > health_severity worst
      · rw [if_pos hworse]
        omega
      · rw [if_neg hworse]
        omega
  rw [worst_health, hfold, List.forall_mem_cons]

end View

namespace ReadinessView

variable {topology : Topology} {evidence : EvidenceStore} {policy : Policy}
  {current : ControllerIncarnation} {now : Nanos} {id : TargetId}

/-- A declared target's health is that of the worst report, once there is one. -/
theorem health_of_build (hdeclared : topology.contains id = true)
    (hsome : ∃ record, FreshReport evidence current now id record) :
    ((build topology evidence policy current now).health_of id).is_serving = true ↔
      ∀ record, FreshReport evidence current now id record →
        record.payload.health.is_serving = true := by
  obtain ⟨record, hrecord⟩ := hsome
  obtain ⟨target, htarget⟩ : ∃ target, topology.targets.find id = some target :=
    Option.isSome_iff_exists.mp hdeclared
  have hid : target.id = id := Table.key_of_find htarget
  have hsources : (evidence.fresh_sources .TargetHealth (EvidenceSubject.of id) current
      now).isEmpty = false := by
    rw [List.isEmpty_eq_false_iff]
    exact List.ne_nil_of_mem (mem_fresh_sources.mpr ⟨record, hrecord, rfl⟩)
  have hmem := mem_observations.mpr hrecord
  unfold health_of get build
  rw [Table.find_mapRows, htarget]
  simp only [Option.map_some, target_readiness, hid, hsources, Bool.false_eq_true, if_false]
  generalize hobservations : (evidence.fresh_sources .TargetHealth (EvidenceSubject.of id) current
    now).filterMap (fun source => evidence.find
      { kind := .TargetHealth, subject := EvidenceSubject.of id, source }) = observations at hmem ⊢
  cases observations with
  | nil => cases hmem
  | cons first rest =>
    simp only
    rw [worst_health_serving, ← hobservations]
    simp only [mem_observations]

theorem is_serving_build (hleast : 1 ≤ policy.min_evidence_sources) :
    (build topology evidence policy current now).is_serving id = true ↔
      (build topology evidence policy current now).is_fresh id = true ∧
      ∀ record, FreshReport evidence current now id record →
        record.payload.health.is_serving = true := by
  rw [is_serving, Bool.and_eq_true]
  refine and_congr_right ?_
  intro hfresh
  obtain ⟨hdeclared, hcount⟩ := is_fresh_build.mp hfresh
  obtain ⟨source, hsource⟩ := List.exists_mem_of_length_pos (hleast.trans hcount)
  obtain ⟨record, hrecord, _⟩ := mem_fresh_sources.mp hsource
  exact health_of_build hdeclared ⟨record, hrecord⟩

/-! ## One more report -/

/-- A report under a new key leaves the others as they are. -/
theorem fresh_report_put_of_ne {record x : EvidenceRecord} (hne : record.key ≠ x.key) :
    FreshReport { evidence with records := evidence.records.put record } current now id x ↔
      FreshReport evidence current now id x := by
  have hfind : ({ evidence with records := evidence.records.put record } : EvidenceStore).find
      x.key = evidence.find x.key := Table.find_put_of_ne _ hne
  have hevaluate : ({ evidence with records := evidence.records.put record } :
      EvidenceStore).evaluate { key := x.key, current, now } =
      evidence.evaluate { key := x.key, current, now } := by
    unfold EvidenceStore.evaluate
    rw [hfind]
  constructor
  · rintro ⟨hheld, hkind, hsubject, hfresh⟩
    exact ⟨hfind ▸ hheld, hkind, hsubject, hevaluate ▸ hfresh⟩
  · rintro ⟨hheld, hkind, hsubject, hfresh⟩
    exact ⟨hfind ▸ hheld, hkind, hsubject, hevaluate ▸ hfresh⟩

/-- Where the new report does not count, the reports are those there were. -/
theorem fresh_report_put {record x : EvidenceRecord} (hnew : evidence.find record.key = none)
    (hidle : ¬ FreshReport { evidence with records := evidence.records.put record } current now id
      record) :
    FreshReport { evidence with records := evidence.records.put record } current now id x ↔
      FreshReport evidence current now id x := by
  by_cases hkey : record.key = x.key
  · constructor
    · intro h
      have hheld := h.held
      rw [← hkey] at hheld
      obtain rfl : record = x := Option.some.inj ((Table.find_put_self _ _).symm.trans hheld)
      exact absurd h hidle
    · intro h
      have hheld := h.held
      rw [← hkey, hnew] at hheld
      cases hheld
  · exact fresh_report_put_of_ne hkey

/-- A report of ill health under a new key takes a target out of service or leaves it. -/
theorem is_serving_put {record : EvidenceRecord} (hleast : 1 ≤ policy.min_evidence_sources)
    (hnew : evidence.find record.key = none) (hill : record.payload.health.is_serving = false)
    (hserving : (build topology { evidence with records := evidence.records.put record } policy
      current now).is_serving id = true) :
    (build topology evidence policy current now).is_serving id = true := by
  obtain ⟨hfresh, hall⟩ := (is_serving_build hleast).mp hserving
  have hidle : ¬ FreshReport { evidence with records := evidence.records.put record } current now
      id record := by
    intro h
    rw [hall record h] at hill
    cases hill
  have hreports := fun x => fresh_report_put (x := x) hnew hidle
  rw [is_serving_build hleast]
  simp only [is_fresh_build, enough_sources_iff, Vouches, hreports] at hfresh hall ⊢
  exact ⟨hfresh, hall⟩

end ReadinessView

/-- A view is the worst of what is reported afresh. -/
theorem readiness_is_worst_case (topology : Topology) (evidence : EvidenceStore) (policy : Policy)
    (current : ControllerIncarnation) (now : Nanos) (hleast : 1 ≤ policy.min_evidence_sources) :
    (∀ id, (ReadinessView.build topology evidence policy current now).is_fresh id = true ↔
      topology.contains id = true ∧ ∃ sources : List SourceId, sources.Nodup ∧
        policy.min_evidence_sources ≤ sources.length ∧
        ∀ source ∈ sources, Vouches evidence current now id source) ∧
    (∀ id, (ReadinessView.build topology evidence policy current now).is_serving id = true ↔
      (ReadinessView.build topology evidence policy current now).is_fresh id = true ∧
        ∀ record, FreshReport evidence current now id record →
          record.payload.health.is_serving = true) ∧
    ∀ record : EvidenceRecord, record.payload.health.is_serving = false →
      (evidence.find record.key = none → ∀ id,
        (ReadinessView.build topology
          { evidence with records := evidence.records.put record } policy
          current now).is_serving id = true →
        (ReadinessView.build topology evidence policy current now).is_serving id = true) ∧
      ∀ evidence' id, evidence.observe record = .ok evidence' → record.key.kind = .TargetHealth →
        record.key.subject = EvidenceSubject.of id →
        (EvidenceStore.judge record { key := record.key, current, now }).fresh = true →
        (ReadinessView.build topology evidence' policy current now).is_serving id = false := by
  refine ⟨?_, fun id => ReadinessView.is_serving_build hleast, ?_⟩
  · intro id
    rw [ReadinessView.is_fresh_build, enough_sources_iff]
  -- One ill report that counts is enough, whatever the other sources say.
  · intro record hill
    refine ⟨fun hnew id => ReadinessView.is_serving_put hleast hnew hill, ?_⟩
    intro evidence' id hobserve hkind hsubject hfresh
    have hheld : evidence'.find record.key = some record := (EvidenceStore.observe_ok hobserve).2.1
    have hreport : FreshReport evidence' current now id record := by
      refine ⟨hheld, hkind, hsubject, ?_⟩
      unfold EvidenceStore.evaluate
      rw [hheld]
      exact hfresh
    rw [Bool.eq_false_iff]
    intro hserving
    have hhealthy := ((ReadinessView.is_serving_build hleast).mp hserving).2 record hreport
    rw [hill] at hhealthy
    cases hhealthy

/-! ### Two sources -/

namespace TwoSources

def switch : TargetId := ⟨.Switch, 1⟩

def topology : Topology :=
  match ({} : Topology).add_target { id := switch } with
  | .ok t => t
  | .error _ => {}

def running : ControllerIncarnation := { controller := ⟨1⟩, boot_epoch := ⟨1⟩, nonce := 1 }

def report (source : Nat) (health : Health) : EvidenceRecord :=
  { id := ⟨1⟩, revision := ⟨1⟩, payload := { health }, observed_by := running
    key := { subject := EvidenceSubject.of switch, source := ⟨source⟩ } }

def evidence : EvidenceStore :=
  { records := (Table.empty.put (report 1 .Healthy)).put (report 2 .Down) }

/-- One of two sources reports the switch down. -/
theorem switch_is_not_serving :
    (ReadinessView.build topology evidence {} running 0).is_fresh switch = true ∧
    ¬ (ReadinessView.build topology evidence {} running 0).is_serving switch = true := by
  have h := readiness_is_worst_case topology evidence {} running 0 (by decide)
  have hreport : ∀ source health, evidence.find (report source health).key =
      some (report source health) →
        FreshReport evidence running 0 switch (report source health) := by
    intro source health hheld
    refine ⟨hheld, rfl, rfl, ?_⟩
    unfold EvidenceStore.evaluate
    rw [hheld]
    rfl
  refine ⟨(h.1 switch).mpr ⟨by decide, [⟨1⟩], by decide, by decide, ?_⟩, ?_⟩
  · intro source hsource
    rw [List.mem_singleton.mp hsource]
    exact ⟨_, hreport 1 .Healthy (by decide), rfl⟩
  · intro hserving
    have hdown := ((h.2.1 switch).mp hserving).2 _ (hreport 2 .Down (by decide))
    cases hdown

end TwoSources

end MaintenanceFabric
