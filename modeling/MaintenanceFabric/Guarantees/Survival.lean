import MaintenanceFabric.Guarantees.Reservation

/-! # Evidence across restarts

    A restart moves the boot epoch on, and a volatile record of an earlier
    epoch is judged foreign from then on.  Class and observer are taken from
    whoever hands the record in: a durable record is not judged by its observer
    at all, and one that names a later epoch of the same controller is not foreign
    to it.
-/

namespace MaintenanceFabric

open Lib

/-- An earlier epoch is fenced, whoever's it is. -/
theorem fenced_of_earlier {recorded current : ControllerIncarnation}
    (h : recorded.boot_epoch < current.boot_epoch) : is_fenced_by recorded current = true := by
  unfold is_fenced_by
  split
  · rfl
  · rw [if_pos (ne_of_lt h)]
    exact decide_eq_true h

/-- A volatile record is fresh for nobody who fences its observer. -/
theorem EvidenceStore.judge_of_fenced {r : EvidenceRecord} {query : EvidenceQuery}
    (hvolatile : r.klass = .Volatile) (hfenced : is_fenced_by r.observed_by query.current = true) :
    (judge r query).fresh = false := by
  by_contra hfresh
  obtain ⟨_, _, _, hnot, _⟩ := judge_fresh.mp (Bool.of_not_eq_false hfresh)
  exact hnot ⟨hvolatile, hfenced⟩

/-- What the controller fills in of a record it is handed. -/
theorem Controller.completed_evidence_origin (c : Controller) (e : EvidenceRecord) :
    (c.completed_evidence e).1.klass = e.klass ∧
    ((c.completed_evidence e).1.observed_by = e.observed_by ∨
      (c.completed_evidence e).1.observed_by = c.incarnation) := by
  unfold completed_evidence
  simp only
  by_cases hvalid : e.observed_by.valid = true
  · rw [if_pos hvalid]
    split <;> split <;> exact ⟨rfl, .inl rfl⟩
  · rw [if_neg hvalid]
    split <;> split <;> exact ⟨rfl, .inr rfl⟩

namespace System

/-- After a restart the running process has an epoch that nothing before it had. -/
theorem restarted_epoch (events more : List Event) (hrestart : ∃ x ∈ more, x.restarts = true)
    (hup : (initial.run (events ++ more)).up = true) :
    (initial.run events).ctl.world.epoch <
      (initial.run (events ++ more)).ctl.incarnation.boot_epoch := by
  induction more using List.reverseRecOn with
  | nil =>
    obtain ⟨_, hx, _⟩ := hrestart
    cases hx
  | append_singleton more x ih =>
    rw [← List.append_assoc, run_snoc] at hup ⊢
    have hs := sound_run (events ++ more)
    have hgrown := epoch_run events more
    generalize initial.run (events ++ more) = s at *
    cases hlast : x.restarts with
    | true =>
      -- The last restart has succeeded, and claimed the next epoch.
      obtain ⟨options, clock, steady, label⟩ := restarts_spec hlast
      have hstep : s.step x = restart { s with ctl := under s.ctl x.verdicts }
        options clock steady := by
        unfold step
        simp only [label]
      rw [hstep] at hup ⊢
      have hnew := Controller.epoch_open (c := under s.ctl x.verdicts) hup
      show (initial.run events).ctl.world.epoch <
        (Controller.open (under s.ctl x.verdicts).store options clock
          steady).2.incarnation.boot_epoch
      rw [hnew]
      exact lt_of_le_of_lt hgrown (Nat.lt_succ_self _)
    | false =>
      rw [step_up hlast] at hup
      have hkept := (changes_step hs x).incarnation_eq (by
        intro hr
        rw [license_restarts hr] at hlast
        cases hlast)
      rw [show (s.step x).ctl.incarnation = s.ctl.incarnation from hkept]
      refine ih ?_ hup
      obtain ⟨y, hy, hyrestarts⟩ := hrestart
      rcases List.mem_append.mp hy with hy | hy
      · exact ⟨y, hy, hyrestarts⟩
      · rw [List.mem_singleton.mp hy, hlast] at hyrestarts
        cases hyrestarts

/-- A record that is handed in as volatile, from an observer of no later epoch or of another
    controller, is fresh for no query of any process that comes up later. -/
theorem evidence_fenced_by_restart (events : List Event) (evidence : EvidenceRecord)
    (verdicts : List (Option JournalFault)) (more : List Event)
    (hvolatile : evidence.klass = .Volatile)
    (hrestart : ∃ x ∈ more, x.restarts = true)
    (hup : (initial.run (events ++ [⟨.observe evidence, verdicts⟩] ++ more)).up = true)
    (query : EvidenceQuery)
    (hquery : query.current =
      (initial.run (events ++ [⟨.observe evidence, verdicts⟩] ++ more)).ctl.incarnation)
    (hobserver : evidence.observed_by.boot_epoch ≤
        (initial.run events).ctl.incarnation.boot_epoch ∨
      evidence.observed_by.controller ≠ query.current.controller) :
    (EvidenceStore.judge ((under (initial.run events).ctl verdicts).completed_evidence evidence).1
      query).state ≠ .Fresh ∧
    ((initial.run (events ++ [⟨.observe evidence, verdicts⟩] ++ more)).ctl.store.state.evidence.find
        query.key = some ((under (initial.run events).ctl verdicts).completed_evidence evidence).1 →
      ((initial.run (events ++ [⟨.observe evidence, verdicts⟩] ++
        more)).ctl.store.state.evidence.evaluate query).state ≠ .Fresh) := by
  obtain ⟨hklass, hobserved⟩ :=
    (under (initial.run events).ctl verdicts).completed_evidence_origin evidence
  generalize ((under (initial.run events).ctl verdicts).completed_evidence evidence).1 = r at *
  have hrunning : (initial.run events).ctl.incarnation.boot_epoch ≤
      (initial.run events).ctl.world.epoch := (sound_run events).world.epoch
  have hnew := restarted_epoch (events ++ [⟨.observe evidence, verdicts⟩]) more hrestart hup
  -- The process that is up now has a later epoch than every one before the restart.
  have hfences : ∀ observer : ControllerIncarnation,
      observer.boot_epoch ≤ (initial.run events).ctl.incarnation.boot_epoch →
      is_fenced_by observer query.current = true := by
    intro observer hle
    refine fenced_of_earlier ?_
    rw [hquery]
    exact lt_of_le_of_lt ((hle.trans hrunning).trans (epoch_run events _)) hnew
  have hfenced : is_fenced_by r.observed_by query.current = true := by
    rcases hobserved with heq | heq
    · rw [heq]
      rcases hobserver with hle | hother
      · exact hfences _ hle
      · exact if_pos hother
    · rw [heq]
      exact hfences _ (le_refl _)
  have hjudged := EvidenceStore.judge_of_fenced (hklass.trans hvolatile) hfenced
  refine ⟨?_, ?_⟩
  · intro hfresh
    rw [Freshness.fresh, hfresh] at hjudged
    cases hjudged
  · intro hfind hfresh
    rw [← EvidenceStore.evaluate_fresh hfind, Freshness.fresh, hfresh] at hjudged
    cases hjudged

end System

namespace Drill

/-- A health record of the switch, of any class and observer. -/
def sighting (klass : EvidenceClass) (observed_by : ControllerIncarnation) : EvidenceRecord :=
  { key := { kind := .TargetHealth, subject := EvidenceSubject.of switch, source := ⟨1⟩ }
    revision := ⟨1⟩, observed_at := 0, klass, observed_by, payload := { health := .Healthy } }

/-- The first process takes the record, and is followed by a second. -/
def reboot (record : EvidenceRecord) : List Event :=
  [boot 0] ++ [call (.observe record)] ++ [boot (ms 100)]

/-- What the second process makes of it. -/
def query : EvidenceQuery :=
  { key := (sighting .Volatile {}).key
    current := { controller := ⟨1⟩, boot_epoch := ⟨2⟩, nonce := 7 }, now := ms 100 }

end Drill

namespace System

/-- A health record of the first process is foreign to the second. -/
theorem evidence_fenced_in_reboot :
    ((initial.run (Drill.reboot (Drill.sighting .Volatile {}))).ctl.store.state.evidence.evaluate
      Drill.query).state ≠ .Fresh := by
  refine (evidence_fenced_by_restart [Drill.boot 0] (Drill.sighting .Volatile {}) []
    [Drill.boot (Drill.ms 100)] rfl ⟨_, List.mem_singleton_self _, rfl⟩ (by decide +kernel)
    Drill.query (by decide +kernel) (.inl (by decide +kernel))).2 ?_
  decide +kernel

/-- A durable record survives, and so does a volatile one that names the process to come. -/
theorem evidence_fresh_after_reboot :
    (∀ kind, default_evidence_class kind = .Volatile) ∧
    ∀ record ∈ [Drill.sighting .Durable {}, Drill.sighting .Volatile Drill.query.current],
      ((initial.run [Drill.boot 0]).ctl.observe record).1 = ok_status ∧
      (initial.run (Drill.reboot record)).up = true ∧
      (initial.run (Drill.reboot record)).ctl.incarnation = Drill.query.current ∧
      ((initial.run (Drill.reboot record)).ctl.store.state.evidence.evaluate Drill.query).state =
        .Fresh := by
  refine ⟨fun _ => rfl, ?_⟩
  decide +kernel

end System

end MaintenanceFabric
