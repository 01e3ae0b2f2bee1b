import MaintenanceFabric.Guarantees.Reservation

/-! # Revisions of the controller's own evidence

    Evidence is fenced by revision: a record that does not advance the stored
    one is refused.  What the controller writes itself takes its revision from a
    counter in memory, which starts again with the process, while the records it
    has to exceed are recovered from the journal.  Under a key that nobody else
    writes the counter stays ahead for as long as the process lives, and falls
    behind only by a restart that finds a record there.
-/

namespace MaintenanceFabric

open Lib

/-! ## The counter is ahead -/

/-- A record is refused as stale only for the sake of one already stored. -/
theorem EvidenceStore.observe_stale {s : EvidenceStore} {r : EvidenceRecord} {e : Error}
    (h : s.observe r = .error e) (hcode : e.code = .StaleRevision) :
    ∃ old, s.find r.key = some old ∧ r.revision ≤ old.revision := by
  unfold observe at h
  split at h
  · cases h
    cases hcode
  · split at h
    · next old hfind =>
      split at h
      · next hle => exact ⟨old, hfind, hle⟩
      · split at h
        · cases h
          cases hcode
        · cases h
    · split at h
      · split at h
        · cases h
        · cases h
          cases hcode
      · cases h

/-- Under this key the counter has reached the stored revision, and nothing written so far has
    been refused as stale. -/
structure World.Ahead (w : World) (key : EvidenceKey) : Prop where
  stored : ∀ old, w.evidence.find key = some old → old.revision ≤ ⟨w.counter⟩
  written : ∀ e, (key, .error e) ∈ w.written → e.code ≠ .StaleRevision

variable {L : License} {w w' : World} {key : EvidenceKey}

/-- Whatever the store answers, a write of the controller's own leaves the counter ahead. -/
theorem World.Ahead.authored (h : w.Ahead key) {r : EvidenceRecord} {answer : Status}
    {evidence : EvidenceStore} (revision : r.revision = ⟨w.counter + 1⟩)
    (answered : Answer w.evidence r answer evidence) :
    ({ w with evidence, counter := w.counter + 1, written := w.written ++ [(r.key, answer)] } :
      World).Ahead key := by
  have hnext : (⟨w.counter⟩ : Revision) ≤ ⟨w.counter + 1⟩ := StrongId.le_iff.mpr (Nat.le_succ _)
  cases answered with
  | accepted hok =>
    obtain ⟨_, _, _, _, hfind⟩ := EvidenceStore.observe_ok hok
    refine ⟨?_, ?_⟩
    · intro old hold
      rcases hfind key old hold with ⟨_, rfl⟩ | ⟨_, hold⟩
      · exact le_of_eq revision
      · exact (h.stored old hold).trans hnext
    · intro e he
      rcases List.mem_append.mp he with he | he
      · exact h.written e he
      · cases List.mem_singleton.mp he
  | @refused error hstale =>
    refine ⟨fun old hold => (h.stored old hold).trans hnext, ?_⟩
    intro e he
    rcases List.mem_append.mp he with he | he
    · exact h.written e he
    · cases List.mem_singleton.mp he
      intro hcode
      obtain ⟨e', hrefused, hcode'⟩ := hstale hcode
      obtain ⟨old, hold, hle⟩ := EvidenceStore.observe_stale hrefused hcode'
      -- The stored revision is at most the counter, and the new one exceeds it.
      have hbad := hle.trans (h.stored old hold)
      rw [revision] at hbad
      exact absurd (StrongId.le_iff.mp hbad) (Nat.not_succ_le_self _)

theorem World.Ahead.change (h : w.Ahead key) (hchange : Change L w w') (hrestart : ¬ L.restarts)
    (hkey : ∀ r, L.observes r → r.key ≠ key) : w'.Ahead key := by
  cases hchange with
  | authored revision _ answered => exact h.authored revision answered
  | observed licensed accepted =>
    obtain ⟨_, _, _, _, hfind⟩ := EvidenceStore.observe_ok accepted
    refine ⟨?_, h.written⟩
    intro old hold
    rcases hfind key old hold with ⟨heq, _⟩ | ⟨_, hold⟩
    · exact absurd heq.symm (hkey _ licensed)
    · exact h.stored old hold
  | reopened _ _ licensed _ => exact absurd licensed hrestart
  | halted _ licensed => exact absurd licensed hrestart
  | _ => exact ⟨h.stored, h.written⟩

/-- A restart that finds nothing under the key loses nothing. -/
theorem Changes.ahead_restart (h : Changes restart_license w w') (hahead : w.Ahead key)
    (hnone : w.evidence.find key = none) : w'.Ahead key := by
  have hboth : w'.Ahead key ∧ w'.evidence.find key = none := by
    refine h.preserves (P := fun w => w.Ahead key ∧ w.evidence.find key = none) ?_ ⟨hahead, hnone⟩
    intro a b hab hchange
    obtain ⟨ha, hnone⟩ := hab
    have fresh : ∀ {x : World}, x.evidence.find key = none → x.written = [] →
        x.Ahead key ∧ x.evidence.find key = none := by
      intro x hx hwritten
      refine ⟨⟨?_, ?_⟩, hx⟩
      · intro old hold
        rw [hx] at hold
        cases hold
      · intro e he
        rw [hwritten] at he
        cases he
    cases hchange with
    | authored _ licensed _ => exact licensed.elim
    | observed licensed _ => exact licensed.elim
    | reopened _ _ _ _ => exact fresh hnone rfl
    | halted _ _ => exact fresh hnone rfl
    | _ => exact ⟨⟨ha.stored, ha.written⟩, hnone⟩
  exact hboth.1

theorem Changes.ahead (h : Changes L w w') (hahead : w.Ahead key) (hrestart : ¬ L.restarts)
    (hkey : ∀ r, L.observes r → r.key ≠ key) : w'.Ahead key :=
  h.preserves (P := fun w => w.Ahead key)
    (fun _ _ ha hchange => ha.change hchange hrestart hkey) hahead

/-! ## Reports -/

namespace Controller

def completion_key (t : TargetId) : EvidenceKey :=
  { kind := .MaintenanceCompletion, subject := EvidenceSubject.of t, source := ⟨1⟩ }

/-- The refusal that stops a report is in the log. -/
theorem record_completion_error {job : JobId} {attempt : AttemptId} {succeeded : Bool} {now : Nanos}
    {targets : List TargetId} {c : Controller} {e : Error}
    (h : (record_completion job attempt succeeded now c targets).1 = .error e) :
    ∃ t ∈ targets, (completion_key t, .error e) ∈
      (record_completion job attempt succeeded now c targets).2.written := by
  induction targets generalizing c with
  | nil => cases h
  | cons target rest ih =>
    have hlog : (c.author_evidence .MaintenanceCompletion target ⟨1⟩ now
        { result := succeeded, health := if succeeded then .Degraded else .Down } job
        attempt).2.written = c.written ++ [(completion_key target, (c.author_evidence
          .MaintenanceCompletion target ⟨1⟩ now
          { result := succeeded, health := if succeeded then .Degraded else .Down } job
          attempt).1)] := rfl
    unfold record_completion at h ⊢
    generalize c.author_evidence .MaintenanceCompletion target ⟨1⟩ now
      { result := succeeded, health := if succeeded then .Degraded else .Down } job attempt =
        written
      at h hlog ⊢
    obtain ⟨status, c'⟩ := written
    cases status with
    | error e' =>
      cases h
      refine ⟨target, List.mem_cons_self, ?_⟩
      simp only at hlog ⊢
      rw [hlog]
      exact List.mem_append_right _ (List.mem_singleton_self _)
    | ok _ =>
      obtain ⟨t, ht, hmem⟩ := ih h
      exact ⟨t, List.mem_cons_of_mem _ ht, hmem⟩

/-- A commit under the lock is never refused for its revision. -/
theorem commit_job_locked_code {c : Controller} {job : MaintenanceJob} {now : Nanos} {e : Error}
    (h : (c.commit_job_locked job now).1 = .error e) : e.code ≠ .StaleRevision := by
  unfold commit_job_locked at h
  split at h
  · cases h
    exact ErrorCode.noConfusion
  · next current hfind =>
    simp only [Store.commit_job] at h
    have hput : ∃ table, c.store.state.jobs.put
      (revised job current.revision.next now) = .ok table := by
      unfold JobTable.put
      rw [show c.store.state.jobs.find (revised job current.revision.next now).id = some current
        from hfind]
      simp [revised]
    obtain ⟨table, hput⟩ := hput
    rw [hput] at h
    simp only at h
    split at h
    · next heq =>
      cases h
      exact Store.append_and_flush_error heq
    · split at h
      · cases h
        exact ErrorCode.noConfusion
      · cases h

theorem check_token_code {what : Text} {current : MaintenanceJob} {attempt : AttemptId} {e : Error}
    (h : check_token what current attempt = .error e) : e.code ≠ .StaleRevision := by
  unfold check_token refuse_if at h
  split at h
  · cases h
    exact ErrorCode.noConfusion
  · change (if _ then _ else _) = _ at h
    split at h
    · cases h
      exact ErrorCode.noConfusion
    · cases h

/-- A completion report is turned down as stale only by the evidence store. -/
theorem report_completion_stale {c : Controller} {job : JobId} {attempt : AttemptId}
    {succeeded : Bool} {detail : Text} {now : Nanos} {e : Error}
    (h : (c.report_completion job attempt succeeded detail now).1 = .error e)
    (hcode : e.code = .StaleRevision) :
    ∃ j, c.store.state.jobs.find job = some j ∧ ∃ t ∈ j.removal_set,
      (completion_key t, .error e) ∈
        (c.report_completion job attempt succeeded detail now).2.written := by
  unfold report_completion at h ⊢
  split at h
  · cases h
    cases hcode
  · next j hfind =>
    refine ⟨j, hfind, ?_⟩
    split at h
    · next htoken =>
      cases h
      exact absurd hcode (check_token_code htoken)
    · split at h
      · cases h
        cases hcode
      · next hstate =>
        rw [if_neg hstate]
        split at h
        · next heq =>
          cases h
          have hlog := record_completion_error (congrArg Prod.fst heq)
          rw [heq] at hlog
          exact hlog
        · exact absurd hcode (commit_job_locked_code h)

end Controller

/-! ## Runs -/

namespace System

variable {s : System} {e : Event} {keys : List EvidenceKey}

/-- Nobody else writes under these keys, and a restart finds nothing there. -/
def Undisturbed (keys : List EvidenceKey) (s : System) (e : Event) : Prop :=
  (∀ record ∈ e.observed, record.key ∉ keys) ∧
  (e.restarts = true → ∀ key ∈ keys, (s.ctl.store.state.evidence.find key).isNone = true)

instance (keys : List EvidenceKey) (s : System) (e : Event) : Decidable (Undisturbed keys s e) :=
  inferInstanceAs (Decidable (_ ∧ _))

theorem Sound.ahead_step (h : s.Sound) (hcond : Undisturbed keys s e) {key : EvidenceKey}
    (hkey : key ∈ keys) (hahead : s.ctl.world.Ahead key) : (s.step e).ctl.world.Ahead key := by
  have hchanges := changes_step h e
  cases hrestart : e.restarts with
  | true =>
    obtain ⟨options, clock, steady, label⟩ := restarts_spec hrestart
    have hlicense : s.license e = restart_license := by
      unfold license
      simp only [label]
    rw [hlicense] at hchanges
    exact hchanges.ahead_restart hahead (Option.isNone_iff_eq_none.mp (hcond.2 hrestart key hkey))
  | false =>
    refine hchanges.ahead hahead ?_ ?_
    · intro hr
      rw [license_restarts hr] at hrestart
      cases hrestart
    · intro r hr heq
      obtain ⟨record, hrecord, hsame, _⟩ := license_observes hr
      exact hcond.1 record hrecord (hsame ▸ heq ▸ hkey)

theorem ahead_run {events : List Event} (hcond : Along step (Undisturbed keys) initial events)
    {key : EvidenceKey} (hkey : key ∈ keys) : (initial.run events).ctl.world.Ahead key := by
  have hboth : (initial.run events).Sound ∧ (initial.run events).ctl.world.Ahead key := by
    refine hcond.invariant (I := fun s => s.Sound ∧ s.ctl.world.Ahead key) ?_ ⟨sound_initial, ?_⟩
    · intro s e hc hs
      exact ⟨hs.1.step e, hs.1.ahead_step hc hkey hs.2⟩
    · exact ⟨fun _ hold => (by cases hold), fun _ he => (by cases he)⟩
  exact hboth.2

/-- Along a run that leaves these keys to the controller, and that restarts only while nothing is
    stored under them, no write under one of them is refused as stale, and no completion report
    either. -/
theorem own_evidence_never_stale (keys : List EvidenceKey) (events : List Event)
    (hcond : Along step (Undisturbed keys) initial events) :
    (∀ key ∈ keys, ∀ error, (key, .error error) ∈ (initial.run events).ctl.written →
      error.code ≠ .StaleRevision) ∧
    ∀ job j attempt succeeded detail clock verdicts error,
      (initial.run events).job job = some j →
      (∀ t ∈ j.removal_set, Controller.completion_key t ∈ keys) →
      ((under (initial.run events).ctl verdicts).report_completion job attempt succeeded detail
        clock).1 = .error error → error.code ≠ .StaleRevision := by
  refine ⟨fun key hkey => (ahead_run hcond hkey).written, ?_⟩
  intro job j attempt succeeded detail clock verdicts error hj hkeys herror hcode
  have hs := sound_run events
  obtain ⟨x, hx, t, ht, hlog⟩ := Controller.report_completion_stale herror hcode
  cases Option.some.inj (hj.symm.trans hx)
  -- The log after the report says what the evidence store answered.
  have hchanges := Controller.changes_call (under (initial.run events).ctl verdicts)
    (.report_completion job attempt succeeded detail clock) rfl
    (fun _ _ hfind hvalid => hs.world.alive_of_attempt hfind hvalid)
  have hahead := hchanges.ahead (ahead_run hcond (hkeys t ht)) (fun hr => hr) (by
    intro r hr
    obtain ⟨_, label, _⟩ := hr
    cases label)
  exact hahead.written error hlog hcode

end System

/-! ## A report after a restart -/

namespace Drill

/-- Job 1 is reported done and runs to its end. -/
def completed : List Event :=
  started ++ [report 1 true (ms 210)] ++ tick (ms 300) 1 ++ tick (ms 400) 1 ++ tick (ms 500) 1

/-- The controller restarts, and job 2 takes the same switch into maintenance. -/
def successor : List Event :=
  completed ++ [boot (ms 600), health 2 (ms 600), approve 2 (ms 600)] ++ tick (ms 600) 1 ++
    tick (ms 700) 1 ++ tick (ms 800) 1

end Drill

namespace System

/-- Before any restart the report on job 1 is written, and not refused. -/
theorem own_evidence_fresh_before_restart :
    Controller.completion_key Drill.switch ∈
      (initial.run Drill.completed).ctl.written.map Prod.fst ∧
      ¬ ∃ error, (Controller.completion_key Drill.switch, .error error) ∈
        (initial.run Drill.completed).ctl.written ∧ error.code = .StaleRevision := by
  refine ⟨by decide +kernel, ?_⟩
  intro h
  obtain ⟨error, hlog, hcode⟩ := h
  exact (own_evidence_never_stale [Controller.completion_key Drill.switch] Drill.completed
    (by decide +kernel)).1 _ List.mem_cons_self error hlog hcode

theorem error_of_code {x : Status} {c : ErrorCode}
    (h : (match x with | .error e => decide (e.code = c) | .ok _ => false) = true) :
    ∃ e, e.code = c ∧ x = .error e := by
  cases x with
  | error e => exact ⟨e, of_decide_eq_true h, rfl⟩
  | ok _ => cases h

/-- After the restart the report on job 2, under its active attempt, is refused as stale: the
    counter has started again and the record about job 1 is still there. -/
theorem report_stale_after_restart :
    (∀ e ∈ Drill.successor, ∀ record ∈ e.observed,
      record.key ≠ Controller.completion_key Drill.switch) ∧
    ((initial.run Drill.successor).job ⟨2⟩).map (fun j => (j.state, j.active_attempt)) =
      some (.InMaintenance, Drill.first 2) ∧
    ∃ error, error.code = .StaleRevision ∧
      ((initial.run Drill.successor).ctl.report_completion ⟨2⟩ (Drill.first 2) true []
        (Drill.ms 900)).1 = .error error ∧
      (Controller.completion_key Drill.switch, .error error) ∈
        ((initial.run Drill.successor).ctl.report_completion ⟨2⟩ (Drill.first 2) true []
          (Drill.ms 900)).2.written := by
  refine ⟨by decide +kernel, by decide +kernel, ?_⟩
  obtain ⟨j, hj, hscope⟩ :=
    job_of_field (initial.run Drill.successor) ⟨2⟩ MaintenanceJob.removal_set
    (a := [Drill.switch]) (by decide +kernel)
  obtain ⟨error, hcode, hrefused⟩ : ∃ error, error.code = .StaleRevision ∧
      ((initial.run Drill.successor).ctl.report_completion ⟨2⟩ (Drill.first 2) true []
        (Drill.ms 900)).1 = .error error := error_of_code (by decide +kernel)
  refine ⟨error, hcode, hrefused, ?_⟩
  obtain ⟨x, hx, t, ht, hlog⟩ := Controller.report_completion_stale hrefused hcode
  cases Option.some.inj (hj.symm.trans hx)
  rw [hscope, List.mem_singleton] at ht
  rw [← ht]
  exact hlog

end System

end MaintenanceFabric
