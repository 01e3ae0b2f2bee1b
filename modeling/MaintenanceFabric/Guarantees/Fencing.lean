import MaintenanceFabric.Guarantees.Lifecycle

/-! # Fenced attempts

    An attempt is the token of everything that is reported about a job from
    outside.  Tokens are minted in ascending order and never reused, so one
    that has stopped being active is refused for ever, in whatever state it
    still arrives.
-/

namespace MaintenanceFabric

open Lib

namespace Controller

variable {c : Controller} {job : JobId} {attempt : AttemptId}

/-- A report with a token that is not the job's active one changes nothing at all. -/
theorem report_completion_refused (h : ∀ j, c.store.state.jobs.find job = some j →
    j.active_attempt ≠ attempt) (succeeded : Bool) (detail : Text) (now : Nanos) :
    ∃ e, c.report_completion job attempt succeeded detail now = (.error e, c) := by
  unfold report_completion
  split
  · exact ⟨_, rfl⟩
  · next j hj =>
    split
    · exact ⟨_, rfl⟩
    · next htoken => exact absurd (check_token_ok htoken).1.symm (h j hj)

theorem report_restoration_refused (h : ∀ j, c.store.state.jobs.find job = some j →
    j.active_attempt ≠ attempt)
    (target : TargetId) (restored : Bool) (detail : Text) (now : Nanos) :
    ∃ e, c.report_restoration job attempt target restored detail now = (.error e, c) := by
  unfold report_restoration
  split
  · exact ⟨_, rfl⟩
  · next j hj =>
    split
    · exact ⟨_, rfl⟩
    · next htoken => exact absurd (check_token_ok htoken).1.symm (h j hj)

/-- The answer to a request of a fenced attempt reaches no job. -/
theorem apply_outcome_fenced {action : DrainAction} (hkind : action.kind = .Request)
    (h : ∀ j, c.store.state.jobs.find action.job = some j → j.active_attempt ≠ action.attempt)
    (response : DrainResponse) (now : Nanos) :
    (c.apply_outcome action response now).world = c.world := by
  have hstale : ({ c with drain_inflight := c.drain_inflight.filter (· ≠ action.job) } :
      Controller).drain_stale action = true := by
    unfold drain_stale
    split
    · rfl
    · next j hj => rw [decide_eq_true (h j hj), Bool.or_true]
  unfold apply_outcome
  simp only [hkind, hstale, if_true]
  exact world_apply_stale _ _ _

end Controller

namespace System

variable {s : System} {a : AttemptId}

/-- The token has been handed out and is not the active one. -/
def Fenced (s : System) (a : AttemptId) : Prop :=
  a.valid = true ∧ ∃ j, s.job a.job = some j ∧ a.ordinal < j.next_attempt ∧ j.active_attempt ≠ a

theorem Sound.fenced_run (h : s.Sound) (hf : Fenced s a) (events : List Event) :
    Fenced (s.run events) a := by
  obtain ⟨hvalid, j, hj, hminted, hgone⟩ := hf
  obtain ⟨j', hj', hadvance⟩ := h.advance_run events hj
  obtain ⟨hminted', hgone'⟩ := hadvance.fenced hvalid hminted hgone
  exact ⟨hvalid, j', hj', hminted', hgone'⟩

/-- A fenced token is not active in any job. -/
theorem Sound.fenced_idle (h : s.Sound) (hf : Fenced s a) {id : JobId} {j : MaintenanceJob}
    (hj : s.job id = some j) : j.active_attempt ≠ a := by
  obtain ⟨hvalid, k, hk, _, hgone⟩ := hf
  intro hactive
  have hown : j.active_attempt.valid = true → j.active_attempt.job = j.id :=
    fun hv => ((h.world.job hj).own hv).1
  rw [hactive] at hown
  have hid : a.job = id := (hown hvalid).trans (Table.key_of_find hj)
  rw [hid, hj] at hk
  cases hk
  exact hgone hactive

/-- A call that leaves the controller as it is leaves the committed state as it is. -/
theorem step_of_refused {e : Event}
    (hcall : ∀ ctl, (under s.ctl e.verdicts).call e.label = some ctl →
      ctl = under s.ctl e.verdicts) (hlabel : (s.ctl.call e.label).isSome = true) :
    (s.step e).ctl.store.state = s.ctl.store.state := by
  have hdid := s.step_did e
  generalize s.step e = s' at hdid
  cases hdid with
  | nothing => rfl
  | called _ _ call =>
    rw [hcall _ call]
    rfl
  | restarted label => rw [label] at hlabel; cases hlabel
  | drove label _ _ _ => rw [label] at hlabel; cases hlabel
  | closed label _ _ _ => rw [label] at hlabel; cases hlabel
  | ticked label _ _ _ => rw [label] at hlabel; cases hlabel
  | began label _ _ _ _ => rw [label] at hlabel; cases hlabel
  | marked label _ _ _ _ => rw [label] at hlabel; cases hlabel
  | answered label _ _ _ _ => rw [label] at hlabel; cases hlabel
  | finished label _ _ _ _ => rw [label] at hlabel; cases hlabel

/-- What a fenced token can still do: nothing. -/
structure Ineffective (s : System) (a : AttemptId) : Prop where
  idle : ∀ id j, s.job id = some j → j.active_attempt ≠ a
  completion : ∀ job succeeded detail clock verdicts,
    (∃ e, ((under s.ctl verdicts).report_completion job a succeeded detail clock).1 = .error e) ∧
    (s.step ⟨.report_completion job a succeeded detail clock, verdicts⟩).ctl.store.state =
      s.ctl.store.state
  restoration : ∀ job target restored detail clock verdicts,
    (∃ e, ((under s.ctl verdicts).report_restoration job a target restored detail clock).1 =
      .error e) ∧
    (s.step ⟨.report_restoration job a target restored detail clock, verdicts⟩).ctl.store.state =
      s.ctl.store.state
  outcome : ∀ thread t action rest answer verdicts, s.threads.find thread = some t →
    t.actions = action :: rest → action.kind = .Request → action.attempt = a →
    (s.step ⟨.outcome thread answer, verdicts⟩).ctl.store.state.jobs.jobs =
      s.ctl.store.state.jobs.jobs

theorem Sound.ineffective (h : s.Sound) (hf : Fenced s a) : Ineffective s a := by
  have hidle : ∀ id j, s.job id = some j → j.active_attempt ≠ a := fun _ _ hj => h.fenced_idle hf hj
  refine ⟨hidle, ?_, ?_, ?_⟩
  · intro job succeeded detail clock verdicts
    obtain ⟨err, hrefused⟩ := Controller.report_completion_refused
      (c := under s.ctl verdicts) (hidle job) succeeded detail clock
    refine ⟨⟨err, congrArg Prod.fst hrefused⟩, step_of_refused ?_ rfl⟩
    intro ctl hctl
    exact (Option.some.inj hctl).symm.trans (congrArg Prod.snd hrefused)
  · intro job target restored detail clock verdicts
    obtain ⟨err, hrefused⟩ := Controller.report_restoration_refused
      (c := under s.ctl verdicts) (hidle job) target restored detail clock
    refine ⟨⟨err, congrArg Prod.fst hrefused⟩, step_of_refused ?_ rfl⟩
    intro ctl hctl
    exact (Option.some.inj hctl).symm.trans (congrArg Prod.snd hrefused)
  · intro thread t action rest answer verdicts found actions hkind hattempt
    have hdid := s.step_did ⟨.outcome thread answer, verdicts⟩
    generalize s.step _ = s' at hdid
    -- The step is the answer to the action at the head of its thread, or nothing.
    cases hdid with
    | nothing => rfl
    | @answered thread' answer' t' action' rest' label _ _ found' actions' =>
      cases label
      cases Option.some.inj (found.symm.trans found')
      cases List.cons.inj (actions.symm.trans actions') with
      | intro haction _ =>
        subst haction
        have hw := Controller.apply_outcome_fenced (c := under s.ctl verdicts) hkind
          (fun j hj => hattempt.symm ▸ hidle _ j hj) (Controller.perform_action action answer) t.now
        exact congrArg (fun w : World => w.jobs) hw
    | restarted label => cases label
    | drove label _ _ _ => cases label
    | closed label _ _ _ => cases label
    | ticked label _ _ _ => cases label
    | began label _ _ _ _ => cases label
    | marked label _ _ _ _ => cases label
    | finished label _ _ _ _ => cases label
    | called _ _ call => cases call

/-- Attempts over whole runs: the counter only grows, an active attempt is the job's own, and
    one that has stopped being active stays without effect. -/
theorem attempts_stay_fenced (events : List Event) (id : JobId) (j : MaintenanceJob)
    (hj : (initial.run events).job id = some j) :
    (j.active_attempt.valid = true →
      j.active_attempt.job = id ∧ j.active_attempt.generation = j.generation) ∧
    ∀ more, ∃ j', (initial.run (events ++ more)).job id = some j' ∧
      j.next_attempt ≤ j'.next_attempt ∧
      (j.active_attempt.valid = true → j'.active_attempt ≠ j.active_attempt →
        ∀ later, Ineffective (initial.run (events ++ more ++ later)) j.active_attempt) := by
  have hs := sound_run events
  have hid : j.id = id := Table.key_of_find hj
  have hown : j.active_attempt.valid = true → j.active_attempt.job = j.id ∧
      j.active_attempt.generation = j.generation ∧ j.active_attempt.ordinal < j.next_attempt :=
    (hs.world.job hj).own
  refine ⟨fun hv => ⟨(hown hv).1.trans hid, (hown hv).2.1⟩, ?_⟩
  intro more
  obtain ⟨j', hj', hadvance⟩ := hs.advance_run more hj
  rw [run_append]
  refine ⟨j', hj', hadvance.next_attempt, ?_⟩
  intro hv hgone later
  have hfenced : Fenced ((initial.run events).run more) j.active_attempt := by
    refine ⟨hv, j', ?_, lt_of_lt_of_le (hown hv).2.2 hadvance.next_attempt, hgone⟩
    rw [(hown hv).1, hid]
    exact hj'
  have hs' := hs.run_sound more
  rw [run_append, run_append]
  exact (hs'.run_sound later).ineffective (hs'.fenced_run hfenced later)

/-- The first attempt of a job in maintenance, once a restart has replaced it, and a second
    restart after that. -/
theorem attempts_stay_fenced_after_restart :
    Ineffective (initial.run (Drill.started ++ [Drill.boot (Drill.ms 300)] ++
      [Drill.boot (Drill.ms 400)])) { job := ⟨1⟩, generation := ⟨1⟩, ordinal := ⟨1⟩ } := by
  obtain ⟨j, hj, hfirst⟩ := job_of_field (initial.run Drill.started) ⟨1⟩
    MaintenanceJob.active_attempt (a := { job := ⟨1⟩, generation := ⟨1⟩, ordinal := ⟨1⟩ })
    (by decide +kernel)
  obtain ⟨k, hk, hsecond⟩ := job_of_field
    (initial.run (Drill.started ++ [Drill.boot (Drill.ms 300)])) ⟨1⟩
    MaintenanceJob.active_attempt (a := { job := ⟨1⟩, generation := ⟨1⟩, ordinal := ⟨2⟩ })
    (by decide +kernel)
  obtain ⟨j', hj', _, hfenced⟩ :=
    (attempts_stay_fenced Drill.started ⟨1⟩ j hj).2 [Drill.boot (Drill.ms 300)]
  rw [hk] at hj'
  cases hj'
  rw [hfirst, hsecond] at hfenced
  exact hfenced (by decide) (by decide) [Drill.boot (Drill.ms 400)]

end System

end MaintenanceFabric
