import MaintenanceFabric.Guarantees.Rearming
import MaintenanceFabric.Guarantees.Start
import MaintenanceFabric.Runtime.Bindings
import MaintenanceFabric.Runtime.Departures

/-! # Approval

    A proposed job waits for `approve`, which marks it as approved and hands it
    to validation.  Nothing after that looks at the mark again.  `rearm` is
    meant for a blocked job, takes a proposed one as well, and hands it to
    validation without the mark.
-/

namespace MaintenanceFabric

open Lib

/-- A job that waits for its approval, or has been withdrawn. -/
def Core.Unapproved (c : Core) : Prop :=
  (c.state = .Proposed ∨ c.state = .Cancelled) ∧ c.active_attempt.valid = false

theorem abiding_unapproved : Abiding Core.Unapproved where
  fresh := by
    intro c hfresh
    refine ⟨.inl hfresh.1, ?_⟩
    rw [hfresh.2.2.2.2.1]
    rfl
  aside := by
    intro k c c' edit hk ⟨hstate, hidle⟩
    cases edit with
    | touched _ _ _ => exact ⟨hstate, hidle⟩
    | moved to_state _ _ _ _ =>
      have hto : to_state = .Cancelled := by
        rcases hk with hk | hk | hk
        · cases hk
        · exact EditKind.moved.inj hk
        · cases hk
      subst hto
      exact ⟨.inr rfl, rfl⟩
    | reconciled _ _ alive past =>
      rcases hstate with hstate | hstate
      · exact absurd hstate past.1
      · rw [hstate] at alive
        cases alive
    | _ => rcases hk with hk | hk | hk <;> cases hk
  undenied := by
    rintro c ⟨hstate | hstate, _⟩ <;> rw [hstate] <;> decide
  idle := fun h => h.2

namespace Controller

variable {c : Controller} {job id : JobId} {actor : Text}

/-- A pass has nothing to do for a job that waits for its approval or is withdrawn. -/
theorem drive_locked_unapproved (hwaits : ∀ j, c.world.jobs.find id = some j → j.core.Unapproved)
    (context : PassContext) (actions : List DrainAction) :
    (c.drive_locked id context actions).1 = c := by
  unfold drive_locked
  split
  · rfl
  · next j hfind =>
    split
    · rfl
    · unfold Drive.drive_state
      rcases (hwaits j hfind).1 with hstate | hstate <;>
        simp only [show j.state = _ from hstate] <;> rfl

/-- Only a proposed job can be re-armed out of its waiting. -/
theorem rearm_withdrawn (hwaits : ∀ j, c.world.jobs.find job = some j → j.core.Unapproved)
    (hproposed : ∀ j, c.world.jobs.find job = some j → j.state ≠ .Proposed) (now : Nanos) :
    (c.rearm job actor now).2 = c := by
  refine rearm_refused_early ?_ actor now
  intro j hj
  have hcancelled : j.state = .Cancelled := (hwaits j hj).1.resolve_left (hproposed j hj)
  right
  rw [MaintenanceJob.is_terminal, hcancelled]
  rfl

end Controller

/-! ## Runs -/

/-- The job an event re-arms. -/
def Event.rearms (e : Event) : Option JobId :=
  match e.label with
  | .rearm job _ _ => some job
  | _ => none

namespace System

variable {s : System} {e : Event} {id : JobId} {j' : MaintenanceJob}

/-- The event is an approval of the job, and the call succeeds. -/
def Approves (s : System) (e : Event) (id : JobId) : Prop :=
  ∃ actor entry_at commit_at, e.label = .approve id actor entry_at commit_at ∧ s.up = true ∧
    s.pass = none ∧
    Status.isOk ((under s.ctl e.verdicts).approve id actor entry_at commit_at).1 = true

/-- No proposed job is re-armed. -/
def ApprovedFirst (s : System) (e : Event) : Prop :=
  ∀ job ∈ e.rearms, ∀ j ∈ s.job job, j.state ≠ .Proposed

instance (s : System) (e : Event) : Decidable (ApprovedFirst s e) :=
  inferInstanceAs (Decidable (∀ job ∈ e.rearms, ∀ j ∈ s.job job, _))

/-- A job that waits for its approval waits on, or is approved in this step. -/
theorem Sound.unapproved_step (h : s.Sound) (hfirst : ApprovedFirst s e)
    (hwaits : ∀ j, s.job id = some j → j.core.Unapproved) (hj' : (s.step e).job id = some j') :
    j'.core.Unapproved ∨ s.Approves e id ∧ j'.approved = true := by
  have hjobs : ∀ j, (under s.ctl e.verdicts).world.jobs.find id = some j →
    j.core.Unapproved := hwaits
  rcases h.abides abiding_unapproved hwaits hj' with
    hkept | ⟨p, x, hdriving, hid, hup⟩ | ⟨ctl, ⟨hup, hpass, hcall, hlabel⟩, hctl⟩
  · exact .inl hkept
  · left
    have hctl := step_drive_ctl hdriving
    rw [if_pos hup, hid, Controller.drive_locked_unapproved hjobs] at hctl
    have hj' : (s.step e).ctl.world.jobs.find id = some j' := hj'
    rw [hctl] at hj'
    exact hwaits j' hj'
  -- Two calls change a stored job; rearming one that is not approved is excluded.
  · have hj' : (s.step e).ctl.world.jobs.find id = some j' := hj'
    rw [hctl] at hj'
    rcases hlabel with ⟨actor, entry_at, commit_at, label⟩ | ⟨actor, clock, label⟩
    · rw [label] at hcall
      cases hcall
      rcases (under s.ctl e.verdicts).approve_commits id actor entry_at commit_at with
        hjobs | ⟨hok, x, x', hx, _, hcore, happroved, hjobs⟩
      · rw [hjobs] at hj'
        exact .inl (hwaits j' hj')
      · have hkey : x'.id = id := (congrArg Core.id hcore).trans (Table.key_of_find hx : x.id = id)
        rw [hjobs, ← hkey] at hj'
        cases Option.some.inj (hj'.symm.trans (Table.find_put_self _ _))
        exact .inr ⟨⟨actor, entry_at, commit_at, label, hup, hpass, hok⟩, happroved⟩
    · left
      have hrearms : e.rearms = some id := by
        unfold Event.rearms
        rw [label]
      rw [label] at hcall
      cases hcall
      rw [Controller.rearm_withdrawn hjobs (hfirst id hrearms)] at hj'
      exact hwaits j' hj'

/-- Along a run in which no proposed job is re-armed, every job that has got past its proposal
    bears its approval, and was approved. -/
theorem no_start_without_approval (events : List Event) (id : JobId) (j : MaintenanceJob)
    (hfirst : Along step ApprovedFirst initial events)
    (hj : (initial.run events).job id = some j)
    (hstate : j.state ≠ .Proposed ∧ j.state ≠ .Cancelled) :
    j.approved = true ∧ ∃ before e after, events = before ++ e :: after ∧
      (initial.run before).Approves e id := by
  refine Or.resolve_left (a := j.core.Unapproved) ?_ (fun h => not_or.mpr hstate h.1)
  clear hstate
  -- The induction is on the run: what has been approved stays approved.
  induction events using List.reverseRecOn generalizing j with
  | nil => cases hj
  | append_singleton events e ih =>
    obtain ⟨hbefore, hlast, _⟩ := Along.append.mp hfirst
    have hinv : (initial.run events).Sound ∧ (initial.run events).Configured := by
      refine run_invariant (I := fun s : System => s.Sound ∧ s.Configured) ?_ events
        ⟨sound_initial, configured_initial⟩
      intro s e ⟨hs, hconfigured⟩
      exact ⟨hs.step e, (hconfigured.step e).configured⟩
    rw [run_snoc] at hj
    by_cases hwaits : ∀ x, (initial.run events).job id = some x → x.core.Unapproved
    · rcases hinv.1.unapproved_step hlast hwaits hj with hkept | ⟨happroves, happroved⟩
      · exact .inl hkept
      · exact .inr ⟨happroved, events, e, [], rfl, happroves⟩
    · right
      simp only [not_forall] at hwaits
      obtain ⟨x, hx, hpast⟩ := hwaits
      obtain ⟨happroved, before, e', after, hsplit, happroves⟩ :=
        (ih x hbefore hx).resolve_left hpast
      refine ⟨?_, before, e', after ++ [e], ?_, happroves⟩
      · rcases (hinv.2.step e).version hx hj with hcarries | ⟨_, _, _, hcarries⟩
        · exact hcarries.approved happroved
        · refine hcarries.approved ?_
          unfold Controller.rebound
          split <;> exact happroved
      · rw [hsplit, List.append_assoc]
        rfl

end System

namespace Drill

/-- As `ready`, for one job, with a re-arm in place of the approval. -/
def unapproved : List Event :=
  [boot 0, call (.set_topology topology), call (.set_policy policy), health 1 0, propose 0,
    call (.rearm ⟨1⟩ (text "operator") 0)] ++ tick 0 1 ++ tick (ms 100) 1 ++ tick (ms 200) 1

end Drill

namespace System

/-- The job that is approved starts with its approval. -/
theorem approved_job_starts :
    ∃ j, (initial.run Drill.started).job ⟨1⟩ = some j ∧ j.state = .InMaintenance ∧
      j.approved = true := by
  obtain ⟨j, hj, hstate⟩ := job_of_field (initial.run Drill.started) ⟨1⟩ MaintenanceJob.state
    (a := .InMaintenance) (by decide +kernel)
  have happroved := no_start_without_approval Drill.started ⟨1⟩ j (by decide +kernel) hj (by
    rw [hstate]
    decide)
  exact ⟨j, hj, hstate, happroved.1⟩

/-- Nobody approves the job, and it is in maintenance. -/
theorem unapproved_job_starts :
    ∃ j, (initial.run Drill.unapproved).job ⟨1⟩ = some j ∧ j.state = .InMaintenance ∧
      j.approved = false ∧ ∀ e ∈ Drill.unapproved, ∀ actor entry_at commit_at,
        e.label ≠ .approve ⟨1⟩ actor entry_at commit_at := by
  obtain ⟨j, hj, hf⟩ := job_of_field (initial.run Drill.unapproved) ⟨1⟩
    (fun j => (j.state, j.approved)) (a := (.InMaintenance, false)) (by decide +kernel)
  obtain ⟨hstate, happroved⟩ := Prod.mk.inj hf
  refine ⟨j, hj, hstate, happroved, ?_⟩
  intro e he actor entry_at commit_at hlabel
  have hnone : Drill.unapproved.all (fun e => match e.label with
      | .approve .. => false
      | _ => true) = true := by decide +kernel
  have hother := List.all_eq_true.mp hnone e he
  rw [hlabel] at hother
  cases hother

end System

end MaintenanceFabric
