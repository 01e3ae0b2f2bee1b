import MaintenanceFabric.Runtime.Steps

/-! # The lifecycle of a job

    What holds of every job in every reachable state, and between any two
    states of a run: service that was removed stays removed until the job is
    over, a finished job is finished, and the history tells the whole way.
-/

namespace MaintenanceFabric

open Lib

namespace System

variable {s : System} {id : JobId} {j : MaintenanceJob}

/-! ## Reachable states -/

theorem run_append (s : System) (events more : List Event) :
    s.run (events ++ more) = (s.run events).run more := List.foldl_append

theorem run_snoc (s : System) (events : List Event) (e : Event) :
    s.run (events ++ [e]) = (s.run events).step e := by
  rw [run_append]
  rfl

/-- A finished job is the same record in every later state. -/
theorem Sound.terminal_run (h : s.Sound) (events : List Event) (hj : s.job id = some j)
    (hterm : j.state.is_terminal = true) : (s.run events).job id = some j := by
  induction events generalizing s with
  | nil => exact hj
  | cons e events ih => exact ih (h.step e) ((changes_step h e).terminal hj hterm)

/-- The states a job can be in once service has been removed. -/
theorem fits_removed {state : JobState} (h : state.fits true = true) :
    state ∈ [.InMaintenance, .Verifying, .Restoring, .Blocked, .Complete, .Failed] := by
  revert h
  cases state <;> decide

theorem fits_kept {state : JobState} {removed : Bool} (h : state.fits removed = true)
    (hearly : state ∈ [.Proposed, .Validated, .Prerequisites, .Ready, .Cancelled]) :
    removed = false := by
  revert h hearly
  cases state <;> cases removed <;> decide

/-- A stage near the end of the chain is entered only by a drive, from the stage before it. -/
theorem Sound.entered_from (h : s.Sound) {e : Event} {last before : JobState} {j' : MaintenanceJob}
    (hj' : (s.step e).job id = some j') (hstate : j'.state = last)
    (hpair : (last, before) = (.Complete, .Restoring) ∨ (last, before) = (.Restoring, .Verifying)) :
    ∃ j, s.job id = some j ∧ (j.state = last ∨ j.state = before) := by
  have hproposed : j'.state ≠ .Proposed := by
    rw [hstate]
    rcases hpair with hp | hp <;> cases hp <;> decide
  rcases (changes_step h e).entered h.world hj' hproposed
    with ⟨j, hj, hsame⟩ | ⟨k, licensed, henters⟩
  · exact ⟨j, hj, .inl (hsame.trans hstate)⟩
  · rw [hstate] at henters
    rcases license_edits licensed with ⟨p, j, _, hj, hmay⟩ | hother
    · refine ⟨j, hj, .inr ?_⟩
      rcases hpair with hp | hp
      · cases hp
        cases k <;> simp only [EditKind.enters, beq_iff_eq, reduceCtorEq] at henters
        · cases hmay
        · subst henters
          exact hmay.1
      · cases hp
        cases k <;> simp only [EditKind.enters, beq_iff_eq, reduceCtorEq] at henters
        · cases hmay
        · subst henters
          exact hmay
    · rcases hpair with hp | hp <;> cases hp <;>
        rcases hother with rfl | rfl | rfl | rfl | rfl | rfl <;> cases henters

/-! ## The lifecycle over whole runs -/

/-- The history of a job is a connected chain of legal transitions that ends in its state. -/
def Chronicled (j : MaintenanceJob) : Prop :=
  (∃ start removed,
    Follows start removed (j.history.map HistoryEntry.transition) j.state j.service_removed ∧
    (j.history_dropped = 0 → start = .Proposed ∧ removed = false)) ∧
  (j.history = [] → j.state = .Proposed)

theorem Sound.chronicled (h : s.Sound) (hj : s.job id = some j) : Chronicled j := by
  obtain ⟨start, removed, htrail, hwhole, hcut⟩ := (h.world.job hj).trail
  refine ⟨⟨start, removed, htrail, hwhole⟩, ?_⟩
  intro hempty
  have hnil : j.core.trail = [] := by
    show j.history.map _ = []
    rw [hempty]
    rfl
  have hzero : j.core.dropped = 0 := by
    by_contra hne
    exact hcut (Nat.pos_of_ne_zero hne) hnil
  rw [hnil, (hwhole hzero).1] at htrail
  exact htrail.last_of_nil

theorem lifecycle_of_every_job (events : List Event) :
    (∀ id j, (initial.run events).job id = some j →
      (j.state ∈ [.Proposed, .Validated, .Prerequisites, .Ready, .Cancelled] →
        j.service_removed = false) ∧
      Chronicled j ∧
      ∀ more, ∃ j', (initial.run (events ++ more)).job id = some j' ∧
        (j.service_removed = true → j'.service_removed = true) ∧
        (j.state.is_terminal = true → j' = j) ∧
        (j.state = .InMaintenance → j'.state ∈
          [.InMaintenance, .Verifying, .Restoring, .Blocked, .Complete, .Failed])) ∧
    ∀ e id j', (initial.run (events ++ [e])).job id = some j' →
      (j'.state = .Complete → ∃ j, (initial.run events).job id = some j ∧
        (j.state = .Complete ∨ j.state = .Restoring)) ∧
      (j'.state = .Restoring → ∃ j, (initial.run events).job id = some j ∧
        (j.state = .Restoring ∨ j.state = .Verifying)) := by
  have hs := sound_run events
  refine ⟨?_, ?_⟩
  · intro id j hj
    have hfits : j.state.fits j.service_removed = true := (hs.world.job hj).fits
    refine ⟨fits_kept hfits, hs.chronicled hj, ?_⟩
    intro more
    obtain ⟨j', hj', hadvance⟩ := hs.advance_run more hj
    rw [run_append]
    refine ⟨j', hj', fun hr => (hadvance.removed hr).1, ?_, ?_⟩
    · intro hterm
      rw [hs.terminal_run more hj hterm] at hj'
      exact (Option.some.inj hj').symm
    -- In maintenance service is out, so what it is in later is a stage that has service out.
    · intro hstate
      have hremoved : j.service_removed = true := by
        rw [hstate] at hfits
        exact hfits
      have hfits' : j'.state.fits j'.service_removed = true :=
        ((hs.run_sound more).world.job hj').fits
      rw [show j'.service_removed = true from (hadvance.removed hremoved).1] at hfits'
      exact fits_removed hfits'
  · intro e id j' hj'
    rw [run_snoc] at hj'
    exact ⟨fun hstate => hs.entered_from hj' hstate (.inl rfl),
      fun hstate => hs.entered_from hj' hstate (.inr rfl)⟩

end System

/-! ## A drill

    One switch and two jobs that want it: the smallest fleet on which a start can be watched. -/

namespace Drill

def ms (n : Int) : Nanos := n * 1000000

def call (label : Label) : Event := { label }

/-- An undisturbed tick with one pass over `drives` jobs. -/
def tick (now : Nanos) (drives : Nat) : List Event :=
  [call (.tick 0 now), call (.begin_pass 0)] ++ List.replicate (drives + 1) (call .pass_step) ++
    [call (.finish 0)]

def switch : TargetId := { kind := .Switch, index := 1 }

def topology : Topology :=
  match ({} : Topology).add_target { id := switch } with
  | .ok t => t
  | .error _ => {}

/-- Authority is leased for one second. -/
def policy : Policy := { authority_lease := ms 1000, revision := ⟨1⟩ }

def health (revision : Nat) (now : Nanos) : Event :=
  call (.observe
    { key := { kind := .TargetHealth, subject := EvidenceSubject.of switch, source := ⟨1⟩ }
      revision := ⟨revision⟩, observed_at := now, payload := { health := .Healthy } })

def request : MaintenanceRequest :=
  { title := text "switch", targets := [switch], requires_drain := false, requestor := ⟨1⟩ }

def propose (now : Nanos) : Event := call (.propose request (text "operator") now)

def approve (job : Nat) (now : Nanos) : Event := call (.approve ⟨job⟩ (text "operator") now now)

def first (job : Nat) : AttemptId := { job := ⟨job⟩, generation := ⟨1⟩, ordinal := ⟨1⟩ }

def report (job : Nat) (succeeded : Bool) (now : Nanos) : Event :=
  call (.report_completion ⟨job⟩ (first job) succeeded [] now)

def boot (now : Nanos) : Event := call (.open { nonce := 7 } now 0)

/-- Up to the drive that starts job 1, at 200 ms. -/
def ready : List Event :=
  [boot 0, call (.set_topology topology), call (.set_policy policy), health 1 0, propose 0,
    propose 0, approve 1 0] ++ tick 0 1 ++ tick (ms 100) 1 ++
    [call (.tick 0 (ms 200)), call (.begin_pass 0)]

/-- Job 1 is in maintenance. -/
def started : List Event := ready ++ [call .pass_step, call .pass_step, call (.finish 0)]

end Drill

namespace System

/-- The job of a state, read through one of its fields. -/
theorem job_of_field {α : Type} (s : System) (id : JobId) (f : MaintenanceJob → α) {a : α}
    (h : (s.job id).map f = some a) : ∃ j, s.job id = some j ∧ f j = a :=
  Option.map_eq_some_iff.mp h

theorem lifecycle_of_started_job :
    ∃ j, (initial.run Drill.started).job ⟨1⟩ = some j ∧ j.state = .InMaintenance ∧
      ∀ more, ∃ j', (initial.run (Drill.started ++ more)).job ⟨1⟩ = some j' ∧
        j'.service_removed = true := by
  obtain ⟨j, hj, hfields⟩ := job_of_field (initial.run Drill.started) ⟨1⟩
    (fun j => (j.state, j.service_removed)) (a := (.InMaintenance, true)) (by decide +kernel)
  obtain ⟨hstate, hremoved⟩ := Prod.mk.inj hfields
  refine ⟨j, hj, hstate, ?_⟩
  intro more
  obtain ⟨_, _, hlater⟩ := (lifecycle_of_every_job Drill.started).1 ⟨1⟩ j hj
  obtain ⟨j', hj', hkeeps, _⟩ := hlater more
  exact ⟨j', hj', hkeeps hremoved⟩

end System

end MaintenanceFabric
