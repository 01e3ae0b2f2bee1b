import MaintenanceFabric.Lib.Run
import MaintenanceFabric.Runtime.CallEffects
import MaintenanceFabric.Runtime.Drives
import MaintenanceFabric.Runtime.Frames
import MaintenanceFabric.Runtime.Grants
import MaintenanceFabric.Runtime.Invariants
import MaintenanceFabric.Runtime.Recovery

/-! # Steps of the system

    Everything one step can do, said once: `Did` is the inversion of
    `System.step`, and `changes_step` describes what the step does to the books
    under the license of its label.  Both feed the invariant `System.Sound`,
    which holds in every reachable state.
-/

namespace MaintenanceFabric

open Lib

namespace System

/-! ## Inversion -/

/-- What a step out of `s` has done; `c` is the controller under the journal answers of the
    event. -/
inductive Did (s : System) (e : Event) (c : Controller) : System → Prop where
  /-- The label was not enabled. -/
  | nothing : Did s e c { s with ctl := c }
  | restarted {options : Controller.ControllerOptions} {clock : Nanos} {steady : Nat}
      (label : e.label = .open options clock steady) :
      Did s e c (restart { s with ctl := c } options clock steady)
  | drove {p : Pass} {id : JobId} {rest : List JobId} (label : e.label = .pass_step)
      (up : s.up = true) (pass : s.pass = some p) (remaining : p.remaining = id :: rest) :
      Did s e c { s with
        ctl := (c.drive_locked id (p.context c) p.actions).1
        pass := some { p with
          remaining := rest, actions := (c.drive_locked id (p.context c) p.actions).2 } }
  | closed {p : Pass} (label : e.label = .pass_step) (up : s.up = true) (pass : s.pass = some p)
      (remaining : p.remaining = []) :
      Did s e c { s with
        ctl := ((c.arbitrate_locked (p.context c)).sweep_orphans p.actions).1
        pass := none
        threads := match s.threads.find p.thread with
          | none => s.threads
          | some t => s.threads.put
              (end_pass t ((c.arbitrate_locked (p.context c)).sweep_orphans p.actions).2) }
  | ticked {thread : Nat} {now : Nanos} (label : e.label = .tick thread now) (up : s.up = true)
      (pass : s.pass = none) (unused : s.threads.find thread = none) :
      Did s e c { s with ctl := c, threads := s.threads.put { id := thread, now } }
  | began {thread : Nat} {t : Thread} (label : e.label = .begin_pass thread) (up : s.up = true)
      (pass : s.pass = none) (found : s.threads.find thread = some t)
      (ready : t.passes ≠ 0 ∧ t.actions = []) :
      Did s e c { s with
        ctl := { c with store := c.store.expire_authority t.now, deferred_releases := [] }
        threads := s.threads.put { t with passes := t.passes - 1 }
        pass := some { thread, now := t.now
                       evidence := (c.store.expire_authority t.now).state.evidence
                       remaining := plan_tick (c.store.expire_authority t.now).state.jobs
                       actions := c.deferred_releases } }
  | marked {thread : Nat} {t : Thread} {action : DrainAction} {rest : List DrainAction}
      (label : e.label = .mark thread) (up : s.up = true) (pass : s.pass = none)
      (found : s.threads.find thread = some t) (actions : t.actions = action :: rest) :
      Did s e c { s with
        threads := s.threads.put { t with marked := true }
        ctl := if action.job.valid then
            { c with drain_inflight := push_unique c.drain_inflight action.job } else c }
  | answered {thread : Nat} {answer : DrainResponse} {t : Thread} {action : DrainAction}
      {rest : List DrainAction} (label : e.label = .outcome thread answer) (up : s.up = true)
      (pass : s.pass = none) (found : s.threads.find thread = some t)
      (actions : t.actions = action :: rest) (marked : t.marked = true) :
      Did s e c { s with
        ctl := c.apply_outcome action (Controller.perform_action action answer) t.now
        threads := s.threads.put { t with actions := rest, marked := false } }
  | finished {thread : Nat} {t : Thread} (label : e.label = .finish thread) (up : s.up = true)
      (pass : s.pass = none) (found : s.threads.find thread = some t)
      (done : t.passes = 0 ∧ t.actions = []) :
      Did s e c { s with ctl := c, threads := s.threads.erase thread }
  | called {ctl : Controller} (up : s.up = true) (pass : s.pass = none)
      (call : c.call e.label = some ctl) : Did s e c { s with ctl }

theorem unlocked_did {s : System} {e : Event} {c : Controller} (up : s.up = true)
    (pass : s.pass = none) : Did s e c (unlocked { s with ctl := c } e.label) := by
  have hcall : Did s e c
      ((c.call e.label).elim { s with ctl := c } (fun ctl => { s with ctl })) := by
    cases hcalled : c.call e.label with
    | none => exact .nothing
    | some ctl => exact .called up pass hcalled
  -- A step that its guard refuses leaves the system with the controller it was given.
  cases hl : e.label with
  | tick thread now =>
    show Did s e c (begin_tick { s with ctl := c } thread now)
    unfold begin_tick
    split
    · exact .nothing
    · next h => exact .ticked hl up pass (by simpa using h)
  | begin_pass thread =>
    show Did s e c (begin_pass { s with ctl := c } thread)
    unfold begin_pass
    split
    · exact .nothing
    · next t found =>
      split
      · exact .nothing
      · next h =>
        obtain ⟨h₁, h₂⟩ := not_or.mp h
        exact .began hl up pass found ⟨h₁, not_not.mp h₂⟩
  | mark thread =>
    show Did s e c (mark { s with ctl := c } thread)
    unfold mark
    split
    · exact .nothing
    · next t found =>
      split
      · exact .nothing
      · next actions => exact .marked hl up pass found actions
  | outcome thread answer =>
    show Did s e c (outcome { s with ctl := c } thread answer)
    unfold outcome
    split
    · exact .nothing
    · next t found =>
      split
      · next actions marked => exact .answered hl up pass found actions marked
      · exact .nothing
  | finish thread =>
    show Did s e c (finish { s with ctl := c } thread)
    unfold finish
    split
    · exact .nothing
    · next t found =>
      split
      · next done => exact .finished hl up pass found done
      · exact .nothing
  | _ =>
    rw [hl] at hcall
    exact hcall

theorem step_did (s : System) (e : Event) : Did s e (under s.ctl e.verdicts) (s.step e) := by
  unfold step
  simp only
  split
  · next label => exact .restarted label
  · split
    · next up =>
      split
      · next p pass =>
        split
        · next label =>
          unfold pass_step
          split
          · next remaining => exact .drove label up pass remaining
          · next remaining => exact .closed label up pass remaining
        · exact .nothing
      · next pass => exact unlocked_did up pass
    · exact .nothing

/-! ## Licenses -/

end System

/-- The start of a pass only lets leases run out. -/
def expiry_license (now : Nanos) : License where
  edits _ _ := False
  writes _ := False
  observes _ := False
  expires t := t = now
  restarts := False
  faulty := False

def idle_license : License where
  edits _ _ := False
  writes _ := False
  observes _ := False
  expires _ := False
  restarts := False
  faulty := False

namespace System

/-- What a step may do to the books, in the state it starts from. -/
def license (s : System) (e : Event) : License :=
  let c := under s.ctl e.verdicts
  match e.label with
  | .open .. => restart_license
  | .pass_step =>
      match s.pass with
      | none => idle_license
      | some p => match p.remaining with
          | id :: _ => drive_license c id (p.context c)
          | [] => arbitration_license c.store.state.jobs
  | .begin_pass thread =>
      match s.threads.find thread with
      | none => idle_license
      | some t => expiry_license t.now
  | .outcome thread answer =>
      match s.threads.find thread with
      | none => idle_license
      | some t => match t.actions with
          | action :: _ => outcome_license c action (Controller.perform_action action answer)
          | [] => idle_license
  | label => call_license c label

/-- Which license a step has, with what it was read off. -/
inductive Licensed (s : System) (e : Event) (c : Controller) : License → Prop where
  | restart {options : Controller.ControllerOptions} {clock : Nanos} {steady : Nat}
      (label : e.label = .open options clock steady) : Licensed s e c restart_license
  | drive {p : Pass} {id : JobId} {rest : List JobId} (label : e.label = .pass_step)
      (pass : s.pass = some p) (remaining : p.remaining = id :: rest) :
      Licensed s e c (drive_license c id (p.context c))
  | arbitration {p : Pass} (label : e.label = .pass_step) (pass : s.pass = some p)
      (remaining : p.remaining = []) : Licensed s e c (arbitration_license c.store.state.jobs)
  | expiry {thread : Nat} {t : Thread} (label : e.label = .begin_pass thread)
      (found : s.threads.find thread = some t) : Licensed s e c (expiry_license t.now)
  | outcome {thread : Nat} {answer : DrainResponse} {t : Thread} {action : DrainAction}
      {rest : List DrainAction} (label : e.label = .outcome thread answer)
      (found : s.threads.find thread = some t) (actions : t.actions = action :: rest) :
      Licensed s e c (outcome_license c action (Controller.perform_action action answer))
  | idle : Licensed s e c idle_license
  | call : Licensed s e c (call_license c e.label)

theorem licensed (s : System) (e : Event) :
    Licensed s e (under s.ctl e.verdicts) (s.license e) := by
  unfold license
  simp only
  split
  · next label => exact .restart label
  · next label =>
    split
    · exact .idle
    · next pass =>
      split
      · next remaining => exact .drive label pass remaining
      · next remaining => exact .arbitration label pass remaining
  · next label =>
    split
    · exact .idle
    · next found => exact .expiry label found
  · next label =>
    split
    · exact .idle
    · next found =>
      split
      · next actions => exact .outcome label found actions
      · exact .idle
  · exact .call

/-- The job a step is about to drive, and the pass that drives it. -/
def driving (s : System) (e : Event) : Option (Pass × MaintenanceJob) :=
  match e.label, s.pass with
  | .pass_step, some p =>
      match p.remaining with
      | id :: _ => (s.job id).map (fun j => (p, j))
      | [] => none
  | _, _ => none

/-- What it takes to drive a job. -/
theorem driving_spec {s : System} {e : Event} {p : Pass} {j : MaintenanceJob}
    (h : s.driving e = some (p, j)) :
    e.label = .pass_step ∧ s.pass = some p ∧ s.job j.id = some j ∧
      ∃ rest, p.remaining = j.id :: rest := by
  unfold driving at h
  split at h
  · next q label pass =>
    split at h
    · next id rest remaining =>
      obtain ⟨x, hx, hpair⟩ := Option.map_eq_some_iff.mp h
      cases hpair
      have hid : j.id = id := Table.key_of_find hx
      exact ⟨label, pass, hid ▸ hx, rest, hid ▸ remaining⟩
    · cases h
  · cases h

theorem driving_eq {s : System} {e : Event} {p : Pass} {id : JobId} {rest : List JobId}
    {j : MaintenanceJob} (label : e.label = .pass_step) (pass : s.pass = some p)
    (remaining : p.remaining = id :: rest) (hj : s.job id = some j) :
    s.driving e = some (p, j) := by
  unfold driving
  simp only [label, pass, remaining]
  rw [hj]
  rfl

/-- The edits a step is licensed to make: those of a drive, and a few that are made outside. -/
theorem license_edits {s : System} {e : Event} {id : JobId} {k : EditKind}
    (h : (s.license e).edits id k) :
    (∃ p j, s.driving e = some (p, j) ∧ s.job id = some j ∧
      drive_may (under s.ctl e.verdicts) j (p.context (under s.ctl e.verdicts)) k) ∨
    k = .touched ∨ k = .approved ∨ k = .rearmed ∨ k = .moved .Cancelled ∨ k = .moved .Blocked ∨
    k = .reconciled := by
  have hlicensed := s.licensed e
  generalize s.license e = L at h hlicensed
  cases hlicensed with
  | restart _ => exact .inr (.inr (.inr (.inr (.inr (.inr h)))))
  | @drive p id' rest label pass remaining =>
    obtain ⟨rfl, j, hj, hmay⟩ := h
    exact .inl ⟨p, j, driving_eq label pass remaining hj, hj, hmay⟩
  | arbitration _ _ _ =>
    rcases h with h | h
    · exact .inr (.inl h)
    · exact .inr (.inr (.inr (.inr (.inr (.inl h.1)))))
  | expiry _ _ => exact h.elim
  | outcome _ _ _ =>
    rcases h with h | h
    · exact .inr (.inl h)
    · exact .inr (.inr (.inr (.inr (.inr (.inl h.1)))))
  | idle => exact h.elim
  | call =>
    rcases h with h | h | h | h
    · exact .inr (.inl h)
    · exact .inr (.inr (.inl h))
    · exact .inr (.inr (.inr (.inl h)))
    · exact .inr (.inr (.inr (.inr (.inl h))))

theorem restarts_spec {e : Event} (h : e.restarts = true) :
    ∃ options clock steady, e.label = .open options clock steady := by
  unfold Event.restarts at h
  split at h
  · next label => exact ⟨_, _, _, label⟩
  · cases h

theorem license_restarts {s : System} {e : Event} (h : (s.license e).restarts) :
    e.restarts = true := by
  have hlicensed := s.licensed e
  generalize s.license e = L at h hlicensed
  cases hlicensed with
  | restart label =>
    unfold Event.restarts
    rw [label]
  | _ => exact h.elim

theorem license_observes {s : System} {e : Event} {r : EvidenceRecord}
    (h : (s.license e).observes r) :
    ∃ record ∈ e.observed, r.key = record.key ∧ r.job = record.job ∧ r.attempt = record.attempt ∧
      r.payload = record.payload := by
  have hlicensed := s.licensed e
  generalize s.license e = L at h hlicensed
  cases hlicensed with
  | call =>
    obtain ⟨record, label, hsame⟩ := h
    refine ⟨record, ?_, hsame⟩
    unfold Event.observed
    rw [label]
    rfl
  | _ => exact h.elim

/-- A negative restoration check comes from outside, under the job and attempt the event names. -/
theorem license_refuting {s : System} {e : Event} {r : EvidenceRecord}
    (h : (s.license e).writes r ∨ (s.license e).observes r) (hrefutes : r.refutes = true) :
    e.label.refuting = some (r.job, r.attempt) := by
  have hlicensed := s.licensed e
  generalize s.license e = L at h hlicensed
  cases hlicensed with
  | drive _ _ _ =>
    rcases h with h | h
    · rw [EvidenceRecord.refutes, h.2] at hrefutes
      simp at hrefutes
    · exact h.elim
  | outcome _ _ _ =>
    rcases h with h | h
    · rw [EvidenceRecord.refutes, h.1] at hrefutes
      simp at hrefutes
    · exact h.elim
  | call =>
    rcases h with h | ⟨record, label, hkey, hjob, hattempt, hpayload⟩
    · exact h.2.2 hrefutes
    · have hsame : record.refutes = true := by
        rw [← hrefutes, EvidenceRecord.refutes, EvidenceRecord.refutes, hkey, hpayload]
      rw [label, hjob, hattempt]
      exact if_pos hsame
  | _ => exact h.elim (fun h => h.elim) (fun h => h.elim)

/-! ## Soundness -/

/-- The books are sound, and every drain request that waits anywhere carries a token. -/
structure Sound (s : System) : Prop where
  world : s.ctl.world.Sound
  deferred : s.ctl.Deferred
  threads : ∀ t ∈ s.threads.rows, ∀ a ∈ t.actions, a.Tokened
  pass : ∀ p, s.pass = some p → ∀ a ∈ p.actions, a.Tokened

theorem sound_initial : initial.Sound where
  world :=
    { jobs := fun _ h => by cases h
      epoch := le_refl _
      ids := ⟨by decide, fun _ h => by cases h⟩
      named := fun _ h => by cases h
      holds := fun _ h => by cases h }
  deferred := fun _ h => by cases h
  threads := fun _ h => by cases h
  pass := fun _ h => by cases h

/-- Journal answers are not part of the books. -/
theorem world_under (c : Controller) (verdicts : List (Option JournalFault)) :
    (under c verdicts).world = c.world := rfl

theorem world_sweep_orphans (c : Controller) (actions : List DrainAction) :
    (c.sweep_orphans actions).1.world = c.world := rfl

/-- A job whose active attempt is the valid token of a request is not finished. -/
theorem Sound.request_alive {s : System} (h : s.Sound) {t : Thread} {action : DrainAction}
    {rest : List DrainAction} (ht : t ∈ s.threads.rows) (actions : t.actions = action :: rest)
    {c : Controller} (hw : c.world = s.ctl.world) {j : MaintenanceJob}
    (hj : c.world.jobs.find action.job = some j) (hkind : action.kind = .Request)
    (hfresh : c.drain_stale action = false) : j.state.is_terminal = false := by
  have htoken : action.attempt.valid = true :=
    h.threads t ht action (by rw [actions]; exact List.mem_cons_self) hkind
  have hactive : j.active_attempt = action.attempt := by
    unfold Controller.drain_stale JobTable.find at hfresh
    rw [show c.store.state.jobs.jobs.find action.job = some j from hj] at hfresh
    simp only [Bool.or_eq_false_iff, decide_eq_false_iff_not, not_not] at hfresh
    exact hfresh.2
  rw [hw] at hj
  exact h.world.alive_of_attempt hj (hactive ▸ htoken)

theorem license_call {s : System} {e : Event} {c ctl : Controller}
    (hc : under s.ctl e.verdicts = c) (hcall : c.call e.label = some ctl) :
    s.license e = call_license c e.label := by
  unfold license
  rw [← hc] at hcall ⊢
  cases hl : e.label <;> rw [hl] at hcall <;> first | rfl | cases hcall

/-- Every step changes the books as its license says. -/
theorem changes_step {s : System} (h : s.Sound) (e : Event) :
    Changes (s.license e) s.ctl.world (s.step e).ctl.world := by
  have hdid := s.step_did e
  generalize s.step e = s' at hdid
  rw [← world_under s.ctl e.verdicts]
  generalize hc : under s.ctl e.verdicts = c at hdid ⊢
  have hw : c.world = s.ctl.world := by rw [← hc]; rfl
  cases hdid with
  | nothing => exact Changes.refl _
  | restarted label =>
    unfold license
    rw [label]
    exact Controller.changes_open c _ _ _
  | drove label up pass remaining =>
    unfold license
    simp only [label, pass, remaining, hc]
    exact changes_drive_locked c _ _ _
  | closed label up pass remaining =>
    unfold license
    simp only [label, pass, remaining, hc]
    rw [world_sweep_orphans]
    exact Controller.changes_arbitrate_locked c _
  | ticked _ _ _ _ => exact Changes.refl _
  | @began thread t label up pass found ready =>
    unfold license
    simp only [label, found]
    show Changes (expiry_license t.now) c.world
      ({ c with store := c.store.expire_authority t.now } : Controller).world
    -- An erasure that the journal refuses leaves the whole ledger as it is.
    rcases Store.expire_authority_books c.store t.now with hb | hb
    · exact Changes.of_eq (Controller.world_of_books hb)
    · refine Changes.single ?_
      convert Change.expired (L := expiry_license t.now) (w := c.world) t.now rfl using 1
      simp [Controller.world, hb]
  | marked label up pass found actions =>
    refine Changes.of_eq ?_
    simp only
    split <;> rfl
  | @answered thread answer t action rest label up pass found actions =>
    unfold license
    simp only [label, found, actions, hc]
    refine Controller.changes_apply_outcome c action _ t.now ?_
    intro j hj hkind hfresh
    exact h.request_alive (Table.mem_of_find found) actions hw hj hkind hfresh
  | finished _ _ _ _ _ => exact Changes.refl _
  | called up pass call =>
    have hchanges := Controller.changes_call c e.label call ?_
    · rw [← license_call hc call] at hchanges
      exact hchanges
    · intro i j hj hvalid
      rw [hw] at hj
      exact h.world.alive_of_attempt hj hvalid

/-- One step keeps the system sound. -/
theorem Sound.step {s : System} (h : s.Sound) (e : Event) : (s.step e).Sound := by
  have hworld : (s.step e).ctl.world.Sound := h.world.changes (changes_step h e)
  have hdid := s.step_did e
  generalize s.step e = s' at hdid hworld
  have hdeferred : (under s.ctl e.verdicts).Deferred := h.deferred.of_eq rfl
  generalize under s.ctl e.verdicts = c at hdid hdeferred
  -- Threads that take no part in the step keep their actions.
  have hput : ∀ t : Thread, (∀ a ∈ t.actions, a.Tokened) →
      ∀ x ∈ (s.threads.put t).rows, ∀ a ∈ x.actions, a.Tokened := by
    intro t ht x hx
    rcases Table.mem_put.mp hx with rfl | ⟨hx, _⟩
    · exact ht
    · exact h.threads x hx
  have hfound : ∀ {thread : Nat} {t : Thread}, s.threads.find thread = some t →
      ∀ a ∈ t.actions, a.Tokened := fun found => h.threads _ (Table.mem_of_find found)
  cases hdid with
  | nothing => exact ⟨hworld, hdeferred, h.threads, h.pass⟩
  | restarted _ =>
    refine ⟨hworld, Controller.deferred_open _ _ _ _, ?_, ?_⟩
    · intro t ht
      cases ht
    · intro p hp
      cases hp
  | @drove p id rest _ _ pass _ =>
    obtain ⟨hframe, htokened⟩ := c.keeps_drive_locked id (p.context c) p.actions
    refine ⟨hworld, hdeferred.of_eq hframe.deferred, h.threads, ?_⟩
    intro q hq
    cases Option.some.inj hq
    exact htokened (h.pass p pass)
  | @closed p _ _ pass _ =>
    have hframe := c.frame_arbitrate_locked (p.context c)
    have hswept := (c.arbitrate_locked (p.context c)).tokened_sweep_orphans (h.pass p pass)
    refine ⟨hworld, hdeferred.of_eq hframe.deferred, ?_, fun _ hp => by cases hp⟩
    simp only
    split
    · exact h.threads
    · exact hput _ hswept
  | ticked _ _ pass _ => exact ⟨hworld, hdeferred, hput _ (by simp), h.pass⟩
  | began _ _ _ found ready =>
    have hactions := hfound found
    refine ⟨hworld, ?_, hput _ hactions, ?_⟩
    · intro a ha
      cases ha
    · intro q hq
      cases Option.some.inj hq
      exact hdeferred
  | marked _ _ pass found _ =>
    have hactions := hfound found
    refine ⟨hworld, ?_, hput _ hactions, h.pass⟩
    simp only
    split
    · exact hdeferred.of_eq rfl
    · exact hdeferred
  | answered _ _ pass found actions =>
    refine ⟨hworld, hdeferred.apply_outcome _ _ _, hput _ ?_, h.pass⟩
    intro a ha
    exact hfound found a (by rw [actions]; exact List.mem_cons_of_mem _ ha)
  | finished _ _ pass _ _ =>
    exact ⟨hworld, hdeferred, fun t ht => h.threads t (Table.mem_erase.mp ht).1, h.pass⟩
  | called _ pass call => exact ⟨hworld, hdeferred.call call, h.threads, h.pass⟩

theorem Sound.run_sound {s : System} (h : s.Sound) (events : List Event) : (s.run events).Sound :=
  run_invariant (fun _ e hs => hs.step e) events h

/-- Every reachable state is sound. -/
theorem sound_run (events : List Event) : (initial.run events).Sound :=
  sound_initial.run_sound events

/-- Across a run every job moves on. -/
theorem Sound.advance_run {s : System} (h : s.Sound) (events : List Event) {id : JobId}
    {j : MaintenanceJob} (hj : s.job id = some j) :
    ∃ j', (s.run events).job id = some j' ∧ Advance j.core j'.core := by
  induction events generalizing s j with
  | nil => exact ⟨j, hj, .refl _⟩
  | cons e events ih =>
    obtain ⟨m, hm, hfirst⟩ := (changes_step h e).advance h.world hj
    obtain ⟨j', hj', hrest⟩ := ih (h.step e) hm
    exact ⟨j', hj', hfirst.trans hrest⟩

end System

end MaintenanceFabric
