import MaintenanceFabric.Runtime.Drains
import MaintenanceFabric.Runtime.Steps

/-! # Actions under way

    An action is emitted by a pass, by a call or by an answer of the drain
    port, and stays with the process until the outcome of it has been applied.
    Where it is in the meantime, with the deferred releases, with the pass
    that holds the lock or with a tick that is talking to the drain port, does
    not matter here: `Emits` says what each step adds to the actions under way
    and which one it takes away.
-/

namespace MaintenanceFabric

open Lib

/-- The leases whose release the end of a pass asks for. -/
def Controller.orphans (c : Controller) : List DrainLease :=
  c.store.state.leases.rows.filter (fun lease =>
    !(c.owns_lease lease.id || decide (lease.state = .Released) ||
      decide (lease.id ∈ c.queued_releases)))

namespace System

/-! ## What is under way -/

/-- The actions of the pass that holds the lock. -/
def passing (s : System) : List DrainAction := (s.pass.map Pass.actions).getD []

/-- The actions the ticks in progress have still to see through. -/
def performing (s : System) : List DrainAction := s.threads.rows.flatMap Thread.actions

/-- Emitted, and the outcome not yet applied. -/
def emitted (s : System) : List DrainAction :=
  s.ctl.deferred_releases ++ s.passing ++ s.performing

/-- The action whose outcome an event applies, with the answer and the tick's time. -/
def answering (s : System) (e : Event) : Option (DrainAction × DrainResponse × Nanos) :=
  match e.label with
  | .outcome thread answer =>
      if s.up && s.pass.isNone then
        match s.threads.find thread with
        | none => none
        | some t =>
            match t.actions, t.marked with
            | action :: _, true => some (action, Controller.perform_action action answer, t.now)
            | _, _ => none
      else none
  | _ => none

theorem answering_eq {s : System} {e : Event} {thread : Nat} {answer : DrainResponse} {t : Thread}
    {action : DrainAction} {rest : List DrainAction} (label : e.label = .outcome thread answer)
    (up : s.up = true) (pass : s.pass = none) (found : s.threads.find thread = some t)
    (actions : t.actions = action :: rest) (marked : t.marked = true) :
    s.answering e = some (action, Controller.perform_action action answer, t.now) := by
  unfold answering
  simp only [label, up, pass, Option.isNone_none, Bool.and_self, if_true, found, actions, marked]

/-- A thread is replaced by its next version. -/
theorem performing_put (threads : Table Thread.id) (t : Thread) :
    ((threads.put t).rows.flatMap Thread.actions).Perm
      (t.actions ++ (threads.erase t.id).rows.flatMap Thread.actions) :=
  (threads.put_perm t).flatMap_right Thread.actions

theorem performing_found {threads : Table Thread.id} {thread : Nat} {t : Thread}
    (h : threads.find thread = some t) :
    (threads.rows.flatMap Thread.actions).Perm
      (t.actions ++ (threads.erase thread).rows.flatMap Thread.actions) :=
  (Table.rows_perm h).flatMap_right Thread.actions

/-- The tick that runs the pass is there, and waits for nothing. -/
def Attended (s : System) : Prop :=
  ∀ p, s.pass = some p → ∃ t, s.threads.find p.thread = some t ∧ t.actions = []

/-- The release of a lease no live job owns. -/
def orphan_release (lease : DrainLease) : DrainAction :=
  { kind := .Release, lease := lease.id, reason := text "orphaned drain lease" }

/-- The outcome of one action has been applied: the action is gone, the release of a lease that
    was granted to nobody may have come. -/
structure Applied (s : System) (c : Controller) (action : DrainAction) (response : DrainResponse)
    (now : Nanos) (s' : System) : Prop where
  applied : s'.ctl = c.apply_outcome action response now
  answered : Controller.Answered (c.unmark action) action response s'.ctl
  inflight : s'.ctl.drain_inflight = s.ctl.drain_inflight.filter (· ≠ action.job)
  flow : ∃ waiting new, s'.ctl.deferred_releases = s.ctl.deferred_releases ++ new ∧
    s.emitted.Perm (action :: waiting) ∧ s'.emitted.Perm (waiting ++ new)

/-- What a step does to the actions under way; `c` is the controller under the journal answers
    of the event. -/
inductive Emits (s : System) (e : Event) (c : Controller) (s' : System) : Prop where
  | kept (inflight : ∀ j ∈ s.ctl.drain_inflight, j ∈ s'.ctl.drain_inflight)
      (leases : s'.ctl.store.state.leases = s.ctl.store.state.leases)
      (emitted : s'.emitted.Perm s.emitted)
  | asked {p : Pass} {id : JobId} {rest : List JobId} {new : List DrainAction}
      (label : e.label = .pass_step) (pass : s.pass = some p) (remaining : p.remaining = id :: rest)
      (asks : Controller.Asks c id (p.context c) p.actions (s'.ctl, p.actions ++ new))
      (leases : s'.ctl.store.state.leases = s.ctl.store.state.leases)
      (emitted : s'.emitted.Perm (s.emitted ++ new))
  | swept {p : Pass} {orphans : List DrainLease} (label : e.label = .pass_step)
      (pass : s.pass = some p) (remaining : p.remaining = [])
      (world : s'.ctl.world = (c.arbitrate_locked (p.context c)).world)
      (inflight : s'.ctl.drain_inflight = s.ctl.drain_inflight)
      (leases : s'.ctl.store.state.leases = s.ctl.store.state.leases)
      (orphaned : ∀ l, l ∈ orphans ↔ l ∈ s.ctl.store.state.leases.rows ∧
        s'.ctl.owns_lease l.id = false ∧ l.state ≠ .Released ∧ l.id ∉ s.ctl.queued_releases)
      (emitted : s'.emitted.Perm (s.emitted ++ orphans.map orphan_release))
  | left {new : List DrainAction} (call : c.call e.label = some s'.ctl)
      (leaves : Controller.Leaves c s'.ctl new)
      (given : ∀ a ∈ new, ∃ j, s.job j.id = some j ∧ j.service_removed = false ∧
        j.lease.valid = true ∧ a = Drive.retirement j)
      (emitted : s'.emitted.Perm (s.emitted ++ new))
  | answered {action : DrainAction} {response : DrainResponse} {now : Nanos}
      (answering : s.answering e = some (action, response, now))
      (outcome : Applied s c action response now s')
  | restarted (label : e.restarts = true) (restarts : Controller.Restarts s.ctl.store s'.ctl)
      (emitted : s'.emitted = s'.ctl.deferred_releases)

theorem Attended.step {s : System} (h : s.Attended) (e : Event) : (s.step e).Attended := by
  have hdid := s.step_did e
  generalize s.step e = s' at hdid
  -- A pass is opened by its own thread alone, and only once the thread has no action left.
  cases hdid with
  | nothing => exact h
  | restarted _ =>
    intro p hp
    cases hp
  | @drove p _ _ _ _ pass _ =>
    intro q hq
    cases Option.some.inj hq
    exact h p pass
  | closed _ _ _ _ =>
    intro q hq
    cases hq
  | ticked _ _ pass _ =>
    intro q hq
    rw [show s.pass = some q from hq] at pass
    cases pass
  | @began thread t _ _ _ found ready =>
    intro q hq
    cases Option.some.inj hq
    have hid : t.id = thread := Table.key_of_find found
    refine ⟨{ t with passes := t.passes - 1 }, ?_, ready.2⟩
    show (s.threads.put { t with passes := t.passes - 1 }).find thread = _
    rw [← hid]
    exact Table.find_put_self _ _
  | marked _ _ pass _ _ =>
    intro q hq
    rw [show s.pass = some q from hq] at pass
    cases pass
  | answered _ _ pass _ _ =>
    intro q hq
    rw [show s.pass = some q from hq] at pass
    cases pass
  | finished _ _ pass _ _ =>
    intro q hq
    rw [show s.pass = some q from hq] at pass
    cases pass
  | called _ pass _ =>
    intro q hq
    rw [show s.pass = some q from hq] at pass
    cases pass

theorem attended_run (events : List Event) : (initial.run events).Attended :=
  run_invariant (fun _ e hs => hs.step e) events (fun _ hp => by cases hp)

/-- A thread whose actions do not change leaves what is under way alone. -/
theorem performing_same {threads : Table Thread.id} {thread : Nat} {t t' : Thread}
    (found : threads.find thread = some t) (hid : t'.id = t.id)
    (hactions : t'.actions = t.actions) :
    ((threads.put t').rows.flatMap Thread.actions).Perm (threads.rows.flatMap Thread.actions) := by
  have hput := performing_put threads t'
  rw [hactions, hid, Table.key_of_find found] at hput
  exact hput.trans (performing_found found).symm

/-- The step that applies an outcome. -/
theorem applied_outcome {s : System} {c : Controller} {thread : Nat} (answer : DrainResponse)
    {t : Thread} {action : DrainAction} {rest : List DrainAction}
    (hdeferred : c.deferred_releases = s.ctl.deferred_releases)
    (hinflight : c.drain_inflight = s.ctl.drain_inflight) (pass : s.pass = none)
    (found : s.threads.find thread = some t) (actions : t.actions = action :: rest) :
    Applied s c action (Controller.perform_action action answer) t.now { s with
      ctl := c.apply_outcome action (Controller.perform_action action answer) t.now
      threads := s.threads.put { t with actions := rest, marked := false } } := by
  cases (show t.id = thread from Table.key_of_find found)
  obtain ⟨hanswered, hfiltered⟩ := c.answered_apply_outcome action
    (Controller.perform_action action answer) t.now
  -- The action that is answered leaves its thread; what the answer adds is deferred.
  have hnew : ∃ new, (c.apply_outcome action (Controller.perform_action action answer)
      t.now).deferred_releases = s.ctl.deferred_releases ++ new := by
    rw [← hdeferred]
    cases hanswered with
    | kept _ _ _ deferred => exact ⟨[], deferred.trans (List.append_nil _).symm⟩
    | gone _ _ _ deferred => exact ⟨[], deferred.trans (List.append_nil _).symm⟩
    | stale _ _ _ deferred => exact ⟨_, deferred⟩
    | failed _ _ _ _ deferred => exact ⟨[], deferred.trans (List.append_nil _).symm⟩
    | granted _ _ _ _ _ deferred => exact ⟨[], deferred.trans (List.append_nil _).symm⟩
  obtain ⟨new, hnew⟩ := hnew
  refine ⟨rfl, hanswered, ?_, s.ctl.deferred_releases ++
    (rest ++ (s.threads.erase t.id).rows.flatMap Thread.actions), new, hnew, ?_, ?_⟩
  · rw [← hinflight]
    exact hfiltered
  · have hfound := performing_found found
    rw [actions, List.cons_append] at hfound
    simp only [emitted, passing, performing, pass, Option.map_none, Option.getD_none,
      List.append_nil]
    exact (List.Perm.append_left _ hfound).trans List.perm_middle
  · have hput := performing_put s.threads { t with actions := rest, marked := false }
    simp only [emitted, passing, performing, pass, hnew, Option.map_none, Option.getD_none,
      List.append_nil, List.append_assoc]
    refine List.Perm.append_left _ ((List.Perm.append_left _ hput).trans ?_)
    rw [← List.append_assoc rest]
    exact List.perm_append_comm

/-- A drive adds what it appends to the actions of its pass. -/
theorem emitted_drove {s : System} {p : Pass} {rest : List JobId} {c' : Controller}
    {new : List DrainAction} (pass : s.pass = some p)
    (hkept : c'.deferred_releases = s.ctl.deferred_releases) :
    (emitted { s with
      ctl := c', pass := some { p with remaining := rest, actions := p.actions ++ new } }).Perm
      (s.emitted ++ new) := by
  simp only [emitted, passing, performing, pass, hkept, Option.map_some, Option.getD_some,
    List.append_assoc]
  refine List.Perm.append_left _ (List.Perm.append_left _ ?_)
  exact List.perm_append_comm

/-- The end of a pass hands its actions to its tick, and adds the releases of the orphans. -/
theorem emitted_closed {s : System} {p : Pass} {t : Thread} {c : Controller}
    (pass : s.pass = some p) (found : s.threads.find p.thread = some t) (idle : t.actions = [])
    (hkept : c.deferred_releases = s.ctl.deferred_releases) :
    (emitted { s with
      ctl := (c.sweep_orphans p.actions).1
      pass := none
      threads := s.threads.put (end_pass t (c.sweep_orphans p.actions).2) }).Perm
      (s.emitted ++ c.orphans.map orphan_release) := by
  have hid : t.id = p.thread := Table.key_of_find found
  have hput := performing_put s.threads (end_pass t (c.sweep_orphans p.actions).2)
  have hfound := performing_found found
  rw [idle, List.nil_append] at hfound
  rw [show (end_pass t (c.sweep_orphans p.actions).2).id = p.thread from hid] at hput
  simp only [emitted, passing, performing, pass, Option.map_some, Option.getD_some,
    Option.map_none, Option.getD_none, List.append_nil]
  rw [show (c.sweep_orphans p.actions).1.deferred_releases = s.ctl.deferred_releases from hkept,
    List.append_assoc, List.append_assoc]
  refine List.Perm.append_left _ (hput.trans ?_)
  show (p.actions ++ _ ++ _).Perm _
  rw [List.append_assoc]
  refine List.Perm.append_left _ ?_
  exact List.perm_append_comm.trans (List.Perm.append_right _ hfound.symm)

/-- Every step, seen from the actions under way. -/
theorem emits_step {s : System} (h : s.Attended) (e : Event) :
    Emits s e (under s.ctl e.verdicts) (s.step e) := by
  have hdid := s.step_did e
  have hctl : (under s.ctl e.verdicts).deferred_releases = s.ctl.deferred_releases ∧
      (under s.ctl e.verdicts).drain_inflight = s.ctl.drain_inflight ∧
      (under s.ctl e.verdicts).queued_releases = s.ctl.queued_releases ∧
      (under s.ctl e.verdicts).store.state = s.ctl.store.state := ⟨rfl, rfl, rfl, rfl⟩
  generalize s.step e = s' at hdid
  generalize under s.ctl e.verdicts = c at hdid hctl ⊢
  obtain ⟨hdeferred, hinflight, hqueued, hstate⟩ := hctl
  cases hdid with
  | nothing =>
    refine .kept (fun j hj => hinflight ▸ hj) (by rw [← hstate]) ?_
    simp only [emitted, passing, performing, hdeferred]
    exact .refl _
  | @restarted options clock steady label =>
    refine .restarted (by unfold Event.restarts; rw [label]) ?_ ?_
    · have hrestarts := Controller.restarts_open c.store options clock steady
      exact ⟨hrestarts.inflight, by rw [← hstate]; exact hrestarts.leases,
        by rw [← hstate]; exact hrestarts.deferred⟩
    · simp [emitted, passing, performing, restart, Table.empty]
  -- What a drive adds stands at the end of the actions of the pass.
  | @drove p id rest label up pass remaining =>
    have hasks := c.asks_drive_locked id (p.context c) p.actions
    obtain ⟨hframe, _⟩ := c.keeps_drive_locked id (p.context c) p.actions
    generalize c.drive_locked id (p.context c) p.actions = out at hasks hframe
    obtain ⟨c', actions'⟩ := out
    have hnew : ∃ new, actions' = p.actions ++ new := by
      cases hasks with
      | nothing _ => exact ⟨[], (List.append_nil _).symm⟩
      | retired _ _ _ _ => exact ⟨_, rfl⟩
      | requested _ _ _ _ _ _ _ => exact ⟨_, rfl⟩
      | recalled _ _ _ _ _ => exact ⟨_, rfl⟩
    obtain ⟨new, rfl⟩ := hnew
    have hkept : c'.deferred_releases = s.ctl.deferred_releases := hframe.deferred.trans hdeferred
    have hleases : c'.store.state.leases = s.ctl.store.state.leases := by
      rw [← hstate]
      exact hframe.store.leases
    exact .asked label pass remaining hasks hleases (emitted_drove pass hkept)
  -- The orphans are read after arbitration, which keeps the leases and the queued releases.
  | @closed p label up pass remaining =>
    obtain ⟨t, found, idle⟩ := h p pass
    have hframe := c.frame_arbitrate_locked (p.context c)
    have hmarks := c.unmarked_arbitrate_locked (p.context c)
    have hkept : (c.arbitrate_locked (p.context c)).deferred_releases = s.ctl.deferred_releases :=
      hframe.deferred.trans hdeferred
    have hleases : (c.arbitrate_locked (p.context c)).store.state.leases =
        s.ctl.store.state.leases := by
      rw [← hstate]
      exact hframe.store.leases
    have hsame : (c.arbitrate_locked (p.context c)).queued_releases = s.ctl.queued_releases :=
      hmarks.queued.trans hqueued
    simp only [found]
    have horphaned : ∀ l, l ∈ (c.arbitrate_locked (p.context c)).orphans ↔
        l ∈ s.ctl.store.state.leases.rows ∧
          (c.arbitrate_locked (p.context c)).owns_lease l.id = false ∧ l.state ≠ .Released ∧
          l.id ∉ s.ctl.queued_releases := by
      intro l
      unfold Controller.orphans
      rw [List.mem_filter, hleases, hsame]
      simp only [Bool.not_eq_true', Bool.or_eq_false_iff, decide_eq_false_iff_not, and_assoc]
    exact .swept label pass remaining rfl (hmarks.inflight.trans hinflight) hleases horphaned
      (emitted_closed pass found idle hkept)
  -- A thread that has just been started has no action yet.
  | @ticked thread now label up pass unused =>
    refine .kept (fun j hj => hinflight ▸ hj) (by rw [← hstate]) ?_
    simp only [emitted, passing, performing, hdeferred]
    refine List.Perm.append_left _ ?_
    have hput := performing_put s.threads { id := thread, now }
    rw [show ({ id := thread, now } : Thread).actions = [] from rfl, List.nil_append,
      Table.erase_of_find_none unused] at hput
    exact hput
  -- The actions move from the pass to the thread: counted once before and once after.
  | @began thread t label up pass found ready =>
    have hstands := c.store.stands_expire_authority t.now
    refine .kept (fun j hj => hinflight ▸ hj) (by rw [← hstate]; exact hstands.leases) ?_
    simp only [emitted, passing, performing, pass, hdeferred, Option.map_some, Option.getD_some,
      Option.map_none, Option.getD_none, List.nil_append, List.append_nil]
    exact List.Perm.append_left _ (performing_same found rfl rfl)
  -- A mark is set only for an action that names a job; nothing is ever unmarked here.
  | @marked thread t action rest label up pass found actions =>
    refine .kept ?_ ?_ ?_
    · intro j hj
      rw [← hinflight] at hj
      simp only
      split
      · exact mem_push_unique.mpr (.inl hj)
      · exact hj
    · rw [← hstate]
      simp only
      split <;> rfl
    · have hkept : (if action.job.valid = true then
          { c with drain_inflight := push_unique c.drain_inflight action.job } else c :
          Controller).deferred_releases = s.ctl.deferred_releases := by
        rw [← hdeferred]
        split <;> rfl
      simp only [emitted, passing, performing, hkept]
      exact List.Perm.append_left _ (performing_same found rfl rfl)
  | @answered thread answer t action rest label up pass found actions marked =>
    exact .answered (answering_eq label up pass found actions marked)
      (applied_outcome answer hdeferred hinflight pass found actions)
  | @finished thread t label up pass found done =>
    refine .kept (fun j hj => hinflight ▸ hj) (by rw [← hstate]) ?_
    simp only [emitted, passing, performing, hdeferred]
    refine List.Perm.append_left _ ?_
    have hfound := performing_found found
    rw [done.2, List.nil_append] at hfound
    exact hfound.symm
  -- A call adds its releases to the deferred ones, which are counted first.
  | @called ctl up pass call =>
    have hadded : ∀ new, Controller.Leaves c ctl new →
        (emitted { s with ctl }).Perm (s.emitted ++ new) := by
      intro new hleaves
      have hkept : ctl.deferred_releases = s.ctl.deferred_releases ++ new :=
        hleaves.deferred.trans (by rw [hdeferred])
      simp only [emitted, passing, performing, pass, hkept, Option.map_none, Option.getD_none,
        List.append_nil, List.append_assoc]
      exact List.Perm.append_left _ List.perm_append_comm
    rcases Controller.call_asks call with hleaves | ⟨j, hj, kept, held, hleaves⟩
    · exact .left call hleaves (fun _ ha => by cases ha) (hadded _ hleaves)
    · refine .left call hleaves ?_ (hadded _ hleaves)
      intro a ha
      rw [List.mem_singleton] at ha
      refine ⟨j, ?_, kept, held, ha⟩
      unfold System.job
      rw [← hstate]
      exact hj

/-- The step of an event that applies an outcome. -/
theorem step_answering {s : System} {e : Event} {action : DrainAction} {response : DrainResponse}
    {now : Nanos} (h : s.answering e = some (action, response, now)) :
    Applied s (under s.ctl e.verdicts) action response now (s.step e) := by
  unfold answering at h
  split at h
  · next thread answer label =>
    split at h
    · next hfree =>
      simp only [Bool.and_eq_true, Option.isNone_iff_eq_none] at hfree
      obtain ⟨up, pass⟩ := hfree
      split at h
      · cases h
      · next t found =>
        split at h
        · next first rest actions marked =>
          have hstep : s.step e = { s with
              ctl := (under s.ctl e.verdicts).apply_outcome first
                (Controller.perform_action first answer) t.now
              threads := s.threads.put { t with actions := rest, marked := false } } := by
            unfold step
            simp only [label, pass]
            rw [if_pos up]
            show outcome _ thread answer = _
            unfold outcome
            simp only [found, actions, marked]
          rw [hstep]
          cases h
          exact applied_outcome answer rfl rfl pass found actions
        · cases h
    · cases h
  · cases h

/-- A release is answered about the lease it named. -/
theorem answering_release {s : System} {e : Event} {action : DrainAction} {response : DrainResponse}
    {now : Nanos} (h : s.answering e = some (action, response, now))
    (kind : action.kind = .Release) :
    Controller.granted_lease action response = action.lease := by
  unfold answering at h
  split at h
  · split at h
    · split at h
      · cases h
      · split at h
        · cases h
          unfold Controller.granted_lease Controller.perform_action
          rw [kind]
          exact ite_self _
        · cases h
    · cases h
  · cases h

end System

end MaintenanceFabric
