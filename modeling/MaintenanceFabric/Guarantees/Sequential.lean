import MaintenanceFabric.Lib.Coarse
import MaintenanceFabric.Runtime.Frames
import MaintenanceFabric.Runtime.Host

/-! # One process is a run of the system

    A process that runs whole ticks and calls in turn is matched by the
    system, where every tick is broken into the steps between which others
    may move: the same calls, ticks and restarts, in the same order, under
    the same journal answers, lead to the same controller.  So what holds of
    every state the system reaches holds of every state such a process
    reaches, whatever drain service it talks to.
-/

namespace MaintenanceFabric

open Lib

/-- Is the label a step inside a tick? -/
def Label.inner : Label → Bool
  | .begin_pass _ | .pass_step | .mark _ | .outcome _ _ | .finish _ => true
  | _ => false

/-- What an observer of the process sees of an event. -/
def Event.shown (e : Event) : Option Event := if e.label.inner then none else some e

/-- What it sees of a turn. The only tick under way has the number 0. -/
def Turn.shown {π : Type} : Turn π → Option Event
  | .call label _ verdicts => some { label, verdicts }
  | .tick now verdicts => some { label := .tick 0 now, verdicts }
  | .open options clock steady verdicts => some { label := .open options clock steady, verdicts }
  | .service _ => none

namespace System

/-- A run of which the observer sees nothing. -/
def Silent (s s' : System) : Prop := Leads step Event.shown s [] s'

/-- The next step of a tick, under the journal answers that are left. -/
def going_on (s : System) (label : Label) : Event := { label, verdicts := s.ctl.store.verdicts }

/-- The state with one tick under way besides those of `s`. -/
def amid (s : System) (c : Controller) (t : Thread) : System :=
  { s with ctl := c, threads := s.threads.put t }

variable {s : System}

theorem silent_step {label : Label} (hinner : label.inner = true) :
    Silent s (s.step (s.going_on label)) :=
  Leads.hidden (e := s.going_on label) (if_pos hinner)

theorem step_locked {p : Pass} (up : s.up = true) (pass : s.pass = some p) :
    s.step (s.going_on .pass_step) = s.pass_step p := by
  obtain ⟨c, u, threads, q⟩ := s
  cases up
  cases pass
  rfl

theorem step_unlocked {label : Label} (hinner : label.inner = true) (up : s.up = true)
    (pass : s.pass = none) : s.step (s.going_on label) = s.unlocked label := by
  obtain ⟨c, u, threads, q⟩ := s
  cases up
  cases pass
  cases label with
  | begin_pass | pass_step | mark | outcome | finish => rfl
  | _ => cases hinner

/-- An inner step that the system takes between passes. -/
theorem silent_unlocked (label : Label) (hinner : label.inner = true) (up : s.up = true)
    (pass : s.pass = none) : Silent s (s.unlocked label) :=
  step_unlocked hinner up pass ▸ silent_step hinner

/-! ## A pass -/

/-- A pass does not touch what its view is built from. -/
theorem context_drive_locked (p : Pass) (c : Controller) (id : JobId) (context : PassContext)
    (actions : List DrainAction) :
    p.context (c.drive_locked id context actions).1 = p.context c := by
  have hframe := (c.keeps_drive_locked id context actions).1
  unfold Pass.context
  rw [hframe.topology, hframe.policy, hframe.incarnation]

/-- The jobs the pass has still to drive, one step each. -/
theorem silent_drives (up : s.up = true) {p : Pass} (pass : s.pass = some p) :
    ∃ driven, driven = p.remaining.foldl
        (fun d id => d.1.drive_locked id (p.context s.ctl) d.2) (s.ctl, p.actions) ∧
      p.context driven.1 = p.context s.ctl ∧
      Silent s { s with
        ctl := driven.1, pass := some { p with remaining := [], actions := driven.2 } } := by
  -- By induction on the jobs left; the view is the one of the pass's beginning throughout.
  induction hjobs : p.remaining generalizing s p with
  | nil =>
    refine ⟨_, rfl, rfl, ?_⟩
    have hsame : s = { s with pass := some { p with remaining := [] } } := by
      rw [← hjobs, ← pass]
    rw [List.foldl_nil]
    exact hsame ▸ Leads.refl s
  | cons id rest ih =>
    let driven := s.ctl.drive_locked id (p.context s.ctl) p.actions
    let next : Pass := { p with remaining := rest, actions := driven.2 }
    have hstep : s.step (s.going_on .pass_step) =
      { s with ctl := driven.1, pass := some next } := by
      rw [step_locked up pass]
      unfold pass_step
      rw [hjobs]
    have hcontext : p.context driven.1 = p.context s.ctl := context_drive_locked p _ _ _ _
    obtain ⟨last, hlast, hview, hleads⟩ :=
      ih (s := { s with ctl := driven.1, pass := some next }) (p := next) up rfl rfl
    have hnext : next.context driven.1 = p.context s.ctl := hcontext
    refine ⟨last, ?_, hview.trans hcontext, ?_⟩
    · rw [hlast, hnext]
      rfl
    · exact (hstep ▸ silent_step rfl).then_hidden hleads

/-! ## One round of a tick -/

theorem find_amid (c : Controller) (t : Thread) : (s.amid c t).threads.find t.id = some t :=
  Table.find_put_self s.threads t

/-- The pass a tick begins. -/
def begun_pass (c : Controller) (t : Thread) : Pass :=
  let store := c.store.expire_authority t.now
  { thread := t.id
    now := t.now
    evidence := store.state.evidence
    remaining := MaintenanceFabric.plan_tick store.state.jobs
    actions := c.deferred_releases }

theorem begin_pass_amid (c : Controller) {t : Thread} (hpasses : t.passes ≠ 0)
    (hactions : t.actions = []) :
    (s.amid c t).begin_pass t.id =
      { s.amid { c with store := c.store.expire_authority t.now, deferred_releases := [] }
          { t with passes := t.passes - 1 } with pass := some (begun_pass c t) } := by
  have hbusy : ¬ (t.passes = 0 ∨ t.actions ≠ []) := by simp [hpasses, hactions]
  have hput : (s.threads.put t).put { t with passes := t.passes - 1 } =
      s.threads.put { t with passes := t.passes - 1 } := Table.put_put rfl
  unfold begin_pass
  rw [find_amid]
  simp only [if_neg hbusy, amid, hput]
  rfl

theorem end_pass_amid (c : Controller) (t : Thread) {p : Pass} (hthread : p.thread = t.id)
    (hdone : p.remaining = []) :
    ({ s.amid c t with pass := some p } : System).pass_step p =
      { s.amid ((c.arbitrate_locked (p.context c)).sweep_orphans p.actions).1
          (end_pass t ((c.arbitrate_locked (p.context c)).sweep_orphans p.actions).2) with
        pass := none } := by
  have hfind : (s.threads.put t).find p.thread = some t := hthread ▸ Table.find_put_self _ _
  have hput : ∀ actions, (s.threads.put t).put (end_pass t actions) =
      s.threads.put (end_pass t actions) := fun _ => Table.put_put rfl
  unfold pass_step
  rw [hdone]
  simp only [amid, hfind, hput]

/-- A tick that may begin a pass runs it: what the pass asks for is then up to the tick. -/
theorem silent_pass (up : s.up = true) (pass : s.pass = none) (c : Controller) {t : Thread}
    (hpasses : t.passes ≠ 0) (hactions : t.actions = []) :
    Silent (s.amid c t) (s.amid (c.locked_pass t.now).1
      (end_pass { t with passes := t.passes - 1 } (c.locked_pass t.now).2)) := by
  let c' : Controller :=
    { c with store := c.store.expire_authority t.now, deferred_releases := [] }
  let p := begun_pass c t
  let t' : Thread := { t with passes := t.passes - 1 }
  have hbegin : Silent (s.amid c t) { s.amid c' t' with pass := some p } :=
    begin_pass_amid c hpasses hactions ▸
      silent_unlocked (s := s.amid c t) (.begin_pass t.id) rfl up pass
  obtain ⟨driven, hdriven, hview, hdrives⟩ :=
    silent_drives (s := { s.amid c' t' with pass := some p }) up rfl
  let last : Pass := { p with remaining := [], actions := driven.2 }
  have hend : Silent { s.amid driven.1 t' with pass := some last }
      { s.amid ((driven.1.arbitrate_locked (last.context driven.1)).sweep_orphans driven.2).1
          (end_pass t' ((driven.1.arbitrate_locked (last.context driven.1)).sweep_orphans
            driven.2).2) with pass := none } := by
    rw [← end_pass_amid (s := s) driven.1 t' (p := last) rfl rfl,
      ← step_locked (s := { s.amid driven.1 t' with pass := some last }) up rfl]
    exact silent_step rfl
  -- The pass of the program sorts its work lists, which gives the order of the table.
  have hpass : c.locked_pass t.now =
      (driven.1.arbitrate_locked (last.context driven.1)).sweep_orphans driven.2 := by
    have hcontext : last.context driven.1 = p.context c' := hview
    unfold Controller.locked_pass Controller.drain_all_locked
    rw [Scheduler.drive_order_eq, hcontext, hdriven]
    rfl
  rw [hpass]
  have hnone : ∀ (c : Controller) (t : Thread), { s.amid c t with pass := none } = s.amid c t :=
    fun c t => by rw [← pass]; rfl
  rw [hnone] at hend
  exact (hbegin.then_hidden hdrives).then_hidden hend

/-- Marking puts the job of the first action in flight, and no other field moves. -/
theorem mark_amid (c : Controller) {t : Thread} {action : DrainAction} {rest : List DrainAction}
    (hactions : t.actions = action :: rest) :
    (s.amid c t).mark t.id =
      s.amid (if action.job.valid then
          { c with drain_inflight := push_unique c.drain_inflight action.job } else c)
        { t with marked := true } := by
  have hput : ∀ w : Thread, t.id = w.id → (s.threads.put t).put w = s.threads.put w :=
    fun _ => Table.put_put
  unfold mark
  rw [find_amid]
  simp only [hactions, amid, hput]

theorem outcome_amid (c : Controller) {t : Thread} {action : DrainAction}
    {rest : List DrainAction} (hactions : t.actions = action :: rest) (hmarked : t.marked = true)
    (answer : DrainResponse) :
    (s.amid c t).outcome t.id answer =
      s.amid (c.apply_outcome action (Controller.perform_action action answer) t.now)
        { t with actions := rest, marked := false } := by
  have hput : (s.threads.put t).put { t with actions := rest, marked := false } =
      s.threads.put { t with actions := rest, marked := false } := Table.put_put rfl
  unfold outcome
  rw [find_amid]
  simp only [hactions, hmarked, amid, hput]

/-- What the port says is one of the answers the system allows for. -/
theorem perform_action_ask {π : Type} (port : DrainPort π) (c : Controller) (action : DrainAction)
    (drain : π) :
    Controller.perform_action action (c.ask port action drain).1 = (c.ask port action drain).1 := by
  unfold Controller.perform_action Controller.ask
  cases action.kind <;> rfl

theorem silent_settle {π : Type} (port : DrainPort π) (up : s.up = true) (pass : s.pass = none)
    (w : Controller × π) {t : Thread} {action : DrainAction} {rest : List DrainAction}
    (hactions : t.actions = action :: rest) :
    Silent (s.amid w.1 t) (s.amid (Controller.settle port t.now w action).1
      { t with actions := rest, marked := false }) := by
  let c : Controller := if action.job.valid then
      { w.1 with drain_inflight := push_unique w.1.drain_inflight action.job } else w.1
  let t' : Thread := { t with marked := true }
  have hmark : Silent (s.amid w.1 t) (s.amid c t') :=
    mark_amid w.1 hactions ▸ silent_unlocked (s := s.amid w.1 t) (.mark t.id) rfl up pass
  let answer := (c.ask port action w.2).1
  have houtcome := outcome_amid (s := s) (t := t') c hactions rfl answer
  rw [perform_action_ask] at houtcome
  exact hmark.then_hidden (houtcome ▸
    silent_unlocked (s := s.amid c t') (.outcome t.id answer) rfl up pass)

/-- All actions of a round, in order. -/
theorem silent_settles {π : Type} (port : DrainPort π) (up : s.up = true) (pass : s.pass = none)
    (w : Controller × π) (t : Thread) (hmarked : t.marked = false) :
    Silent (s.amid w.1 t) (s.amid (t.actions.foldl (Controller.settle port t.now) w).1
      { t with actions := [] }) := by
  induction hactions : t.actions generalizing w t with
  | nil =>
    have hsame : t = { t with actions := [] } := by rw [← hactions]
    rw [List.foldl_nil, ← hsame]
    exact Leads.refl _
  | cons action rest ih =>
    have hrest := ih (Controller.settle port t.now w action)
      { t with actions := rest, marked := false } rfl rfl
    -- The mark of an action is gone before the next one is looked at.
    have hsame : ({ t with actions := [], marked := false } : Thread) =
      { t with actions := [] } := by
      rw [← hmarked]
    rw [List.foldl_cons, ← hsame]
    exact (silent_settle port up pass w hactions).then_hidden hrest

/-! ## A tick -/

theorem rounds_succ {π : Type} (port : DrainPort π) (now : Nanos) (passes : Nat)
    (w : Controller × π) :
    Controller.rounds port now (passes + 1) w =
      if (w.1.locked_pass now).2.isEmpty then ((w.1.locked_pass now).1, w.2)
      else Controller.rounds port now passes ((w.1.locked_pass now).2.foldl
        (Controller.settle port now) ((w.1.locked_pass now).1, w.2)) := rfl

/-- Rounds end with nothing left to do: no pass to begin and no action to perform. -/
theorem silent_rounds {π : Type} (port : DrainPort π) (up : s.up = true) (pass : s.pass = none)
    (id : Nat) (now : Nanos) (passes : Nat) (w : Controller × π) :
    Silent (s.amid w.1 { id, now, passes }) (s.amid (Controller.rounds port now passes w).1
      { id, now, passes := 0 }) := by
  induction passes generalizing w with
  | zero => exact Leads.refl _
  | succ passes ih =>
    have hround : Silent (s.amid w.1 { id, now, passes := passes + 1 })
        (s.amid (w.1.locked_pass now).1 (end_pass { id, now, passes } (w.1.locked_pass now).2)) :=
      silent_pass (t := { id, now, passes := passes + 1 }) up pass w.1 (Nat.succ_ne_zero passes) rfl
    rw [rounds_succ]
    by_cases hempty : (w.1.locked_pass now).2.isEmpty = true
    · -- Without actions the tick is not to begin another pass.
      have hlast : end_pass { id, now, passes } (w.1.locked_pass now).2 =
          { id, now, passes := 0 } := by
        rw [List.isEmpty_iff.mp hempty]
        rfl
      rw [if_pos hempty]
      rw [hlast] at hround
      exact hround
    · have hnext : end_pass { id, now, passes } (w.1.locked_pass now).2 =
          { id, now, passes, actions := (w.1.locked_pass now).2 } := by
        unfold end_pass
        rw [if_neg hempty]
      rw [if_neg hempty]
      rw [hnext] at hround
      have hsettled := silent_settles (s := s) port up pass ((w.1.locked_pass now).1, w.2)
        { id, now, passes, actions := (w.1.locked_pass now).2 } rfl
      exact (hround.then_hidden hsettled).then_hidden (ih _)

theorem begin_tick_amid (hfree : s.threads.find 0 = none) (now : Nanos) :
    s.begin_tick 0 now = s.amid s.ctl { id := 0, now } := by
  have hnew : ¬ (s.threads.find 0).isSome = true := by rw [hfree]; simp
  unfold begin_tick
  rw [if_neg hnew]
  rfl

/-- A tick that has nothing left to do leaves. -/
theorem finish_amid (hfree : s.threads.find 0 = none) (c : Controller) (now : Nanos) :
    (s.amid c { id := 0, now, passes := 0 }).finish 0 = { s with ctl := c } := by
  have hfind : (s.amid c { id := 0, now, passes := 0 }).threads.find 0 =
      some { id := 0, now, passes := 0 } := find_amid (s := s) c { id := 0, now, passes := 0 }
  have herase : (s.threads.put { id := 0, now, passes := 0 }).erase 0 = s.threads :=
    Table.erase_put hfree
  unfold finish
  rw [hfind]
  simp only [and_self, if_true, amid, herase]

/-- The entry and the return of a tick around its rounds. -/
theorem leads_tick {π : Type} (port : DrainPort π) (up : s.up = true) (pass : s.pass = none)
    (hfree : s.threads.find 0 = none) (drain : π) (now : Nanos)
    (verdicts : List (Option JournalFault)) :
    Leads step Event.shown s [{ label := .tick 0 now, verdicts }]
      { s with ctl := ((under s.ctl verdicts).tick port drain now).1 } := by
  let c := under s.ctl verdicts
  have hbegin : s.step { label := .tick 0 now, verdicts } = s.amid c { id := 0, now } := by
    have hentered : s.step { label := .tick 0 now, verdicts } =
        ({ s with ctl := c } : System).begin_tick 0 now := by
      obtain ⟨ctl, u, threads, q⟩ := s
      cases up
      cases pass
      rfl
    rw [hentered]
    exact begin_tick_amid (s := { s with ctl := c }) hfree now
  have hhead : Leads step Event.shown s [{ label := .tick 0 now, verdicts }]
      (s.amid c { id := 0, now }) := hbegin ▸ Leads.shown rfl
  have hrounds := silent_rounds (s := s) port up pass 0 now kMaxPassesPerTick (c, drain)
  -- A tick that has run its rounds returns, and its entry is gone with it.
  have hlast := silent_unlocked
    (s := s.amid (c.tick port drain now).1 { id := 0, now, passes := 0 }) (.finish 0) rfl up pass
  have hfinish := finish_amid hfree (c.tick port drain now).1 now
  exact hhead.trans (hrounds.then_hidden (hfinish ▸ hlast))

end System

/-! ## The process -/

namespace Host

variable {π : Type} (port : DrainPort π)

/-- A call is one step, with or without a process to take it. -/
theorem step_call (h : Host π) {label : Label} (houtside : label.outside = true)
    (verdicts : List (Option JournalFault)) :
    h.system.step { label, verdicts } = (h.turn port (.call label houtside verdicts)).system := by
  obtain ⟨ctl, up, drain⟩ := h
  cases up with
  | false => cases label <;> first | rfl | cases houtside
  | true => cases label <;> first | rfl | cases houtside

theorem leads_turn (h : Host π) (t : Turn π) :
    Leads System.step Event.shown h.system t.shown.toList (h.turn port t).system := by
  cases t with
  | call label houtside verdicts =>
    have hshown : Event.shown { label, verdicts } = some { label, verdicts } := by
      cases label <;> first | rfl | cases houtside
    exact step_call port h houtside verdicts ▸ Leads.shown hshown
  | tick now verdicts =>
    by_cases hup : h.up = true
    · obtain ⟨ctl, up, drain⟩ := h
      cases hup
      exact System.leads_tick port rfl rfl rfl drain now verdicts
    · -- Nobody is there to run the tick.
      have hstep : h.system.step { label := .tick 0 now, verdicts } =
          (h.turn port (.tick now verdicts)).system := by
        unfold turn System.step
        simp only [hup, system]
        rfl
      exact hstep ▸ Leads.shown rfl
  -- A restart is one step on both sides.
  | «open» options clock steady verdicts =>
    have hstep : h.system.step { label := .open options clock steady, verdicts } =
        (h.turn port (.open options clock steady verdicts)).system := rfl
    exact hstep ▸ Leads.shown rfl
  | service drain => exact Leads.refl _

/-- Whatever the drain service, a process that runs calls, whole ticks and restarts one after the
    other reaches the controller that the system reaches by the same calls, ticks and restarts in
    the same order, under the same journal answers. -/
theorem process_run_is_system_run (drain : π) (turns : List (Turn π)) :
    ∃ events : List Event, events.filterMap Event.shown = turns.filterMap Turn.shown ∧
      System.initial.run events = (run port { drain } turns).system :=
  Leads.runs (leads_turn port) turns { drain }

end Host

end MaintenanceFabric
