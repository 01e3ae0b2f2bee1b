import MaintenanceFabric.Guarantees.Releases
import MaintenanceFabric.Runtime.Emissions

/-! # No mark without work behind it

    A job whose drain request is in flight asks for nothing more, and a lease
    whose release is queued is not released again.  A mark that nobody would
    ever take back would block its job or keep its lease for good.  Whatever
    ticks, calls and restarts interleave, there is no such mark: an action of
    the marked job is with a pass or a tick, the release of the marked lease
    is there too or waits for the next pass.
-/

namespace MaintenanceFabric

open Lib

/-- What stands behind the marks: actions with a pass or a tick are `busy`. -/
structure Backs (inflight : List JobId) (queued : List DrainLeaseId)
    (deferred busy : List DrainAction) : Prop where
  inflight : ∀ job ∈ inflight, ∃ a ∈ busy, a.job = job
  queued : ∀ lease ∈ queued, ∃ a ∈ deferred ++ busy, a.kind = .Release ∧ a.lease = lease

/-- Old marks keep what stands behind them, new ones come with their own. -/
theorem Backs.grow {inflight inflight' : List JobId} {queued queued' : List DrainLeaseId}
    {deferred deferred' busy busy' : List DrainAction} (h : Backs inflight queued deferred busy)
    (hbusy : ∀ a ∈ busy, a ∈ busy') (hdeferred : ∀ a ∈ deferred, a ∈ deferred' ++ busy')
    (hinflight : ∀ job ∈ inflight', job ∈ inflight ∨ ∃ a ∈ busy', a.job = job)
    (hqueued : ∀ lease ∈ queued', lease ∈ queued ∨
      ∃ a ∈ deferred' ++ busy', a.kind = .Release ∧ a.lease = lease) :
    Backs inflight' queued' deferred' busy' := by
  constructor
  · intro job hjob
    rcases hinflight job hjob with hold | hnew
    · obtain ⟨a, ha, hof⟩ := h.inflight job hold
      exact ⟨a, hbusy a ha, hof⟩
    · exact hnew
  · intro lease hlease
    rcases hqueued lease hlease with hold | hnew
    · obtain ⟨a, ha, hof⟩ := h.queued lease hold
      rcases List.mem_append.mp ha with ha | ha
      · exact ⟨a, hdeferred a ha, hof⟩
      · exact ⟨a, List.mem_append.mpr (.inr (hbusy a ha)), hof⟩
    · exact hnew

namespace Controller

/-! ## Where marks come from -/

/-- A drive marks what it asks for. -/
theorem Asks.marks {c : Controller} {id : JobId} {context : PassContext}
    {actions : List DrainAction} {out : Controller × List DrainAction}
    (h : Asks c id context actions out) :
    (∀ a ∈ actions, a ∈ out.2) ∧
    (∀ job ∈ out.1.drain_inflight, job ∈ c.drain_inflight ∨ ∃ a ∈ out.2, a.job = job) ∧
    (∀ lease ∈ out.1.queued_releases, lease ∈ c.queued_releases ∨
      ∃ a ∈ out.2, a.kind = .Release ∧ a.lease = lease) := by
  -- A mark is added together with the action that backs it.
  cases h with
  | nothing marks =>
    refine ⟨fun a ha => ha, ?_, ?_⟩
    · intro job hjob
      exact .inl (marks.inflight ▸ hjob)
    · intro lease hlease
      exact .inl (marks.queued ▸ hlease)
  | retired _ marks _ _ =>
    refine ⟨fun a ha => List.mem_append_left _ ha, ?_, ?_⟩
    · intro job hjob
      exact .inl (marks.inflight ▸ hjob)
    · intro lease hlease
      exact .inl (marks.queued ▸ hlease)
  | @requested c' j _ _ _ _ _ inflight queued =>
    refine ⟨fun a ha => List.mem_append_left _ ha, ?_, ?_⟩
    · intro job hjob
      simp only [inflight, List.mem_append, List.mem_singleton] at hjob
      refine hjob.imp_right ?_
      intro hself
      exact ⟨Drive.demand c.policy j, by simp, hself.symm⟩
    · intro lease hlease
      exact .inl (queued ▸ hlease)
  | @recalled c' j _ _ _ inflight queued =>
    refine ⟨fun a ha => List.mem_append_left _ ha, ?_, ?_⟩
    · intro job hjob
      exact .inl (inflight ▸ hjob)
    · intro lease hlease
      simp only [queued, List.mem_append, List.mem_singleton] at hlease
      refine hlease.imp_right ?_
      intro hself
      exact ⟨Drive.recall_action j, by simp, rfl, hself.symm⟩

theorem sweep_marks (c : Controller) (actions : List DrainAction) :
    (∀ a ∈ actions, a ∈ (c.sweep_orphans actions).2) ∧
    (∀ lease ∈ (c.sweep_orphans actions).1.queued_releases, lease ∈ c.queued_releases ∨
      ∃ a ∈ (c.sweep_orphans actions).2, a.kind = .Release ∧ a.lease = lease) := by
  unfold sweep_orphans
  simp only [List.mem_append, List.mem_map]
  refine ⟨fun a ha => .inl ha, ?_⟩
  intro lease hlease
  refine hlease.imp_right ?_
  rintro ⟨orphan, horphan, rfl⟩
  exact ⟨_, .inr ⟨orphan, horphan, rfl⟩, rfl, rfl⟩

/-- A call that queues releases leaves them for the next pass. -/
theorem Leaves.marks {c c' : Controller} {new : List DrainAction} (h : Leaves c c' new)
    (hnew : ∀ a ∈ new, a.kind = .Release) :
    ∀ lease ∈ c'.queued_releases, lease ∈ c.queued_releases ∨
      ∃ a ∈ c'.deferred_releases, a.kind = .Release ∧ a.lease = lease := by
  intro lease hlease
  rw [h.queued, mem_push_all_unique, List.mem_map] at hlease
  refine hlease.imp_right ?_
  rintro ⟨a, ha, hof⟩
  refine ⟨a, ?_, hnew a ha, hof⟩
  rw [h.deferred]
  exact List.mem_append_right _ ha

/-- The outcome of an action takes the marks of the action with it; the only new one belongs to a
    lease that was granted to nobody, whose release is then deferred. -/
theorem outcome_marks (c : Controller) (action : DrainAction) (response : DrainResponse)
    (now : Nanos) {c' : Controller} (hc' : c' = c.apply_outcome action response now) :
    (∀ a ∈ c.deferred_releases, a ∈ c'.deferred_releases) ∧
    (∀ job ∈ c'.drain_inflight, job ∈ c.drain_inflight ∧ job ≠ action.job) ∧
    (∀ lease ∈ c'.queued_releases,
      lease ∈ c.queued_releases ∧ (action.kind = .Release → lease ≠ action.lease) ∨
      ∃ a ∈ c'.deferred_releases, a.kind = .Release ∧ a.lease = lease) := by
  obtain ⟨hanswered, hinflight⟩ := c.answered_apply_outcome action response now
  obtain ⟨hrelease, hrequest⟩ := c.queued_apply_outcome action response now
  rw [← hc'] at hanswered hinflight hrelease hrequest
  refine ⟨?_, ?_, ?_⟩
  · intro a ha
    have hsame : (c.unmark action).deferred_releases = c.deferred_releases := rfl
    -- No outcome takes a deferred release away.
    cases hanswered with
    | kept _ _ _ deferred => rwa [deferred]
    | gone _ _ _ deferred => rwa [deferred]
    | stale _ _ _ deferred => exact deferred ▸ List.mem_append_left _ ha
    | failed _ _ _ _ deferred => rwa [deferred]
    | granted _ _ _ _ _ deferred => rwa [deferred]
  · intro job hjob
    rw [hinflight] at hjob
    simpa [unmark] using hjob
  · intro lease hlease
    cases hkind : action.kind with
    | Release =>
      rw [hrelease hkind] at hlease
      exact .inl (by simpa using hlease)
    | Request =>
      rw [hrequest hkind] at hlease
      by_cases hgranted : ((c.unmark action).drain_stale action && (Status.isOk response.status &&
          (granted_lease action response).valid)) = true
      · rw [if_pos hgranted, mem_push_unique] at hlease
        rcases hlease with hold | rfl
        · exact .inl ⟨hold, fun h => by cases h⟩
        · -- The answer came too late: what it granted is to be given back.
          rw [Bool.and_eq_true] at hgranted
          refine .inr ⟨refusal (granted_lease action response), ?_, rfl, rfl⟩
          cases hanswered with
          | stale _ _ _ deferred => simp [deferred, hgranted.2]
          | kept kind _ _ _ => rw [hkind] at kind; cases kind
          | gone kind _ _ _ => rw [hkind] at kind; cases kind
          | failed _ current _ _ _ => rw [current] at hgranted; cases hgranted.1
          | granted _ current _ _ _ _ => rw [current] at hgranted; cases hgranted.1
      · rw [if_neg hgranted] at hlease
        exact .inl ⟨hlease, fun h => by cases h⟩

/-! ## Restart -/

/-- Every mark belongs to a release that has been collected. -/
def Reconciling.Accounted (r : Reconciling) : Prop :=
  ∀ lease ∈ r.ctl.queued_releases, ∃ a ∈ r.releases, a.kind = .Release ∧ a.lease = lease

theorem accounted_step {r : Reconciling} (h : r.Accounted) (job : MaintenanceJob) (now : Nanos) :
    (reconcile_job r job now).Accounted := by
  rw [reconcile_job_eq]
  by_cases hneeds : r.ctl.needs_reconciling job = true
  · rw [if_pos hneeds]
    have hcopied : Reconciling.Accounted
        { r with ctl := (r.copied job now).2.1, releases := (r.copied job now).2.2 } := by
      unfold Reconciling.copied
      split
      · simp only [reissue]
        split <;> exact h
      · unfold abandon_lease
        simp only
        split
        · intro lease hlease
          simp only [mem_push_unique] at hlease
          rcases hlease with hold | rfl
          · obtain ⟨a, ha, hof⟩ := h lease hold
            exact ⟨a, List.mem_append_left _ ha, hof⟩
          · exact ⟨_, List.mem_append_right _ (List.mem_singleton.mpr rfl), rfl, rfl⟩
        · exact h
    intro lease hlease
    simp only [Reconciling.blocked, queued_reblocked] at hlease
    exact hcopied lease hlease
  · rw [if_neg hneeds]
    exact h

/-- A restart that brings a process up hands every release it has queued to the first pass. -/
theorem restart_marks (store : Store) (options : ControllerOptions) (clock : Nanos) (steady : Nat)
    (ok : Status.isOk (Controller.open store options clock steady).1 = true) :
    ∀ lease ∈ (Controller.open store options clock steady).2.queued_releases,
      ∃ a ∈ (Controller.open store options clock steady).2.deferred_releases,
        a.kind = .Release ∧ a.lease = lease := by
  unfold Controller.open at ok ⊢
  simp only at ok ⊢
  split
  · intro lease hlease
    cases hlease
  · next incarnation s heq =>
    rw [heq] at ok
    simp only at ok
    generalize hc : ({ store := s, incarnation, policy := s.state.policy
                       topology := s.state.topology } : Controller) = c at ok ⊢
    have hnone : c.queued_releases = [] := by rw [← hc]
    obtain ⟨r, hloop⟩ : ∃ r, (c.store.fence_authority c.incarnation).state.jobs.jobs.rows.foldl
        (fun r job => reconcile_job r job clock)
        { ctl := { c with store := c.store.fence_authority c.incarnation } } = r := ⟨_, rfl⟩
    have hr : r.Accounted := by
      rw [← hloop]
      refine List.foldlRecOn _ _ ?_ (fun r hr job _ => accounted_step hr job clock)
      intro lease hlease
      simp only [hnone] at hlease
      cases hlease
    have hdeferred : ∀ lease ∈ r.ctl.queued_releases,
        ∃ a ∈ r.ctl.deferred_releases ++ r.releases, a.kind = .Release ∧ a.lease = lease := by
      intro lease hlease
      obtain ⟨a, ha, hof⟩ := hr lease hlease
      exact ⟨a, List.mem_append_right _ ha, hof⟩
    rw [reconcile_locked_of_loop hloop] at ok ⊢
    by_cases hempty : (r.updates.map (r.ctl.stamped clock)).isEmpty = true
    · rw [if_pos hempty]
      exact hdeferred
    · rw [if_neg hempty] at ok ⊢
      split
      · next hcommit =>
        -- A refused commit fails the restart as a whole.
        rw [hcommit] at ok
        cases ok
      · exact hdeferred

end Controller

namespace System

/-! ## Steps -/

/-- The actions with a pass or a tick. -/
def busy (s : System) : List DrainAction := s.passing ++ s.performing

/-- A running process has work behind every mark. -/
def MarksBacked (s : System) : Prop :=
  s.up = true →
    Backs s.ctl.drain_inflight s.ctl.queued_releases s.ctl.deferred_releases s.busy

theorem performing_iff {threads : Table Thread.id} {thread : Nat} {t u : Thread}
    (found : threads.find thread = some t) (hid : u.id = t.id) {a : DrainAction} :
    (a ∈ threads.rows.flatMap Thread.actions ↔
      a ∈ t.actions ∨ a ∈ (threads.erase thread).rows.flatMap Thread.actions) ∧
    (a ∈ (threads.put u).rows.flatMap Thread.actions ↔
      a ∈ u.actions ∨ a ∈ (threads.erase thread).rows.flatMap Thread.actions) := by
  have hthread : u.id = thread := hid.trans (Table.key_of_find found)
  refine ⟨?_, ?_⟩
  · rw [(performing_found found).mem_iff, List.mem_append]
  · rw [(performing_put threads u).mem_iff, List.mem_append, hthread]

/-- What backs the marks of a running process. -/
def Behind (s : System) (c : Controller) : Prop :=
  Backs c.drain_inflight c.queued_releases c.deferred_releases s.busy

theorem behind_drove {s : System} {c : Controller} {p : Pass} {id : JobId} {rest : List JobId}
    (h : s.Behind c) (pass : s.pass = some p) :
    ({ s with
      ctl := (c.drive_locked id (p.context c) p.actions).1
      pass := some { p with
        remaining := rest, actions := (c.drive_locked id (p.context c) p.actions).2 } } :
      System).Behind (c.drive_locked id (p.context c) p.actions).1 := by
  have hframe := (c.keeps_drive_locked id (p.context c) p.actions).1
  obtain ⟨hkept, hjobs, hleases⟩ := (c.asks_drive_locked id (p.context c) p.actions).marks
  unfold Behind busy passing performing at h ⊢
  rw [pass] at h
  simp only [Option.map_some, Option.getD_some] at h ⊢
  refine h.grow ?_ ?_ ?_ ?_
  · intro a ha
    exact List.mem_append.mpr ((List.mem_append.mp ha).imp_left (hkept a))
  · intro a ha
    exact List.mem_append_left _ (hframe.deferred ▸ ha)
  · intro job hjob
    refine (hjobs job hjob).imp_right ?_
    rintro ⟨a, ha, hof⟩
    exact ⟨a, List.mem_append_left _ ha, hof⟩
  · intro lease hlease
    refine (hleases lease hlease).imp_right ?_
    rintro ⟨a, ha, hof⟩
    exact ⟨a, List.mem_append_right _ (List.mem_append_left _ ha), hof⟩

/-- The actions of a pass that ends go to its tick, which had none. -/
theorem behind_closed {s : System} {c : Controller} {p : Pass} {t : Thread} (h : s.Behind c)
    (pass : s.pass = some p) (found : s.threads.find p.thread = some t) (idle : t.actions = []) :
    ({ s with
      ctl := ((c.arbitrate_locked (p.context c)).sweep_orphans p.actions).1
      pass := none
      threads := s.threads.put
        (end_pass t ((c.arbitrate_locked (p.context c)).sweep_orphans p.actions).2) } :
      System).Behind ((c.arbitrate_locked (p.context c)).sweep_orphans p.actions).1 := by
  have hframe := c.frame_arbitrate_locked (p.context c)
  have hmarks := c.unmarked_arbitrate_locked (p.context c)
  obtain ⟨hkept, hleases⟩ := (c.arbitrate_locked (p.context c)).sweep_marks p.actions
  have hiff := fun a => performing_iff (a := a)
    (u := end_pass t ((c.arbitrate_locked (p.context c)).sweep_orphans p.actions).2) found rfl
  unfold Behind busy passing performing at h ⊢
  rw [pass] at h
  simp only [Option.map_some, Option.getD_some, Option.map_none, Option.getD_none,
    List.nil_append] at h ⊢
  refine h.grow ?_ ?_ ?_ ?_
  · intro a ha
    rw [(hiff a).2]
    rcases List.mem_append.mp ha with ha | ha
    · exact .inl (hkept a ha)
    · rw [(hiff a).1, idle] at ha
      exact .inr (ha.resolve_left List.not_mem_nil)
  · intro a ha
    exact List.mem_append_left _ (hframe.deferred ▸ ha)
  · intro job hjob
    exact .inl (hmarks.inflight ▸ hjob)
  · intro lease hlease
    rcases hleases lease hlease with hold | ⟨a, ha, hof⟩
    · exact .inl (hmarks.queued ▸ hold)
    · exact .inr ⟨a, List.mem_append_right _ ((hiff a).2.mpr (.inl ha)), hof⟩

/-- A pass begins with the releases that waited for it. -/
theorem behind_began {s : System} {c : Controller} {thread : Nat} {t : Thread} (h : s.Behind c)
    (pass : s.pass = none) (found : s.threads.find thread = some t) (p : Pass)
    (hactions : p.actions = c.deferred_releases) :
    ({ s with
      ctl := { c with store := c.store.expire_authority t.now, deferred_releases := [] }
      threads := s.threads.put { t with passes := t.passes - 1 }
      pass := some p } : System).Behind
      { c with store := c.store.expire_authority t.now, deferred_releases := [] } := by
  have hiff := fun a => performing_iff (a := a) (u := { t with passes := t.passes - 1 }) found rfl
  unfold Behind busy passing performing at h ⊢
  rw [pass] at h
  simp only [Option.map_some, Option.getD_some, Option.map_none, Option.getD_none,
    List.nil_append, hactions] at h ⊢
  refine h.grow ?_ ?_ (fun _ hjob => .inl hjob) (fun _ hlease => .inl hlease)
  · intro a ha
    exact List.mem_append_right _ ((hiff a).2.mpr ((hiff a).1.mp ha))
  · intro a ha
    exact List.mem_append_right _ (List.mem_append_left _ ha)

theorem behind_marked {s : System} {c : Controller} {thread : Nat} {t : Thread}
    {action : DrainAction} {rest : List DrainAction} (h : s.Behind c)
    (found : s.threads.find thread = some t) (actions : t.actions = action :: rest)
    {c' : Controller} (hc' : c' = if action.job.valid then
      { c with drain_inflight := push_unique c.drain_inflight action.job } else c) :
    ({ s with threads := s.threads.put { t with marked := true }, ctl := c' } : System).Behind
      c' := by
  have hiff := fun a => performing_iff (a := a) (u := { t with marked := true }) found rfl
  have hsame : c'.queued_releases = c.queued_releases ∧
      c'.deferred_releases = c.deferred_releases := by
    rw [hc']
    split <;> exact ⟨rfl, rfl⟩
  have hfirst : action ∈ (s.threads.put { t with marked := true }).rows.flatMap Thread.actions := by
    rw [(hiff action).2, actions]
    exact .inl List.mem_cons_self
  unfold Behind busy passing performing at h ⊢
  rw [hsame.1, hsame.2]
  refine h.grow ?_ (fun _ ha => List.mem_append_left _ ha) ?_ (fun _ hlease => .inl hlease)
  · intro a ha
    refine List.mem_append.mpr ((List.mem_append.mp ha).imp_right ?_)
    intro ha
    exact (hiff a).2.mpr ((hiff a).1.mp ha)
  · intro job hjob
    rw [hc'] at hjob
    split at hjob
    · rw [mem_push_unique] at hjob
      refine hjob.imp_right ?_
      rintro rfl
      exact ⟨action, List.mem_append_right _ hfirst, rfl⟩
    · exact .inl hjob

/-- An action leaves with the marks it stood for. -/
theorem behind_answered {s : System} {c : Controller} {thread : Nat} {t : Thread}
    {action : DrainAction} {rest : List DrainAction} (response : DrainResponse) (h : s.Behind c)
    (pass : s.pass = none) (found : s.threads.find thread = some t)
    (actions : t.actions = action :: rest) :
    ({ s with
      ctl := c.apply_outcome action response t.now
      threads := s.threads.put { t with actions := rest, marked := false } } : System).Behind
      (c.apply_outcome action response t.now) := by
  obtain ⟨hkept, hjobs, hleases⟩ := c.outcome_marks action response t.now rfl
  have hiff := fun a =>
    performing_iff (a := a) (u := { t with actions := rest, marked := false }) found rfl
  -- The answered action is gone from its thread, and it alone.
  have hother : ∀ a ∈ s.threads.rows.flatMap Thread.actions, a ≠ action →
      a ∈ (s.threads.put { t with actions := rest, marked := false }).rows.flatMap
        Thread.actions := by
    intro a ha hne
    rw [(hiff a).1, actions, List.mem_cons] at ha
    rw [(hiff a).2]
    exact ha.imp_left (fun ha => ha.resolve_left hne)
  unfold Behind busy passing performing at h ⊢
  simp only [pass, Option.map_none, Option.getD_none, List.nil_append] at h ⊢
  constructor
  · intro job hjob
    obtain ⟨hold, hne⟩ := hjobs job hjob
    obtain ⟨a, ha, rfl⟩ := h.inflight job hold
    exact ⟨a, hother a ha (fun heq => hne (heq ▸ rfl)), rfl⟩
  · intro lease hlease
    rcases hleases lease hlease with ⟨hold, hne⟩ | ⟨a, ha, hof⟩
    · obtain ⟨a, ha, hkind, rfl⟩ := h.queued lease hold
      rcases List.mem_append.mp ha with ha | ha
      · exact ⟨a, List.mem_append_left _ (hkept a ha), hkind, rfl⟩
      · have hdistinct : a ≠ action := fun heq => hne (heq ▸ hkind) (heq ▸ rfl)
        exact ⟨a, List.mem_append_right _ (hother a ha hdistinct), hkind, rfl⟩
    · exact ⟨a, List.mem_append_left _ ha, hof⟩

/-- Every step keeps the marks backed. -/
theorem MarksBacked.step {s : System} (h : s.MarksBacked) (hattended : s.Attended) (e : Event) :
    (s.step e).MarksBacked := by
  have hdid := s.step_did e
  have hbehind : s.up = true → s.Behind (under s.ctl e.verdicts) := h
  generalize s.step e = s' at hdid
  generalize under s.ctl e.verdicts = c at hdid hbehind
  intro up'
  cases hdid with
  | nothing => exact hbehind up'
  -- A restart forgets the requests, and defers a release for each lease it marks.
  | @restarted options clock steady _ =>
    have hrestarts := Controller.restarts_open c.store options clock steady
    refine ⟨?_, ?_⟩
    · intro job hjob
      have hnone : job ∈ (Controller.open c.store options clock steady).2.drain_inflight := hjob
      rw [hrestarts.inflight] at hnone
      cases hnone
    · intro lease hlease
      obtain ⟨a, ha, hof⟩ := Controller.restart_marks c.store options clock steady up' lease hlease
      exact ⟨a, List.mem_append_left _ ha, hof⟩
  | drove _ up pass _ => exact behind_drove (hbehind up) pass
  | @closed p _ up pass _ =>
    obtain ⟨t, found, idle⟩ := hattended p pass
    simp only [found]
    exact behind_closed (hbehind up) pass found idle
  -- A thread that starts or ends has no action: what backs the marks is the same.
  | @ticked thread now _ up pass unused =>
    have hput := performing_put s.threads { id := thread, now }
    rw [show ({ id := thread, now } : Thread).actions = [] from rfl, List.nil_append,
      Table.erase_of_find_none unused] at hput
    refine (hbehind up).grow ?_ (fun _ ha => List.mem_append_left _ ha) (fun _ hjob => .inl hjob)
      (fun _ hlease => .inl hlease)
    intro a ha
    exact List.mem_append.mpr ((List.mem_append.mp ha).imp_right hput.mem_iff.mpr)
  | began _ up pass found _ => exact behind_began (hbehind up) pass found _ rfl
  | marked _ up _ found actions => exact behind_marked (hbehind up) found actions rfl
  | answered _ up pass found actions _ => exact behind_answered _ (hbehind up) pass found actions
  | @finished thread t _ up pass found done =>
    have hfound := performing_found found
    rw [done.2, List.nil_append] at hfound
    refine (hbehind up).grow ?_ (fun _ ha => List.mem_append_left _ ha) (fun _ hjob => .inl hjob)
      (fun _ hlease => .inl hlease)
    intro a ha
    exact List.mem_append.mpr ((List.mem_append.mp ha).imp_right hfound.mem_iff.mp)
  -- A call marks a lease only with the release it defers.
  | @called ctl up pass call =>
    have hleaves : ∃ new, Controller.Leaves c ctl new ∧ ∀ a ∈ new, a.kind = .Release := by
      rcases Controller.call_asks call with hnothing | ⟨j, _, _, _, hasks⟩
      · exact ⟨[], hnothing, fun _ ha => by cases ha⟩
      · refine ⟨_, hasks, ?_⟩
        intro a ha
        rw [List.mem_singleton.mp ha]
        rfl
    obtain ⟨new, hleaves, hnew⟩ := hleaves
    refine (hbehind up).grow (fun _ ha => ha) ?_ ?_ ?_
    · intro a ha
      refine List.mem_append_left _ ?_
      show a ∈ ctl.deferred_releases
      rw [hleaves.deferred]
      exact List.mem_append_left _ ha
    · intro job hjob
      exact .inl (hleaves.inflight ▸ hjob)
    · intro lease hlease
      refine (hleaves.marks hnew lease hlease).imp_right ?_
      rintro ⟨a, ha, hof⟩
      exact ⟨a, List.mem_append_left _ ha, hof⟩

theorem marks_backed_run (events : List Event) : (initial.run events).MarksBacked := by
  have hstart : initial.Attended ∧ initial.MarksBacked :=
    ⟨fun _ hp => (by cases hp), fun up => (by cases up)⟩
  exact (run_invariant (I := fun s : System => s.Attended ∧ s.MarksBacked)
    (fun _ e hs => ⟨hs.1.step e, hs.2.step hs.1 e⟩) events hstart).2

/-- In every state of every run in which a process is up: a job marked in flight has an action
    with the pass or with a tick, a queued lease has its release there or among the deferred
    ones; so between ticks no job is marked, and every queued lease waits for the next pass. -/
theorem marks_are_backed (events : List Event) (up : (initial.run events).up = true) :
    (∀ job ∈ (initial.run events).ctl.drain_inflight,
      ∃ a ∈ (initial.run events).busy, a.job = job) ∧
    (∀ lease ∈ (initial.run events).ctl.queued_releases,
      ∃ a ∈ (initial.run events).ctl.deferred_releases ++ (initial.run events).busy,
        a.kind = .Release ∧ a.lease = lease) ∧
    ((initial.run events).busy = [] →
      (initial.run events).ctl.drain_inflight = [] ∧
      ∀ lease ∈ (initial.run events).ctl.queued_releases,
        ∃ a ∈ (initial.run events).ctl.deferred_releases, a.kind = .Release ∧ a.lease = lease) := by
  have hbacks := marks_backed_run events up
  refine ⟨hbacks.inflight, hbacks.queued, ?_⟩
  intro hidle
  rw [hidle] at hbacks
  refine ⟨?_, ?_⟩
  · rw [List.eq_nil_iff_forall_not_mem]
    intro job hjob
    obtain ⟨a, ha, _⟩ := hbacks.inflight job hjob
    cases ha
  · intro lease hlease
    obtain ⟨a, ha, hof⟩ := hbacks.queued lease hlease
    rw [List.append_nil] at ha
    exact ⟨a, ha, hof⟩

/-- A request has been made: its mark is backed by the action of the tick that made it. -/
theorem marks_are_backed_requested :
    (⟨1⟩ : JobId) ∈ (initial.run Drill.requested).ctl.drain_inflight ∧
      ∃ a ∈ (initial.run Drill.requested).busy, a.job = ⟨1⟩ := by
  have hup : (initial.run Drill.requested).up = true := by decide +kernel
  have hmarked : (⟨1⟩ : JobId) ∈ (initial.run Drill.requested).ctl.drain_inflight := by
    decide +kernel
  exact ⟨hmarked, (marks_are_backed Drill.requested hup).1 _ hmarked⟩

end System

end MaintenanceFabric
