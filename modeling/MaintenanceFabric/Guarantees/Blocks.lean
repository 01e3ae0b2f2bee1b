import MaintenanceFabric.Guarantees.Drains
import MaintenanceFabric.Guarantees.Validation

/-! # Blocks

    A pass takes a blocked job on again once a soft block has lasted for
    `kSoftBlockDwellNanos`, and a block of either kind at once when the policy
    or the topology is not the one the job was validated under.  A job bears
    the revisions of its validation, and a block does not refresh them: a job
    that is blocked after they have been replaced is resumed by the next pass
    that drives it, with nothing changed since the block.
-/

namespace MaintenanceFabric

open Lib

/-- The job is blocked for a reason that waiting does not take away. -/
def MaintenanceJob.hard_blocked (j : MaintenanceJob) : Bool :=
  decide (j.state = .Blocked) && is_hard_block j.block

/-- The revisions that a validated job bears are those of the policy and the topology. -/
def Controller.in_force (c : Controller) (j : MaintenanceJob) : Bool :=
  (!j.policy_revision.valid || decide (j.policy_revision = c.policy.revision)) &&
    (!j.topology_revision.valid || decide (j.topology_revision = c.topology.revision))

namespace Controller

variable {c c' c'' : Controller} {id : JobId} {j j' : MaintenanceJob} {now : Nanos}

/-- A hard block holds while its revisions are in force, a soft one also has to be young. -/
theorem holds_blocked_eq (c : Controller) (j : MaintenanceJob) (now : Nanos) :
    c.holds_blocked j now =
      ((is_hard_block j.block || decide (now - j.updated_at < kSoftBlockDwellNanos)) &&
        c.in_force j) := by
  unfold holds_blocked in_force
  simp only [Bool.not_and, decide_not, Bool.not_not, Bool.and_assoc]

/-- Being in force depends on the two revisions of each side. -/
theorem in_force_congr (hpolicy : c'.policy.revision = c.policy.revision)
    (htopology : c'.topology.revision = c.topology.revision)
    (hbinding : j'.policy_revision = j.policy_revision)
    (hbound : j'.topology_revision = j.topology_revision) : c'.in_force j' = c.in_force j := by
  unfold in_force
  rw [hpolicy, htopology, hbinding, hbound]

theorem in_force_carries {current : ControllerIncarnation}
    (h : MaintenanceJob.Carries current j j') : c.in_force j' = c.in_force j :=
  in_force_congr rfl rfl (congrArg Binding.policy_revision h.binding) h.topology.1

/-- A job that is validated bears what is in force. -/
theorem in_force_rebound (h : c.in_force j = true) : c.in_force (c.rebound j) = true := by
  unfold rebound
  split
  · simp [in_force, Drive.expanded]
  · exact h

/-- The drive of a job that is held does nothing. -/
theorem drive_locked_held (hj : c.world.jobs.find id = some j) (hstate : j.state = .Blocked)
    (context : PassContext) (hheld : c.holds_blocked j context.now = true)
    (actions : List DrainAction) : c.drive_locked id context actions = (c, actions) := by
  have hblocked : Drive.drive_state { ctl := c, job := j, actions := some actions } context =
      (false, { ctl := c, job := j, actions := some actions }) := by
    unfold Drive.drive_state
    simp only [hstate]
    exact drive_blocked_held hheld
  have halive : j.is_terminal = false := by
    unfold MaintenanceJob.is_terminal
    rw [hstate]
    rfl
  have hfind : c.store.state.jobs.find id = some j := hj
  unfold drive_locked
  rw [hfind]
  simp only [halive, hblocked]
  rfl

/-! ## What a tick writes -/

/-- The configuration stands, and every job that has been committed bears the time of the tick. -/
structure Stamps (now : Nanos) (c c' : Controller) : Prop where
  policy : c'.policy = c.policy
  topology : c'.topology = c.topology
  jobs : ∀ j ∈ c'.world.jobs.rows, j ∈ c.world.jobs.rows ∨ j.updated_at = now

namespace Stamps

theorem of_frame (h : Frame c c') (hjobs : c'.world.jobs = c.world.jobs) : Stamps now c c' :=
  ⟨h.policy, h.topology, fun _ hj => .inl (hjobs ▸ hj)⟩

theorem refl (c : Controller) : Stamps now c c := of_frame (.refl c) rfl

theorem trans (h : Stamps now c c') (h' : Stamps now c' c'') : Stamps now c c'' := by
  refine ⟨h'.policy.trans h.policy, h'.topology.trans h.topology, ?_⟩
  intro j hj
  rcases h'.jobs j hj with hj | hstamped
  · exact h.jobs j hj
  · exact .inr hstamped

theorem foldl {α : Type} {f : Controller → α → Controller} (h : ∀ c a, Stamps now c (f c a)) :
    ∀ (l : List α) (c : Controller), Stamps now c (l.foldl f c)
  | [], c => refl c
  | a :: l, c => (h c a).trans (foldl h l (f c a))

theorem commit (h : Stamps now c c') (job : MaintenanceJob) :
    Stamps now c (c'.commit_job_locked job now).2 := by
  have hframe := c'.frame_commit job now
  refine h.trans ⟨hframe.policy, hframe.topology, ?_⟩
  intro j hj
  rcases c'.commit_stores job now with hkept | ⟨_, revision, hput⟩
  · exact .inl (hkept ▸ hj)
  · rw [hput] at hj
    rcases Table.mem_put.mp hj with rfl | ⟨hj, _⟩
    · exact .inr rfl
    · exact .inl hj

end Stamps

theorem stamps_drive_locked (c : Controller) (id : JobId) (context : PassContext)
    (actions : List DrainAction) : Stamps context.now c (c.drive_locked id context actions).1 := by
  have hkeeps := (c.keeps_drive_locked id context actions).1
  refine ⟨hkeeps.policy, hkeeps.topology, ?_⟩
  unfold drive_locked
  split
  · exact fun _ hj => .inl hj
  · next j hfind =>
    split
    · exact fun _ hj => .inl hj
    · have hfind : c.world.jobs.find id = some j := hfind
      have hid : j.id = id := Table.key_of_find hfind
      have hjobs := jobs_drive_state (hid ▸ hfind) context actions
      simp only
      generalize Drive.drive_state { ctl := c, job := j, actions := some actions } context = out
        at hjobs
      intro x hx
      split at hx
      · rcases ((Stamps.refl out.2.ctl).commit out.2.job).jobs x hx with hx | hstamped
        · exact .inl (hjobs ▸ hx)
        · exact .inr hstamped
      · exact .inl (hjobs ▸ hx)

theorem stamps_forget_lease (c : Controller) (lease : DrainLeaseId) (now : Nanos) :
    Stamps now c (c.forget_lease lease now) := by
  unfold forget_lease
  split
  · exact .refl c
  · exact (Stamps.refl c).commit _

theorem stamps_apply_failure (c : Controller) (j : MaintenanceJob) (e : Error) (now : Nanos) :
    Stamps now c (c.apply_failure j e now) := by
  unfold apply_failure
  simp only
  generalize hfailed : ({ j with
    drain_failures := j.drain_failures + 1
    last_detail := text "drain request failed: " ++ format_error e } : MaintenanceJob) = failed
  split
  · exact (Stamps.of_frame (Drive.keeps_transition { ctl := c, job := failed } _ _ _ _).frame
      (Drive.jobs_transition _ _ _ _ _)).commit _
  · exact (Stamps.refl c).commit _

theorem stamps_apply_granted (c : Controller) (j : MaintenanceJob) (lease : DrainLease)
    (now : Nanos) : Stamps now c (c.apply_granted j lease now) := by
  have hstored : Stamps now c { c with store := (c.store.commit_lease lease).2 } := by
    refine ⟨rfl, rfl, ?_⟩
    have hjobs : (c.store.commit_lease lease).2.books.jobs = c.world.jobs :=
      congrArg (fun b => b.jobs) (Store.books_commit_lease c.store lease)
    exact fun _ hj => .inl (hjobs ▸ hj)
  unfold apply_granted
  split
  · exact .refl c
  · split
    · next heq =>
      rw [heq] at hstored
      exact hstored
    · next store heq =>
      rw [heq] at hstored
      simp only
      split
      · exact (hstored.trans (.of_frame (frame_record_drain _ _ _ _)
          (aside_record_drain _ _ _ _).jobs)).commit _
      · exact hstored.commit _

theorem stamps_apply_outcome (c : Controller) (action : DrainAction) (response : DrainResponse)
    (now : Nanos) : Stamps now c (c.apply_outcome action response now) := by
  have hunmarked : Stamps now c (c.unmark action) := ⟨rfl, rfl, fun _ hj => .inl hj⟩
  rw [apply_outcome_eq]
  refine hunmarked.trans ?_
  generalize c.unmark action = c₁
  cases action.kind with
  | Release =>
    unfold apply_release
    simp only
    split
    · have herased : Stamps now c₁ { c₁ with
          queued_releases := c₁.queued_releases.filter (· ≠ action.lease)
          store := (c₁.store.commit_lease_erased (granted_lease action response)).2 } := by
        refine ⟨rfl, rfl, ?_⟩
        have hjobs : (c₁.store.commit_lease_erased (granted_lease action response)).2.books.jobs =
            c₁.world.jobs := congrArg (fun b => b.jobs) (Store.books_commit_lease_erased c₁.store _)
        exact fun _ hj => .inl (hjobs ▸ hj)
      exact herased.trans (stamps_forget_lease _ _ now)
    · exact ⟨rfl, rfl, fun _ hj => .inl hj⟩
  | Request =>
    simp only
    split
    · unfold apply_stale
      split
      · exact ⟨rfl, rfl, fun _ hj => .inl hj⟩
      · exact .refl c₁
    · split
      · exact .refl c₁
      · next j _ =>
        split
        · exact c₁.stamps_apply_failure j _ now
        · exact c₁.stamps_apply_granted j _ now

theorem stamps_arbitrate_locked (c : Controller) (context : PassContext) :
    Stamps context.now c (c.arbitrate_locked context) := by
  unfold arbitrate_locked
  refine Stamps.foldl ?_ _ c
  intro c decision
  unfold apply_decision
  split
  -- A denial commits the job at the instant of the pass, and so does a grant.
  · unfold apply_denial
    split
    · exact .refl c
    · next denied _ =>
      split
      · exact .refl c
      · exact (Stamps.of_frame (Drive.keeps_transition
          { ctl := c, job := denied, actions := some [] }
          .Blocked decision.reason decision.detail context.now).frame
          (Drive.jobs_transition _ _ _ _ _)).commit _
  · unfold apply_grant
    split
    · next current granted _ _ =>
      have hstands := Store.stands_insert_authority c.store granted
      have hjobs : (c.store.insert_authority granted).2.books.jobs = c.world.jobs := by
        rcases c.store.insert_authority_cases granted with ⟨_, _, hb⟩ | ⟨_, _, _, hb⟩
        · rw [hb]
          rfl
        · rw [hb]
          rfl
      split
      · next heq =>
        rw [heq] at hstands hjobs
        exact .of_frame ⟨rfl, rfl, rfl, rfl, hstands⟩ hjobs
      · next store heq =>
        rw [heq] at hstands hjobs
        have hinserted : Stamps context.now c { c with store } :=
          .of_frame ⟨rfl, rfl, rfl, rfl, hstands⟩ hjobs
        exact hinserted.commit _
    · exact .refl c
  · exact .refl c

end Controller

namespace System

variable {s : System} {e : Event} {id : JobId} {j j' : MaintenanceJob} {now : Nanos}

/-! ## The steps of a tick -/

/-- The time of the tick that takes the step. -/
def tick_now (s : System) (e : Event) : Option Nanos :=
  match e.label with
  | .tick _ now => some now
  | .begin_pass thread | .mark thread | .outcome thread _ | .finish thread =>
      (s.threads.find thread).map Thread.now
  | .pass_step => s.pass.map Pass.now
  | _ => none

theorem stamps_step (hnow : s.tick_now e = some now) :
    Controller.Stamps now s.ctl (s.step e).ctl := by
  have hunder : Controller.Stamps now s.ctl (under s.ctl e.verdicts) :=
    ⟨rfl, rfl, fun _ hj => .inl hj⟩
  have hdid := s.step_did e
  generalize s.step e = s' at hdid
  generalize under s.ctl e.verdicts = c at hdid hunder
  unfold tick_now at hnow
  -- The instant of the tick is that of the pass while one is open, else that of its thread.
  cases hdid with
  | nothing => exact hunder
  | restarted label =>
    rw [label] at hnow
    cases hnow
  | @drove p id rest label up pass remaining =>
    rw [label, pass] at hnow
    cases hnow
    exact hunder.trans (c.stamps_drive_locked id (p.context c) p.actions)
  | @closed p label up pass remaining =>
    rw [label, pass] at hnow
    cases hnow
    have hswept : Controller.Stamps p.now (c.arbitrate_locked (p.context c))
        ((c.arbitrate_locked (p.context c)).sweep_orphans p.actions).1 :=
      ⟨rfl, rfl, fun _ hj => .inl hj⟩
    exact (hunder.trans (c.stamps_arbitrate_locked (p.context c))).trans hswept
  | ticked _ _ _ _ => exact hunder
  | @began thread t label up pass found ready =>
    refine hunder.trans ⟨rfl, rfl, ?_⟩
    have hjobs : (c.store.expire_authority t.now).books.jobs = c.world.jobs := by
      rcases c.store.expire_authority_books t.now with hb | hb <;> rw [hb] <;> rfl
    exact fun _ hj => .inl (hjobs ▸ hj)
  | marked _ _ _ _ _ =>
    refine hunder.trans ?_
    simp only
    split
    · exact ⟨rfl, rfl, fun _ hj => .inl hj⟩
    · exact .refl c
  | @answered thread answer t action rest label up pass found actions marked =>
    rw [label] at hnow
    simp only [found, Option.map_some] at hnow
    cases hnow
    exact hunder.trans (c.stamps_apply_outcome action _ t.now)
  | finished _ _ _ _ _ => exact hunder
  | called up pass call =>
    exfalso
    revert hnow call
    cases e.label <;> simp [Controller.call]

/-- A step of a tick leaves a job blocked that is held at its time. -/
theorem Sound.stays_blocked (h : s.Sound) (hnow : s.tick_now e = some now) (hj : s.job id = some j)
    (hstate : j.state = .Blocked) (hheld : s.ctl.holds_blocked j now = true) :
    ∃ j', (s.step e).job id = some j' ∧ j'.state = .Blocked := by
  have hsame : (s.step e).job id = s.job id →
      ∃ j', (s.step e).job id = some j' ∧ j'.state = .Blocked :=
    fun heq => ⟨j, heq.trans hj, hstate⟩
  -- A step that may only touch the job, or block it.
  have haside : (∀ k, (s.license e).edits id k → k = .touched ∨ k = .moved .Blocked) →
      ∃ j', (s.step e).job id = some j' ∧ j'.state = .Blocked := by
    intro hlicensed
    refine (changes_step h e).preserves
      (P := fun w => ∃ x, w.jobs.find id = some x ∧ x.state = .Blocked) ?_ ⟨j, hj, hstate⟩
    rintro a b ⟨x, hx, hblocked⟩ hstep
    rcases hstep.job_cases id with hkept | ⟨m, m', k, hm, hm', edit, licensed⟩ | ⟨hnone, _⟩
    · exact ⟨x, hkept.trans hx, hblocked⟩
    · refine ⟨m', hm', ?_⟩
      cases Option.some.inj (hx.symm.trans hm)
      have hcore : x.core.state = .Blocked := hblocked
      show m'.core.state = .Blocked
      generalize m'.core = core' at edit
      rcases hlicensed k licensed with rfl | rfl
      · cases edit
        exact hcore
      · cases edit
        rfl
    · rw [hx] at hnone
      cases hnone
  have hdid := s.step_did e
  generalize s.step e = s' at hdid hsame haside ⊢
  cases hdid with
  | nothing => exact hsame rfl
  | restarted label =>
    unfold tick_now at hnow
    rw [label] at hnow
    cases hnow
  | @drove p driven rest label up pass remaining =>
    have hp : p.now = now := by
      unfold tick_now at hnow
      rw [label, pass] at hnow
      exact Option.some.inj hnow
    subst hp
    by_cases hdriven : driven = id
    · -- The drive of the job finds it held.
      subst hdriven
      refine hsame ?_
      unfold System.job
      simp only
      rw [Controller.drive_locked_held (c := under s.ctl e.verdicts) hj hstate
        (p.context (under s.ctl e.verdicts)) hheld]
      rfl
    · refine haside ?_
      unfold license
      simp only [label, pass, remaining]
      rintro k ⟨hid, _⟩
      exact absurd hid.symm hdriven
  | closed label up pass remaining =>
    refine haside ?_
    unfold license
    simp only [label, pass, remaining]
    rintro k (hk | ⟨hk, _⟩)
    · exact .inl hk
    · exact .inr hk
  | ticked label up pass unused => exact hsame rfl
  | @began thread t label up pass found ready =>
    refine haside ?_
    unfold license
    simp only [label, found]
    exact fun _ hk => hk.elim
  | marked label up pass found actions =>
    refine hsame ?_
    unfold System.job
    simp only
    split <;> rfl
  | @answered thread answer t action rest label up pass found actions marked =>
    refine haside ?_
    unfold license
    simp only [label, found, actions]
    rintro k (hk | ⟨hk, _⟩)
    · exact .inl hk
    · exact .inr hk
  | finished label up pass found done => exact hsame rfl
  | called up pass call =>
    exfalso
    revert hnow call
    unfold tick_now
    cases e.label <;> simp [Controller.call]

/-! ## Blocks that wait -/

/-- Every job that the step commits as blocked bears the revisions in force.  A restart, which
    makes every block a soft one, may commit the others as well. -/
def InForce (s : System) (e : Event) : Prop :=
  ∀ j' ∈ (s.step e).ctl.world.jobs.rows, ∀ j ∈ s.job j'.id, j'.state = .Blocked → j' ≠ j →
    is_hard_block j'.block = true ∨ e.restarts = false → s.ctl.in_force j = true

instance (s : System) (e : Event) : Decidable (InForce s e) :=
  inferInstanceAs (Decidable (∀ j' ∈ (s.step e).ctl.world.jobs.rows, ∀ j ∈ s.job j'.id, _))

/-- The step belongs to a tick at `now`, or keeps the configuration and does not date the job back
    by the dwell of a soft block. -/
def Beside (now : Nanos) (id : JobId) (s : System) (e : Event) : Prop :=
  s.tick_now e = some now ∨
    e.restarts = false ∧ (s.step e).ctl.policy.revision = s.ctl.policy.revision ∧
      (s.step e).ctl.topology.revision = s.ctl.topology.revision ∧
      ∀ j ∈ (s.step e).job id, s.job id = some j ∨ now - j.updated_at < kSoftBlockDwellNanos

instance (now : Nanos) (id : JobId) (s : System) (e : Event) : Decidable (Beside now id s e) :=
  inferInstanceAs (Decidable (_ ∨ _ ∧ _ ∧ _ ∧ ∀ j ∈ (s.step e).job id, _))

/-- If the job is blocked, a pass at `now` leaves it there. -/
def Waits (now : Nanos) (id : JobId) (s : System) : Prop :=
  ∀ j, s.job id = some j → j.state = .Blocked →
    now - j.updated_at < kSoftBlockDwellNanos ∧ s.ctl.in_force j = true

theorem tick_runs_on (hnow : s.tick_now e = some now) : e.restarts = false := by
  unfold tick_now at hnow
  unfold Event.restarts
  split
  · next label =>
    rw [label] at hnow
    cases hnow
  · rfl

/-- The next version of a job bears what is in force if the last one does. -/
theorem Configured.in_force (h : s.Configured) (hj : s.job id = some j)
    (hj' : (s.step e).job id = some j') (hforce : s.ctl.in_force j = true) :
    s.ctl.in_force j' = true := by
  rcases (h.step e).version hj hj' with hcarries | ⟨_, _, _, hcarries⟩
  · rw [Controller.in_force_carries hcarries]
    exact hforce
  · rw [Controller.in_force_carries hcarries]
    exact Controller.in_force_rebound hforce

/-- A job that a step of a tick has committed bears the time of the tick. -/
theorem updated_by_tick (hnow : s.tick_now e = some now) (hj' : (s.step e).job id = some j')
    (hnew : s.job id ≠ some j') : j'.updated_at = now := by
  have hid : j'.id = id := Table.key_of_find hj'
  refine ((stamps_step hnow).jobs j' (Table.mem_of_find hj')).resolve_left ?_
  intro hrow
  exact hnew (hid ▸ Table.find_iff_mem.mpr hrow)

/-- A job that the step commits as blocked bears what is in force, before and after. -/
theorem Configured.blocked_in_force (h : s.Configured) (hforce : InForce s e)
    (hsoft : is_hard_block j'.block = true ∨ e.restarts = false)
    (hj' : (s.step e).job id = some j') (hnew : s.job id ≠ some j') (hstate : j'.state = .Blocked) :
    s.ctl.in_force j' = true := by
  have hid : j'.id = id := Table.key_of_find hj'
  cases hj : s.job id with
  | none =>
    have hproposed := ((h.step e).newcomer hj hj').2
    rw [hstate] at hproposed
    cases hproposed
  | some j =>
    refine h.in_force hj hj' (hforce j' (Table.mem_of_find hj') j (hid ▸ hj) hstate ?_ hsoft)
    rintro rfl
    exact hnew hj

/-- The step that blocks the job in a tick at `now` leaves it waiting. -/
theorem Configured.waits (h : s.Configured) (hforce : InForce s e) (hnow : s.tick_now e = some now)
    (hj' : (s.step e).job id = some j') (hnew : s.job id ≠ some j') : Waits now id (s.step e) := by
  intro x hx hstate
  cases Option.some.inj (hj'.symm.trans hx)
  have hstamps := stamps_step hnow
  refine ⟨?_, ?_⟩
  · rw [updated_by_tick hnow hj' hnew, Int.sub_self]
    decide
  · rw [Controller.in_force_congr (congrArg Policy.revision hstamps.policy)
      (congrArg Topology.revision hstamps.topology) rfl rfl]
    exact h.blocked_in_force hforce (.inr (tick_runs_on hnow)) hj' hnew hstate

/-- It waits through the steps of its tick, and through what goes on beside. -/
theorem Configured.waits_step (h : s.Configured) (hforce : InForce s e)
    (hbeside : Beside now id s e)
    (hwaits : Waits now id s) : Waits now id (s.step e) := by
  intro j' hj' hstate
  have hkept : (s.step e).ctl.policy.revision = s.ctl.policy.revision ∧
      (s.step e).ctl.topology.revision = s.ctl.topology.revision := by
    rcases hbeside with hnow | ⟨_, hpolicy, htopology, _⟩
    · have hstamps := stamps_step hnow
      exact ⟨congrArg Policy.revision hstamps.policy, congrArg Topology.revision hstamps.topology⟩
    · exact ⟨hpolicy, htopology⟩
  rw [Controller.in_force_congr hkept.1 hkept.2 rfl rfl]
  by_cases hsame : s.job id = some j'
  · exact hwaits j' hsame hstate
  · have hrunning : e.restarts = false := by
      rcases hbeside with hnow | ⟨hrunning, _⟩
      · exact tick_runs_on hnow
      · exact hrunning
    refine ⟨?_, h.blocked_in_force hforce (.inr hrunning) hj' hsame hstate⟩
    rcases hbeside with hnow | ⟨_, _, _, hyoung⟩
    · rw [updated_by_tick hnow hj' hsame, Int.sub_self]
      decide
    · exact (hyoung j' hj').resolve_left hsame

theorem waits_run (mid : List Event) (h : s.Configured) (hforce : Along step InForce s mid)
    (hbeside : Along step (Beside now id) s mid) (hwaits : Waits now id s) :
    Waits now id (s.run mid) := by
  induction mid generalizing s with
  | nil => exact hwaits
  | cons e mid ih =>
    exact ih (h.step e).configured hforce.2 hbeside.2 (h.waits_step hforce.1 hbeside.1 hwaits)

/-! ## Runs -/

/-- The step commits the job, and as blocked. -/
def BlocksAs (s : System) (e : Event) (id : JobId) (j : MaintenanceJob) : Prop :=
  s.job id ≠ some j ∧ (s.step e).job id = some j ∧ j.state = .Blocked

/-- The job got its hard block in the step after `first`, and has had one ever since. -/
structure HardSince (id : JobId) (first : List Event) (e : Event) (mid : List Event) : Prop where
  before : ∀ j, (initial.run first).job id = some j → j.hard_blocked = false
  since : ∀ m₁ m₂, mid = m₁ ++ m₂ →
    ∃ j, (initial.run (first ++ e :: m₁)).job id = some j ∧ j.hard_blocked = true

theorem HardSince.snoc {first mid : List Event} {x : Event} (h : HardSince id first x mid)
    (hj : (initial.run (first ++ x :: (mid ++ [e]))).job id = some j)
    (hhard : j.hard_blocked = true) :
    HardSince id first x (mid ++ [e]) := by
  refine ⟨h.before, ?_⟩
  intro m₁ m₂ hsplit
  rcases List.eq_nil_or_concat m₂ with rfl | ⟨m, y, rfl⟩
  · rw [List.append_nil] at hsplit
    rw [← hsplit]
    exact ⟨j, hj, hhard⟩
  · rw [List.concat_eq_append, ← List.append_assoc] at hsplit
    exact h.since m₁ m (List.append_inj' hsplit rfl).1

/-- A hard block has a beginning, and the revisions the job bears were in force then. -/
theorem hard_since (events : List Event) (hrun : Along step InForce initial events)
    (hj : (initial.run events).job id = some j) (hhard : j.hard_blocked = true) :
    ∃ first e mid, events = first ++ e :: mid ∧ HardSince id first e mid ∧
      (initial.run first).ctl.in_force j = true := by
  have hconf : ∀ events, (initial.run events).Configured := fun events =>
    run_invariant (fun s e (hs : s.Configured) => (hs.step e).configured) events configured_initial
  have hblocked : j.state = .Blocked ∧ is_hard_block j.block = true := by
    unfold MaintenanceJob.hard_blocked at hhard
    simpa using hhard
  induction events using List.reverseRecOn generalizing j with
  | nil => cases hj
  | append_singleton events e ih =>
    obtain ⟨hbefore, hforce, _⟩ := Along.append.mp hrun
    rw [run_snoc] at hj
    -- Either the block goes on, or it begins with the last step.
    by_cases hlast : ∃ x, (initial.run events).job id = some x ∧ x.hard_blocked = true
    · obtain ⟨x, hx, hxhard⟩ := hlast
      have hxblocked : x.state = .Blocked ∧ is_hard_block x.block = true := by
        unfold MaintenanceJob.hard_blocked at hxhard
        simpa using hxhard
      obtain ⟨first, y, mid, rfl, hsince, hbears⟩ := ih hbefore hx hxhard hxblocked
      have hcarries : (initial.run first).ctl.in_force j = (initial.run first).ctl.in_force x := by
        rcases ((hconf _).step e).version hx hj with hcarries | ⟨_, _, _, hcarries⟩
        · exact Controller.in_force_carries hcarries
        · rw [Controller.rebound, if_neg (by simp [hxblocked.1])] at hcarries
          exact Controller.in_force_carries hcarries
      refine ⟨first, y, mid ++ [e], by simp, hsince.snoc ?_ hhard, hcarries.trans hbears⟩
      rw [← List.cons_append, ← List.append_assoc, run_snoc]
      exact hj
    · refine ⟨events, e, [], rfl, ⟨?_, ?_⟩, ?_⟩
      · intro x hx
        exact Bool.eq_false_iff.mpr (fun hxhard => hlast ⟨x, hx, hxhard⟩)
      · intro m₁ m₂ hsplit
        obtain ⟨rfl, rfl⟩ := List.append_eq_nil_iff.mp hsplit.symm
        exact ⟨j, by rw [run_snoc]; exact hj, hhard⟩
      · exact (hconf events).blocked_in_force hforce (.inl hblocked.2) hj
          (fun hsame => hlast ⟨j, hsame, hhard⟩) hblocked.1

/-- Along a run in which every job that is committed as blocked bears the revisions in force: a job
    that a tick at `now` commits as blocked is left blocked by every later step of a tick at `now`,
    and a hard block is lifted by a tick only if the policy or the topology is not the one of when
    it began. -/
theorem blocks_are_stable (events : List Event) (hrun : Along step InForce initial events) :
    (∀ first e mid e' rest now id j, events = first ++ e :: (mid ++ e' :: rest) →
      (initial.run first).tick_now e = some now → (initial.run first).BlocksAs e id j →
      Along step (Beside now id) (initial.run (first ++ [e])) mid →
      (initial.run (first ++ e :: mid)).tick_now e' = some now →
      ∀ x, (initial.run (first ++ e :: mid)).job id = some x → x.state = .Blocked →
        ∃ y, (initial.run (first ++ e :: (mid ++ [e']))).job id = some y ∧ y.state = .Blocked) ∧
    ∀ before e' rest id j, events = before ++ e' :: rest →
      ((initial.run before).tick_now e').isSome = true → (initial.run before).job id = some j →
      j.hard_blocked = true →
      (∀ y, (initial.run (before ++ [e'])).job id = some y → y.state ≠ .Blocked) →
      ∃ first e mid, before = first ++ e :: mid ∧ HardSince id first e mid ∧
        ((initial.run before).ctl.policy ≠ (initial.run first).ctl.policy ∨
          (initial.run before).ctl.topology ≠ (initial.run first).ctl.topology) := by
  have hinv : ∀ events, (initial.run events).Sound ∧ (initial.run events).Configured := by
    intro events
    refine run_invariant (I := fun s : System => s.Sound ∧ s.Configured) ?_ events
      ⟨sound_initial, configured_initial⟩
    intro s e ⟨hs, hconfigured⟩
    exact ⟨hs.step e, (hconfigured.step e).configured⟩
  refine ⟨?_, ?_⟩
  -- The first half: from the commit on, no tick at the same instant sees the block aged.
  · intro first e mid e' rest now id j hsplit hnow ⟨hnew, hj, _⟩ hbeside hlater x hx hstate
    subst hsplit
    obtain ⟨_, hforce, hrest⟩ := Along.append.mp hrun
    have hmid := (Along.append.mp hrest).1
    rw [run_snoc] at hbeside
    have hwaits : Waits now id (((initial.run first).step e).run mid) :=
      waits_run mid ((hinv first).2.step e).configured hmid hbeside
        ((hinv first).2.waits hforce hnow hj hnew)
    rw [show ((initial.run first).step e).run mid = initial.run (first ++ e :: mid) from
      (run_append initial first (e :: mid)).symm] at hwaits
    obtain ⟨hyoung, hbears⟩ := hwaits x hx hstate
    rw [← List.cons_append, ← List.append_assoc, run_snoc]
    refine (hinv _).1.stays_blocked hlater hx hstate ?_
    rw [Controller.holds_blocked_eq, hbears]
    simp [hyoung]
  -- The second half: with both revisions as they were, the drive holds the block.
  · intro before e' rest id j hsplit htick hj hhard hleft
    subst hsplit
    obtain ⟨now, hnow⟩ := Option.isSome_iff_exists.mp htick
    obtain ⟨first, e, mid, hbegan, hsince, hbears⟩ :=
      hard_since before (Along.append.mp hrun).1 hj hhard
    refine ⟨first, e, mid, hbegan, hsince, ?_⟩
    by_contra hsame
    obtain ⟨hpolicy, htopology⟩ := not_or.mp hsame
    have hblocked : j.state = .Blocked ∧ is_hard_block j.block = true := by
      unfold MaintenanceJob.hard_blocked at hhard
      simpa using hhard
    have hheld : (initial.run before).ctl.holds_blocked j now = true := by
      rw [Controller.holds_blocked_eq, hblocked.2, Controller.in_force_congr
        (congrArg Policy.revision (not_not.mp hpolicy))
        (congrArg Topology.revision (not_not.mp htopology)) rfl rfl, hbears]
      rfl
    obtain ⟨y, hy, hstays⟩ := (hinv before).1.stays_blocked hnow hj hblocked.1 hheld
    rw [← run_snoc] at hy
    exact hleft y hy hstays

/-- Between two steps of one tick, without anything beside it, the configuration stands. -/
theorem stamps_run (mid : List Event) (h : Along step (fun s e => s.tick_now e = some now) s mid) :
    Controller.Stamps now s.ctl (s.run mid).ctl := by
  induction mid generalizing s with
  | nil => exact .refl _
  | cons e mid ih => exact (stamps_step h.1).trans (ih h.2)

end System

namespace Drill

/-- The drain port refuses. -/
def refusal (thread : Nat) : Event :=
  call (.outcome thread { status := .error (make_error .Timeout (text "drain fabric")) })

/-- The drain of job 1 has been refused twice, and is about to be refused for the last time. -/
def refused : List Event :=
  requested ++ [call (.mark 0), refusal 0] ++ pass 0 ++ [call (.mark 0), refusal 0] ++ pass 0 ++
    [call (.mark 0)]

/-- The switch is not to be maintained. -/
def frozen : Topology :=
  match (do
    let t ← topology.add_target { id := { kind := .Switch, index := 2 } }
    t.add_target { id := switch, maintainable := false }) with
  | .ok t => t
  | .error _ => {}

/-- Job 1 is ready when its switch is frozen, and a tick is about to drive it. -/
def frozen_out : List Event :=
  drained ++ [call (.set_topology frozen), call (.tick 0 (ms 200)), call (.begin_pass 0)]

/-- The rest of a pass, the answers to its two releases, and the beginning of the next pass. -/
def second_pass : List Event :=
  [call .pass_step] ++ answer 0 { status := ok_status } ++ answer 0 { status := ok_status } ++
    [call (.begin_pass 0)]

end Drill

namespace System

/-- The job whose drain has failed too often is left blocked by the pass that follows. -/
theorem drain_failure_stays_blocked :
    ∃ y, (initial.run (Drill.refused ++ Drill.refusal 0 ::
        ([Drill.call (.begin_pass 0)] ++ [Drill.call .pass_step]))).job ⟨1⟩ = some y ∧
      y.state = .Blocked := by
  obtain ⟨j, hj, hfields⟩ := job_of_field (initial.run (Drill.refused ++ [Drill.refusal 0])) ⟨1⟩
    (fun j => (j.state, j.drain_failures)) (a := (.Blocked, 3)) (by decide +kernel)
  obtain ⟨x, hx, hxstate⟩ := job_of_field
    (initial.run (Drill.refused ++ Drill.refusal 0 :: [Drill.call (.begin_pass 0)])) ⟨1⟩
    MaintenanceJob.state (a := .Blocked) (by decide +kernel)
  obtain ⟨y, hy, hstate⟩ := job_of_field (initial.run Drill.refused) ⟨1⟩ MaintenanceJob.state
    (a := .Prerequisites) (by decide +kernel)
  obtain ⟨hblocked, _⟩ := Prod.mk.inj hfields
  refine (blocks_are_stable (Drill.refused ++ Drill.refusal 0 ::
    ([Drill.call (.begin_pass 0)] ++ [Drill.call .pass_step])) (by decide +kernel)).1
      Drill.refused _ _ _
    [] (Drill.ms 100) ⟨1⟩ j rfl (by decide +kernel) ⟨?_, ?_, hblocked⟩ (by decide +kernel)
    (by decide +kernel) x hx hxstate
  · rw [hy]
    intro hsame
    rw [Option.some.inj hsame, hblocked] at hstate
    cases hstate
  · rw [← run_snoc]
    exact hj

/-- The job is blocked because its switch has been frozen, and the next pass of the same tick takes
    it on, under the same policy and the same topology. -/
theorem blocked_job_is_resumed :
    let blocked := Drill.frozen_out ++ Drill.call .pass_step :: Drill.second_pass
    (initial.run Drill.frozen_out).tick_now (Drill.call .pass_step) = some (Drill.ms 200) ∧
    ((initial.run Drill.frozen_out).job ⟨1⟩).map MaintenanceJob.state = some .Ready ∧
    ((initial.run (Drill.frozen_out ++ [Drill.call .pass_step])).job ⟨1⟩).map
      (fun j => (j.state, j.block)) = some (.Blocked, .TargetNotMaintainable) ∧
    (initial.run blocked).tick_now (Drill.call .pass_step) = some (Drill.ms 200) ∧
    ((initial.run blocked).job ⟨1⟩).map (fun j => (j.state, j.block)) =
      some (.Blocked, .TargetNotMaintainable) ∧
    ((initial.run (blocked ++ [Drill.call .pass_step])).job ⟨1⟩).map MaintenanceJob.state =
      some .Prerequisites ∧
    (initial.run blocked).ctl.policy = (initial.run Drill.frozen_out).ctl.policy ∧
    (initial.run blocked).ctl.topology = (initial.run Drill.frozen_out).ctl.topology := by
  intro blocked
  have hrun : initial.run blocked =
      (initial.run Drill.frozen_out).run (Drill.call .pass_step :: Drill.second_pass) :=
    run_append initial Drill.frozen_out (Drill.call .pass_step :: Drill.second_pass)
  have hstamps : Controller.Stamps (Drill.ms 200) (initial.run Drill.frozen_out).ctl
      (initial.run blocked).ctl := by
    rw [hrun]
    exact stamps_run _ (by decide +kernel)
  exact ⟨by decide +kernel, by decide +kernel, by decide +kernel, by decide +kernel,
    by decide +kernel, by decide +kernel, hstamps.policy, hstamps.topology⟩

end System

end MaintenanceFabric
