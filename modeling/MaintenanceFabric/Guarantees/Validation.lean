import MaintenanceFabric.Guarantees.Approval

/-! # Validation

    A job gets its scope when it is validated, and nowhere else.  A job that
    validation refuses is blocked without one, and `drive_blocked_locked` takes
    blocked jobs on to `Prerequisites` whether they have one or not: the hard
    block of the refusal holds the job there until a restart replaces it by a
    soft one.  `rearm` takes it on at once, and a validated job that has not
    been driven as well.
-/

namespace MaintenanceFabric

open Lib

/-! ## Scopes -/

namespace Topology

theorem mem_removal_set {t : Topology} {requested : List TargetId} {x : TargetId} :
    x ∈ t.removal_set requested ↔ ∃ m ∈ requested, x ∈ t.subtree m := by
  unfold removal_set
  rw [mem_sort, mem_collected (P := fun m x => x ∈ t.subtree m)]
  · simp
  · intro out m x
    exact mem_push_all_unique

theorem self_mem_subtree {t : Topology} {id : TargetId} (h : t.contains id = true) :
    id ∈ t.subtree id := by
  unfold subtree
  rw [if_pos h, mem_sorted_unique, subtree_loop]
  exact List.mem_cons_self

end Topology

/-- What validation does not refuse is declared, and so in the scope it expands. -/
theorem Controller.expanded_scope {c : Controller} {j : MaintenanceJob} (h : c.refuses j = false) :
    ∀ t ∈ j.targets, t ∈ (Drive.expanded c j).removal_set := by
  intro t ht
  have hnone : j.targets.findSome? (Drive.target_fault c.topology) = none := by
    unfold Controller.refuses at h
    simpa using (Bool.or_eq_false_iff.mp h).1
  have hfault := List.findSome?_eq_none_iff.mp hnone t ht
  refine Topology.mem_removal_set.mpr ⟨t, ht, Topology.self_mem_subtree ?_⟩
  unfold Drive.target_fault at hfault
  unfold Topology.contains
  split at hfault
  · cases hfault
  · next hfind =>
    rw [hfind]
    rfl

/-! ## Jobs without a scope -/

/-- A job that has ended, or has not been validated. -/
def Core.Unvalidated (c : Core) : Prop :=
  c.active_attempt.valid = false ∧
    (c.state.is_terminal = true ∨ c.removal_set = [] ∧ c.service_removed = false ∧
      (c.state = .Proposed ∨ c.state = .Validated ∨ c.state = .Blocked))

namespace Core

variable {c : Core}

/-- It can be taken to a state in which it still has not been validated, or be ended. -/
theorem Unvalidated.move (h : c.Unvalidated)
    (halive : c.state.is_terminal = false) {to_state : JobState}
    (hto : to_state = .Validated ∨ to_state = .Blocked) : (c.move to_state).Unvalidated := by
  obtain ⟨hidle, hscope⟩ := h
  rw [halive] at hscope
  obtain ⟨hscope, hkept, _⟩ := hscope.resolve_left (by decide)
  rcases hto with rfl | rfl
  · exact ⟨hidle, .inr ⟨hscope, by simp [Core.move, hkept], .inr (.inl rfl)⟩⟩
  · exact ⟨hidle, .inr ⟨hscope, by simp [Core.move, hkept], .inr (.inr rfl)⟩⟩

/-- A proposed job that is re-armed waits for its validation. -/
theorem Unvalidated.rearm (h : c.Unvalidated) (hstate : c.state = .Proposed)
    (authority : AuthorityId)
    (lease : DrainLeaseId) : (c.rearm authority lease).Unvalidated := by
  obtain ⟨_, hscope⟩ := h
  rw [hstate] at hscope
  obtain ⟨hscope, hkept, _⟩ := hscope.resolve_left (by decide)
  refine ⟨rfl, .inr ⟨hscope, ?_, .inr (.inl ?_)⟩⟩
  · simp [Core.rearm, Core.move, hkept, hstate, Controller.rearm_state]
  · simp [Core.rearm, Core.move, hstate, Controller.rearm_state]

/-- What it holds does not matter. -/
theorem Unvalidated.holding (h : c.Unvalidated) (authority : AuthorityId) (lease : DrainLeaseId) :
    ({ c with authority, lease } : Core).Unvalidated := h

end Core

theorem abiding_unvalidated : Abiding Core.Unvalidated where
  fresh := by
    intro c ⟨hstate, _, _, hkept, hattempt, _, _, hscope, _⟩
    exact ⟨by rw [hattempt]; rfl, .inr ⟨hscope, hkept, .inl hstate⟩⟩
  aside := by
    intro k c c' edit hk h
    cases edit with
    | touched _ _ _ => exact h
    | moved to_state _ _ _ _ =>
      have hto : to_state = .Cancelled := by
        rcases hk with hk | hk | hk
        · cases hk
        · exact EditKind.moved.inj hk
        · cases hk
      subst hto
      exact ⟨rfl, .inl rfl⟩
    | reconciled authority lease alive past =>
      obtain ⟨_, hscope⟩ := h
      rw [alive] at hscope
      obtain ⟨hscope, hkept, hstate⟩ := hscope.resolve_left (by decide)
      have hblocked : c.state = .Blocked :=
        (hstate.resolve_left past.1).resolve_left past.2
      have hcore : c.reconcile authority lease =
        { c with active_attempt := {}, authority, lease } := by
        unfold Core.reconcile
        simp only [hkept, hblocked, if_true, Bool.false_eq_true, if_false]
      rw [hcore]
      exact ⟨rfl, .inr ⟨hscope, hkept, .inr (.inr hblocked)⟩⟩
    | _ => rcases hk with hk | hk | hk <;> cases hk
  undenied := by
    intro c ⟨_, hstate⟩ hwaits
    rw [hwaits] at hstate
    rcases hstate with hstate | ⟨_, _, hstate | hstate | hstate⟩ <;> cases hstate
  idle := fun h => h.1

namespace Controller

/-- What keeps a blocked job where it is. -/
def holds_blocked (c : Controller) (j : MaintenanceJob) (now : Nanos) : Bool :=
  let policy_changed := j.policy_revision.valid && decide (j.policy_revision ≠ c.policy.revision)
  let topology_changed := j.topology_revision.valid &&
    decide (j.topology_revision ≠ c.topology.revision)
  (is_hard_block j.block || decide (now - j.updated_at < kSoftBlockDwellNanos)) &&
    !policy_changed &&
    !topology_changed

theorem drive_blocked_held {d : Drive} {context : PassContext}
    (h : d.ctl.holds_blocked d.job context.now = true) :
    d.drive_blocked_locked context = (false, d) := by
  simp only [holds_blocked, Bool.and_eq_true, Bool.or_eq_true] at h
  obtain ⟨⟨hreason, hpolicy⟩, htopology⟩ := h
  unfold Drive.drive_blocked_locked
  simp only [hpolicy, htopology, Bool.and_true]
  rcases hreason with hhard | hsoft
  · rw [if_pos hhard]
  · rw [if_pos hsoft]
    split <;> rfl

theorem drive_validated_refused {d : Drive} (context : PassContext)
    (h : d.ctl.refuses d.job = true) :
    ∃ reason detail, d.drive_validated_locked context =
      d.transition_locked .Blocked reason detail context.now := by
  unfold refuses at h
  unfold Drive.drive_validated_locked
  cases hfault : d.job.targets.findSome? (Drive.target_fault d.ctl.topology) with
  | some fault => exact ⟨_, _, rfl⟩
  | none =>
    rw [hfault, Option.isSome_none, Bool.false_or] at h
    simp only
    rw [if_pos h]
    exact ⟨_, _, rfl⟩

variable {c : Controller} {id : JobId} {j j' : MaintenanceJob}

/-- A drive that neither validates a job nor resumes it leaves it unvalidated. -/
theorem drive_locked_unvalidated (hfind : c.world.jobs.find id = some j) (h : j.core.Unvalidated)
    {context : PassContext} (hrefused : j.state = .Validated → c.refuses j = true)
    (hheld : j.state = .Blocked → c.holds_blocked j context.now = true) (actions : List DrainAction)
    (hj' : (c.drive_locked id context actions).1.world.jobs.find id = some j') :
    j'.core.Unvalidated := by
  have hsame : c.world.jobs.find id = some j' → j'.core.Unvalidated := by
    intro heq
    cases Option.some.inj (hfind.symm.trans heq)
    exact h
  have hstored : c.store.state.jobs.find id = some j := hfind
  have hid : j.id = id := Table.key_of_find hfind
  unfold drive_locked at hj'
  rw [hstored] at hj'
  simp only at hj'
  split at hj'
  · exact hsame hj'
  · next halive =>
    have halive : j.state.is_terminal = false := Bool.eq_false_iff.mpr halive
    have hstate := h.2
    rw [show j.core.state.is_terminal = false from halive] at hstate
    obtain ⟨_, _, hstate⟩ := hstate.resolve_left (by decide)
    have hnothing : Drive.drive_state { ctl := c, job := j, actions := some actions } context =
        (false, { ctl := c, job := j, actions := some actions }) → j'.core.Unvalidated := by
      intro hdrive
      rw [hdrive] at hj'
      exact hsame hj'
    -- An unvalidated job that is alive is proposed, refused at validation, or blocked.
    rcases hstate with hstate | hstate | hstate
    · have hstate : j.state = .Proposed := hstate
      apply hnothing
      unfold Drive.drive_state
      rw [show ({ ctl := c, job := j, actions := some actions } : Drive).job.state = _ from hstate]
    · have hstate : j.state = .Validated := hstate
      obtain ⟨reason, detail, hrefusal⟩ := drive_validated_refused context
        (d := { ctl := c, job := j, actions := some actions }) (hrefused hstate)
      have hdrive : Drive.drive_state { ctl := c, job := j, actions := some actions } context =
          Drive.transition_locked
            { ctl := c, job := j, actions := some actions } .Blocked reason detail
            context.now := by
        unfold Drive.drive_state
        simp only [hstate]
        exact hrefusal
      rcases Drive.transition_cases { ctl := c, job := j, actions := some actions } .Blocked reason
        detail context.now with hno | ⟨_, hyes, hmoved⟩
      · exact hnothing (hdrive.trans hno)
      · have hjobs := Drive.jobs_transition { ctl := c, job := j, actions := some actions } .Blocked
          reason detail context.now
        rw [hdrive, hyes, if_pos rfl] at hj'
        obtain ⟨a, l, hcore, _⟩ := hmoved.core
        generalize (Drive.transition_locked { ctl := c, job := j, actions := some actions } .Blocked
          reason detail context.now).2 = d' at hj' hjobs hcore
        -- The block may still fail in the journal, and then the stored job stays as it was.
        rcases d'.ctl.commit_puts d'.job context.now with hkept | ⟨_, x, hx, _, hput⟩
        · rw [hkept, hjobs] at hj'
          exact hsame hj'
        · have hcore : x.core = { j.core.move .Blocked with authority := a, lease := l } :=
            hx.trans hcore
          have hkey : x.id = id := (congrArg Core.id hcore).trans hid
          rw [hput, ← hkey] at hj'
          cases Option.some.inj (hj'.symm.trans (Table.find_put_self _ _))
          rw [hcore]
          exact (h.move halive (.inr rfl)).holding a l
    · have hstate : j.state = .Blocked := hstate
      apply hnothing
      unfold Drive.drive_state
      simp only [hstate]
      exact drive_blocked_held (hheld hstate)

end Controller

namespace System

variable {s : System} {e : Event} {id : JobId} {j j' : MaintenanceJob}

/-! ## Runs -/

/-- The step validates the job, and what the job says is what it recorded. -/
def Validates (s : System) (e : Event) (j : MaintenanceJob) : Prop :=
  ∃ p x, s.driving e = some (p, x) ∧ x.id = j.id ∧ s.up = true ∧ x.state = .Validated ∧
    s.ctl.refuses x = false ∧ j.topology_digest = s.ctl.topology.digest ∧
    j.policy_digest = s.ctl.policy.digest

/-- No job is re-armed that waits for its validation or was blocked without one, and none of the
    latter is taken on by a pass. -/
def ValidatedFirst (s : System) (e : Event) : Prop :=
  (∀ job ∈ e.rearms, ∀ j ∈ s.job job,
    j.state ≠ .Validated ∧ (j.state = .Blocked → j.removal_set ≠ [])) ∧
  ∀ d ∈ s.driving e, d.2.state = .Blocked → d.2.removal_set = [] →
    s.ctl.holds_blocked d.2 d.1.now = true

instance (s : System) (e : Event) : Decidable (ValidatedFirst s e) :=
  inferInstanceAs (Decidable ((∀ job ∈ e.rearms, ∀ j ∈ s.job job, _) ∧ ∀ d ∈ s.driving e, _))

/-- An unvalidated job stays one, or is validated in this step. -/
theorem Sound.unvalidated_step (h : s.Sound) (hfirst : ValidatedFirst s e)
    (hstored : ∀ j, s.job id = some j → j.core.Unvalidated) (hj' : (s.step e).job id = some j') :
    j'.core.Unvalidated ∨ ∃ p x, s.driving e = some (p, x) ∧ x.id = id ∧ s.up = true ∧
      x.state = .Validated ∧ s.ctl.refuses x = false := by
  rcases h.abides abiding_unvalidated hstored hj' with
    hkept | ⟨p, x, hdriving, hid, hup⟩ | ⟨ctl, ⟨_, _, hcall, hlabel⟩, hctl⟩
  · exact .inl hkept
  · obtain ⟨_, _, hx, _⟩ := driving_spec hdriving
    -- A drive that does not validate the job refuses it, or finds it held in `Blocked`.
    by_cases hvalidates : x.state = .Validated ∧ s.ctl.refuses x = false
    · exact .inr ⟨p, x, hdriving, hid, hup, hvalidates⟩
    · left
      have hctl := step_drive_ctl hdriving
      rw [if_pos hup, hid] at hctl
      have hj' : (s.step e).ctl.world.jobs.find id = some j' := hj'
      rw [hctl] at hj'
      rw [hid] at hx
      refine Controller.drive_locked_unvalidated (c := under s.ctl e.verdicts) hx (hstored x hx)
        ?_ ?_ _ hj'
      · intro hstate
        exact Bool.of_not_eq_false (fun hno => hvalidates ⟨hstate, hno⟩)
      · intro hblocked
        have hscope : x.removal_set = [] := by
          obtain ⟨_, hterminal | ⟨hscope, _⟩⟩ := hstored x hx
          · rw [show x.core.state = .Blocked from hblocked] at hterminal
            cases hterminal
          · exact hscope
        exact hfirst.2 (p, x) hdriving hblocked hscope
  · left
    have hj' : (s.step e).ctl.world.jobs.find id = some j' := hj'
    rw [hctl] at hj'
    -- Two calls change a stored job: `approve` leaves it unvalidated, `rearm` moves it on.
    rcases hlabel with ⟨actor, entry_at, commit_at, label⟩ | ⟨actor, clock, label⟩
    · rw [label] at hcall
      cases hcall
      rcases (under s.ctl e.verdicts).approve_commits id actor entry_at commit_at with
        hjobs | ⟨_, x, x', hx, hstate, hcore, _, hjobs⟩
      · rw [hjobs] at hj'
        exact hstored j' hj'
      · have hkey : x'.id = id := (congrArg Core.id hcore).trans (Table.key_of_find hx : x.id = id)
        rw [hjobs, ← hkey] at hj'
        cases Option.some.inj (hj'.symm.trans (Table.find_put_self _ _))
        rw [hcore]
        refine (hstored x hx).move ?_ (.inl rfl)
        rw [show x.core.state = .Proposed from hstate]
        rfl
    · have hrearms : e.rearms = some id := by
        unfold Event.rearms
        rw [label]
      rw [label] at hcall
      cases hcall
      rcases (under s.ctl e.verdicts).rearm_commits id actor clock with
        hjobs | ⟨x, x', a, l, hx, halive, hcore, hjobs⟩
      · rw [hjobs] at hj'
        exact hstored j' hj'
      · have hkey : x'.id = id := (congrArg Core.id hcore).trans (Table.key_of_find hx : x.id = id)
        rw [hjobs, ← hkey] at hj'
        cases Option.some.inj (hj'.symm.trans (Table.find_put_self _ _))
        -- The condition leaves the job in `Proposed`, where rearming validates nothing.
        obtain ⟨hvalidated, hblocked⟩ := hfirst.1 id hrearms x hx
        have hunvalidated := hstored x hx
        obtain ⟨_, hscope⟩ := hunvalidated
        rw [show x.core.state.is_terminal = false from halive] at hscope
        obtain ⟨hscope, _, hstate⟩ := hscope.resolve_left (by decide)
        rw [hcore]
        refine (hstored x hx).rearm ?_ a l
        rcases hstate with hstate | hstate | hstate
        · exact hstate
        · exact absurd hstate hvalidated
        · exact absurd hscope (hblocked hstate)

/-- Every stored job asks for something. -/
def Requested (s : System) : Prop := ∀ id j, s.job id = some j → j.targets ≠ []

theorem Configured.requested_step (h : s.Configured) (hs : s.Sound) (hrequested : s.Requested) :
    (s.step e).Requested := by
  intro id j' hj'
  cases hj : s.job id with
  | some j =>
    obtain ⟨x, hx, hadvance⟩ := (changes_step hs e).advance hs.world hj
    cases Option.some.inj (hj'.symm.trans hx)
    rw [show j'.targets = j.targets from hadvance.request.1]
    exact hrequested id j hj
  | none => exact ((h.step e).newcomer hj hj').1

/-- The scope of a job covers what it asks for, and some step of the run validated it. -/
def Validated (events : List Event) (j : MaintenanceJob) : Prop :=
  (∀ t ∈ j.targets, t ∈ j.removal_set) ∧ ∃ before e after, events = before ++ e :: after ∧
    (initial.run before).Validates e j

/-- A version of a validated job is validated. -/
theorem Validated.carried {events : List Event} {current : ControllerIncarnation}
    (h : Validated events j) (hcarries : MaintenanceJob.Carries current j j')
    (htargets : j'.targets = j.targets) (e : Event) : Validated (events ++ [e]) j' := by
  obtain ⟨hscope, before, x, after, hsplit, p, y, hdriving, hid, hup, hstate, hrefuses, htopology,
    hpolicy⟩ := h
  have hset : j'.removal_set = j.removal_set := congrArg Binding.removal_set hcarries.binding
  have hdigest : j'.policy_digest = j.policy_digest :=
    congrArg Binding.policy_digest hcarries.binding
  refine ⟨?_, before, x, after ++ [e], ?_, p, y, hdriving, hid.trans hcarries.id.symm, hup, hstate,
    hrefuses, hcarries.topology.2.trans htopology, hdigest.trans hpolicy⟩
  · rw [htargets, hset]
    exact hscope
  · rw [hsplit, List.append_assoc]
    rfl

/-- The step validates the job. -/
theorem validated_now {events : List Event} {p : Pass} {current : ControllerIncarnation}
    (hdriving : (initial.run events).driving e = some (p, j)) (hup : (initial.run events).up = true)
    (hstate : j.state = .Validated) (hrefuses : (initial.run events).ctl.refuses j = false)
    (hcarries : MaintenanceJob.Carries current ((initial.run events).ctl.rebound j) j')
    (htargets : j'.targets = j.targets) : Validated (events ++ [e]) j' := by
  have hrebound : (initial.run events).ctl.rebound j = Drive.expanded (initial.run events).ctl j :=
    if_pos ⟨hstate, hrefuses⟩
  rw [hrebound] at hcarries
  have hset : j'.removal_set = (Drive.expanded (initial.run events).ctl j).removal_set :=
    congrArg Binding.removal_set hcarries.binding
  refine ⟨?_, events, e, [], rfl, p, j, hdriving, hcarries.id.symm, hup, hstate, hrefuses,
    hcarries.topology.2, congrArg Binding.policy_digest hcarries.binding⟩
  rw [htargets, hset]
  exact Controller.expanded_scope hrefuses

/-- Along a run in which no job gets on without its validation, every job that has got on has a
    scope that covers what it asks for, and bears the digests that its validation recorded. -/
theorem validation_not_skipped (events : List Event) (id : JobId) (j : MaintenanceJob)
    (hfirst : Along step ValidatedFirst initial events)
    (hj : (initial.run events).job id = some j)
    (hstate : j.state ∈ [.Prerequisites, .Ready, .InMaintenance, .Verifying, .Restoring]) :
    j.removal_set ≠ [] ∧ (∀ t ∈ j.targets, t ∈ j.removal_set) ∧
      ∃ before e after, events = before ++ e :: after ∧ (initial.run before).Validates e j := by
  have hinv : ∀ events, (initial.run events).Sound ∧ (initial.run events).Configured ∧
      (initial.run events).Requested := by
    intro events
    refine run_invariant (I := fun s : System => s.Sound ∧ s.Configured ∧ s.Requested) ?_ events
      ⟨sound_initial, configured_initial, fun _ _ h => by cases h⟩
    intro s e ⟨hs, hconfigured, hrequested⟩
    exact ⟨hs.step e, (hconfigured.step e).configured, hconfigured.requested_step hs hrequested⟩
  -- A job in one of the five stages is past validation, so it is enough to follow it there.
  suffices hrun : j.core.Unvalidated ∨ Validated events j by
    obtain ⟨hscope, hvalidates⟩ := hrun.resolve_left (by
      rintro ⟨_, hunvalidated⟩
      have hcore : j.core.state = j.state := rfl
      rw [hcore] at hunvalidated
      generalize j.state = state at hstate hunvalidated
      revert hstate hunvalidated
      cases state <;> simp [JobState.is_terminal])
    refine ⟨?_, hscope, hvalidates⟩
    intro hnone
    obtain ⟨t, ht⟩ := List.exists_mem_of_ne_nil j.targets ((hinv events).2.2 id j hj)
    have hmem := hscope t ht
    rw [hnone] at hmem
    cases hmem
  clear hstate
  -- The induction is on the run, read from its end: the last step validates or carries the job.
  induction events using List.reverseRecOn generalizing j with
  | nil => cases hj
  | append_singleton events e ih =>
    obtain ⟨hbefore, hlast, _⟩ := Along.append.mp hfirst
    obtain ⟨hs, hconfigured, _⟩ := hinv events
    rw [run_snoc] at hj
    have htargets : ∀ x, (initial.run events).job id = some x → j.targets = x.targets := by
      intro x hx
      obtain ⟨y, hy, hadvance⟩ := (changes_step hs e).advance hs.world hx
      cases Option.some.inj (hj.symm.trans hy)
      exact hadvance.request.1
    by_cases hstored : ∀ x, (initial.run events).job id = some x → x.core.Unvalidated
    · rcases hs.unvalidated_step hlast hstored hj with
        hkept | ⟨p, x, hdriving, hid, hup, hstate, hrefuses⟩
      · exact .inl hkept
      · -- The drive has bound the job, or has not got through.
        obtain ⟨_, _, hx, _⟩ := driving_spec hdriving
        have hrow : j ∈ ((initial.run events).step e).ctl.world.jobs.rows := Table.mem_of_find hj
        rw [step_drive_ctl hdriving, if_pos hup] at hrow
        rcases Controller.rows_drive_locked _ _ _ _ hrow with hkept | ⟨y, hy, hcarries⟩
        · have hkey : j.id = id := Table.key_of_find hj
          exact .inl (hstored j (hkey ▸ Table.find_iff_mem.mpr hkept))
        · cases Option.some.inj (hx.symm.trans hy)
          exact .inr (validated_now hdriving hup hstate hrefuses hcarries (htargets x (hid ▸ hx)))
    · right
      simp only [not_forall] at hstored
      obtain ⟨x, hx, hpast⟩ := hstored
      have hvalidated := (ih x hbefore hx).resolve_left hpast
      -- Once validated, the job is carried, or a drive validates it once more.
      rcases (hconfigured.step e).version hx hj with hcarries | ⟨p, hdriving, hup, hcarries⟩
      · exact hvalidated.carried hcarries (htargets x hx) e
      · by_cases hvalidates : x.state = .Validated ∧ (initial.run events).ctl.refuses x = false
        · exact validated_now hdriving hup hvalidates.1 hvalidates.2 hcarries (htargets x hx)
        · rw [Controller.rebound, if_neg hvalidates] at hcarries
          exact hvalidated.carried hcarries (htargets x hx) e

end System

namespace Drill

/-- The switch is not declared when the job is validated; the process is restarted, and the next
    passes find a job that has been blocked for a while. -/
def undeclared : List Event :=
  [boot 0, call (.set_policy policy), propose 0, approve 1 0] ++ tick 0 1 ++ [boot (ms 100)] ++
    tick (ms 60000) 1

end Drill

namespace System

/-- The job that is started has a scope. -/
theorem started_job_was_validated :
    ∃ j, (initial.run Drill.started).job ⟨1⟩ = some j ∧ j.state = .InMaintenance ∧
      j.removal_set ≠ [] := by
  obtain ⟨j, hj, hstate⟩ := job_of_field (initial.run Drill.started) ⟨1⟩ MaintenanceJob.state
    (a := .InMaintenance) (by decide +kernel)
  have hvalidated := validation_not_skipped Drill.started ⟨1⟩ j (by decide +kernel) hj (by
    rw [hstate]
    decide)
  exact ⟨j, hj, hstate, hvalidated.1⟩

/-- The job waits for its prerequisites, without a scope and without digests. -/
theorem refused_job_gets_on :
    ((initial.run Drill.undeclared).job ⟨1⟩).map
        (fun j => (j.state, j.removal_set, j.topology_digest, j.policy_digest)) =
      some (.Prerequisites, [], 0, 0) := by
  decide +kernel

end System

end MaintenanceFabric
