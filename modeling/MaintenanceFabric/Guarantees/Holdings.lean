import MaintenanceFabric.Guarantees.Drains
import MaintenanceFabric.Runtime.Accounting
import MaintenanceFabric.Runtime.Reconciliation

/-! # Jobs that hold nothing

    A job that has ended holds nothing, as long as the journal accepts what it
    is given.  The same is meant to hold of a job that is blocked while its
    service is up, but a drain that was requested before the job was blocked
    is answered later, and the answer is not refused: blocking keeps the
    attempt, and the attempt is all that the answer is matched by.
-/

namespace MaintenanceFabric

open Lib

namespace System

/-! ## Runs without journal errors -/

/-- The controller that a restart reconciles, once it has its incarnation. -/
def booting (s : System) (e : Event) : Option Controller :=
  match e.label with
  | .open options _ steady => Controller.booting (under s.ctl e.verdicts).store options steady
  | _ => none

/-- The disk takes every write, and a restart the batch that fences the older incarnations. Any
    other batch may still be refused for its size. -/
def Faultless (s : System) (e : Event) : Prop :=
  e.verdicts = [] ∧ ∀ c ∈ s.booting e, c.FenceAdmitted

instance (c : Controller) : Decidable c.FenceAdmitted := by
  unfold Controller.FenceAdmitted
  infer_instance

instance (s : System) (e : Event) : Decidable (s.Faultless e) := by
  unfold Faultless
  infer_instance

/-! ## Accounting -/

/-- While the process runs its jobs account for every reservation; a job that is over has none,
    whether it runs or not. -/
structure Accounted (s : System) : Prop where
  held : s.up = true → ∀ j ∈ s.ctl.world.jobs.rows,
    Held s.ctl.world.ledger s.ctl.incarnation j.core
  finished : ∀ j ∈ s.ctl.world.jobs.rows, j.core.spent = true →
    j.authority = ⟨0⟩ ∧ ∀ r ∈ s.ctl.world.ledger.reservations.rows, r.job ≠ j.id

theorem accounted_initial : initial.Accounted where
  held := fun hup => by cases hup
  finished := fun _ hj => by cases hj

theorem Accounted.of_held {s : System} (h : ∀ j ∈ s.ctl.world.jobs.rows,
    Held s.ctl.world.ledger s.ctl.incarnation j.core) : s.Accounted :=
  ⟨fun _ => h, fun j hj hspent => ⟨(h j hj).spent hspent, (h j hj).none_of_spent hspent⟩⟩

theorem Accounted.orderly {s : System} (h : s.Accounted) (sound : s.Sound) (up : s.up = true) :
    (under s.ctl []).Orderly := by
  refine ⟨rfl, ?_, fun j hj => (sound.world.jobs j hj).2, h.held up⟩
  intro r hr
  refine ⟨?_, (sound.world.holds r hr).attempt⟩
  exact StrongId.valid_iff.mpr
    (Nat.pos_iff_ne_zero.mp (StrongId.lt_iff.mp (sound.world.ids.2 r hr).1))

/-- A drain request is granted, and the lease put on record. -/
def Granting (s : System) (e : Event) (action : DrainAction) : Prop :=
  ∃ x ∈ s.answering e, x.1 = action ∧ action.kind = .Request ∧ s.ctl.drain_stale action = false ∧
    Status.isOk x.2.1.status = true ∧ x.2.1.lease.id.valid = true ∧
    Status.isOk ((under s.ctl e.verdicts).store.commit_lease x.2.1.lease).1 = true

/-- What a step does to what the jobs hold. -/
structure Accounts (s : System) (e : Event) : Prop where
  accounted : (s.step e).Accounted
  leases : Controller.Inherits s.ctl (s.step e).ctl ∨
    ∃ action, s.Granting e action ∧ Controller.Grants s.ctl (s.step e).ctl action.job

theorem Accounted.restart {s : System} (h : s.Accounted) (sound : s.Sound) {e : Event}
    {options : Controller.ControllerOptions} {clock : Nanos} {steady : Nat}
    (label : e.label = .open options clock steady) (calm : s.Faultless e) :
    (System.restart { s with ctl := under s.ctl e.verdicts } options clock steady).Accounted ∧
      Controller.Inherits s.ctl
        (System.restart { s with ctl := under s.ctl e.verdicts } options clock steady).ctl := by
  obtain ⟨hverdicts, hfence⟩ := calm
  have hbooting : s.booting e =
      Controller.booting (under s.ctl e.verdicts).store options steady := by
    unfold System.booting
    rw [label]
  rw [hbooting] at hfence
  unfold System.restart
  simp only
  rcases Controller.open_cases (under s.ctl e.verdicts).store options clock steady with
    ⟨_, hdown, hjobs, hledger, _⟩ | ⟨c, hboot, hboots, hopen⟩
  · refine ⟨⟨?_, ?_⟩, .of_jobs hjobs⟩
    · intro hup
      rw [hdown] at hup
      cases hup
    · intro j hj
      rw [hjobs] at hj
      rw [hledger]
      exact h.finished j hj
  -- The fence drops every reservation of an older incarnation before a job is looked at.
  · have hspent : ∀ j ∈ c.world.jobs.rows, j.core.spent = true → j.authority = ⟨0⟩ := by
      intro j hj hover
      rw [hboots.jobs] at hj
      exact (h.finished j hj hover).1
    have hcalm : c.Calm := hboots.calm hverdicts
    obtain ⟨hfenced, hflushed⟩ := Controller.fenced_of_admitted hcalm (hfence c hboot)
      (hboots.older (fun r hr => (sound.world.holds r hr).owner))
    obtain ⟨r, hrecovered⟩ := @Controller.recovered_reconcile_locked c clock (fun _ => True)
      hfenced hflushed (fun _ _ _ _ _ _ _ _ _ _ => trivial)
    rw [hopen]
    refine ⟨⟨fun hup => hrecovered.held hup hspent, hrecovered.finished hspent⟩, ?_⟩
    intro j' hj'
    have hinherits := hrecovered.inherits j' hj'
    rw [hboots.jobs] at hinherits
    exact hinherits

theorem Accounted.step {s : System} (h : s.Accounted) (sound : s.Sound) {e : Event}
    (calm : s.Faultless e) : s.Accounts e := by
  have hdid := s.step_did e
  have hrestart : ∀ o c t, e.label = .open o c t →
      (System.restart { s with ctl := under s.ctl e.verdicts } o c t).Accounted ∧
        Controller.Inherits s.ctl
          (System.restart { s with ctl := under s.ctl e.verdicts } o c t).ctl :=
    fun _ _ _ hl => h.restart sound hl calm
  have horderly := h.orderly sound
  have hbooks : (under s.ctl e.verdicts).world = s.ctl.world := rfl
  rw [← calm.1] at horderly
  suffices hkept : (s.step e).Accounted ∧ (Controller.Inherits s.ctl (s.step e).ctl ∨
      ∃ action, s.Granting e action ∧ Controller.Grants s.ctl (s.step e).ctl action.job) from
    ⟨hkept.1, hkept.2⟩
  generalize s.step e = s' at hdid ⊢
  generalize hc : under s.ctl e.verdicts = c at hdid horderly hrestart hbooks
  -- What keeps the books of the running process is enough, whatever else it does.
  have hkeeps : ∀ t : System, Controller.Keeps c t.ctl → t.Accounted ∧
      (Controller.Inherits s.ctl t.ctl ∨
        ∃ action, s.Granting e action ∧ Controller.Grants s.ctl t.ctl action.job) := by
    intro t hk
    refine ⟨.of_held hk.1, .inl ?_⟩
    intro j hj
    have hinherits := hk.2 j hj
    rw [hbooks] at hinherits
    exact hinherits
  have hsame : ∀ t : System, t.up = s.up → t.ctl.world = s.ctl.world → t.Accounted ∧
      (Controller.Inherits s.ctl t.ctl ∨
        ∃ action, s.Granting e action ∧ Controller.Grants s.ctl t.ctl action.job) := by
    intro t hup hw
    have hincarnation : t.ctl.incarnation = s.ctl.incarnation :=
      congrArg World.incarnation hw
    refine ⟨⟨?_, ?_⟩, .inl (.of_jobs (by rw [hw]))⟩
    · rw [hup, hw, hincarnation]
      exact h.held
    · rw [hw]
      exact h.finished
  cases hdid with
  | nothing => exact hsame _ rfl hbooks
  | restarted label =>
    have hkept := hrestart _ _ _ label
    exact ⟨hkept.1, .inl hkept.2⟩
  | @drove p id rest _ up _ _ =>
    exact hkeeps _ ((horderly up).drive_locked id (p.context c) p.actions).keeps
  | @closed p _ up _ _ =>
    have harbitrated := (horderly up).arbitrate_locked (by rw [hbooks]; exact sound.world)
      (p.context c)
    exact hkeeps _ (harbitrated.trans (harbitrated.orderly.sweep_orphans p.actions)).keeps
  | ticked _ _ _ _ => exact hsame _ rfl hbooks
  | @began thread t _ up _ _ _ =>
    exact hkeeps _ ((horderly up).expire_authority t.now [])
  | marked _ _ _ _ _ =>
    refine hsame _ rfl ?_
    simp only
    split <;> exact hbooks
  | @answered thread answer t action rest label up pass found actions marked =>
    rcases (horderly up).apply_outcome action (Controller.perform_action action answer) t.now with
      hk | ⟨⟨hkind, hfresh, hok, hvalid, haccepted⟩, hgrants⟩
    · exact hkeeps _ hk
    · refine ⟨.of_held hgrants.1, .inr ⟨action, ⟨_, answering_eq label up pass found actions marked,
        rfl, hkind, ?_, hok, hvalid, ?_⟩, ?_⟩⟩
      · rw [← hfresh, ← hc]
        rfl
      · rw [hc]
        exact haccepted
      · unfold Controller.Grants at hgrants ⊢
        rw [hbooks] at hgrants
        exact hgrants
  | finished _ _ _ _ _ => exact hsame _ rfl hbooks
  | called up _ call =>
    exact hkeeps _ ((horderly up).call (by rw [hbooks]; exact sound.world) call)

/-! ## Finished jobs -/

theorem Sound.emitted_tokened {s : System} (h : s.Sound) {a : DrainAction} (ha : a ∈ s.emitted) :
    a.Tokened := by
  unfold emitted passing performing at ha
  rcases List.mem_append.mp ha with ha | ha
  · rcases List.mem_append.mp ha with ha | ha
    · exact h.deferred a ha
    · cases hpass : s.pass with
      | none =>
        rw [hpass] at ha
        cases ha
      | some p =>
        rw [hpass] at ha
        exact h.pass p hpass a ha
  · obtain ⟨t, ht, ha⟩ := List.mem_flatMap.mp ha
    exact h.threads t ht a ha

/-- The request that is answered was waiting, so it carries a token. -/
theorem Granting.job_alive {s : System} {e : Event} {action : DrainAction}
    (h : s.Granting e action) (sound : s.Sound) {j : MaintenanceJob}
    (hj : s.ctl.world.jobs.find action.job = some j) : j.state.is_terminal = false := by
  obtain ⟨x, hanswering, hsame, hkind, hfresh, _⟩ := h
  have hdid := (step_answering hanswering).flow
  obtain ⟨waiting, _, _, before, _⟩ := hdid
  subst hsame
  have htoken : x.1.attempt.valid = true := by
    exact sound.emitted_tokened (before.mem_iff.mpr List.mem_cons_self) hkind
  have hactive : j.active_attempt = x.1.attempt := by
    unfold Controller.drain_stale JobTable.find at hfresh
    rw [show s.ctl.store.state.jobs.jobs.find x.1.job = some j from hj] at hfresh
    simp only [Bool.or_eq_false_iff, decide_eq_false_iff_not, not_not] at hfresh
    exact hfresh.2
  exact sound.world.alive_of_attempt hj (hactive ▸ htoken)

end System

/-- A job that is over has ended, or is blocked with its service up. -/
theorem Core.spent_cases {c : Core} (h : c.spent = true) :
    c.state.is_terminal = true ∨ c.state = .Blocked ∧ c.service_removed = false := by
  have hback : Drive.gives_back c.state c.service_removed = true := h
  simpa [Drive.gives_back] using hback

theorem Core.spent_of_terminal {c : Core} (h : c.state.is_terminal = true) : c.spent = true := by
  show Drive.gives_back c.state c.service_removed = true
  unfold Drive.gives_back
  rw [h]
  rfl

namespace System

/-- Everything a step needs of the state to keep finished jobs empty. -/
structure Emptied (s : System) : Prop where
  sound : s.Sound
  accounted : s.Accounted
  leaseless : ∀ j ∈ s.ctl.world.jobs.rows, j.state.is_terminal = true → j.lease = ⟨0⟩

theorem Emptied.step {s : System} (h : s.Emptied) {e : Event} (calm : s.Faultless e) :
    (s.step e).Emptied := by
  obtain ⟨haccounted, hleases⟩ := h.accounted.step h.sound calm
  refine ⟨h.sound.step e, haccounted, ?_⟩
  intro j' hj' hterm
  have hover := Core.spent_of_terminal (c := j'.core) hterm
  rcases hleases with hinherits | ⟨action, hgranting, hgrants⟩
  · rcases hinherits j' hj' with hlease | ⟨j, hj, _, hlease, hstage⟩
    · exact hlease
    · rw [hlease]
      exact h.leaseless j hj (by rw [← (hstage hover).2]; exact hterm)
  · rcases hgrants.2 j' hj' with ⟨j, hj, hlease, hstage⟩ | ⟨j, hj, hstate, _⟩
    · rw [hlease]
      exact h.leaseless j hj (by rw [← (hstage hover).2]; exact hterm)
    · -- The job of a request that is still waited for has not ended.
      have halive := hgranting.job_alive h.sound hj
      rw [← hstate, hterm] at halive
      cases halive

theorem emptied_initial : initial.Emptied :=
  ⟨sound_initial, accounted_initial, fun _ hj => by cases hj⟩

/-- A job that has ended holds no authority, no lease and no attempt, and no reservation is left
    for it. -/
theorem terminal_jobs_hold_nothing (events : List Event)
    (calm : Along step Faultless initial events) (id : JobId) (j : MaintenanceJob)
    (hj : (initial.run events).job id = some j) (hterm : j.state.is_terminal = true) :
    j.authority = ⟨0⟩ ∧ j.lease = ⟨0⟩ ∧ j.active_attempt = {} ∧
      ∀ r ∈ (initial.run events).ctl.store.state.ledger.reservations.rows,
        ¬ (r.job = j.id ∧ r.generation = j.generation) := by
  have hemptied : (initial.run events).Emptied :=
    calm.invariant (fun _ _ hcalm hs => hs.step hcalm) emptied_initial
  have hmem : j ∈ (initial.run events).ctl.world.jobs.rows := Table.mem_of_find hj
  obtain ⟨hauthority, hnone⟩ := hemptied.accounted.finished j hmem
    (Core.spent_of_terminal (c := j.core) hterm)
  refine ⟨hauthority, hemptied.leaseless j hmem hterm, ?_, ?_⟩
  · exact (hemptied.sound.world.job hj).idle hterm
  · exact fun r hr hsame => hnone r hr hsame.1

end System

namespace Drill

/-- Job 1 is cancelled after its drain has been granted. -/
def called_off : List Event :=
  drained ++ [call (.cancel ⟨1⟩ (text "operator") (text "not needed") (ms 200))]

end Drill

namespace System

theorem terminal_jobs_hold_nothing_drill :
    ∃ j, (initial.run Drill.called_off).job ⟨1⟩ = some j ∧ j.state = .Cancelled ∧
      j.authority = ⟨0⟩ ∧ j.lease = ⟨0⟩ ∧ j.active_attempt = {} ∧
      ∀ r ∈ (initial.run Drill.called_off).ctl.store.state.ledger.reservations.rows,
        ¬ (r.job = j.id ∧ r.generation = j.generation) := by
  obtain ⟨j, hj, hstate⟩ := job_of_field (initial.run Drill.called_off) ⟨1⟩ (fun j => j.state)
    (a := .Cancelled) (by decide +kernel)
  have hcalm : Along step Faultless initial Drill.called_off := by decide +kernel
  exact ⟨j, hj, hstate, terminal_jobs_hold_nothing _ hcalm _ j hj (by rw [hstate]; rfl)⟩

/-! ## Blocked jobs -/

/-- A drain is granted to a job that has been blocked, in service, since it asked. -/
def GrantsBlocked (s : System) (e : Event) : Prop :=
  ∃ x ∈ s.answering e, s.Granting e x.1 ∧
    ∃ j ∈ s.job x.1.job, j.state = .Blocked ∧ j.service_removed = false

instance (s : System) (e : Event) (action : DrainAction) : Decidable (s.Granting e action) := by
  unfold Granting
  infer_instance

instance (s : System) (e : Event) : Decidable (s.GrantsBlocked e) := by
  unfold GrantsBlocked
  infer_instance

/-- Nothing is held by a job that is over. -/
structure Released (s : System) : Prop where
  sound : s.Sound
  accounted : s.Accounted
  leaseless : ∀ j ∈ s.ctl.world.jobs.rows, j.core.spent = true → j.lease = ⟨0⟩

theorem Released.step {s : System} (h : s.Released) {e : Event} (calm : s.Faultless e)
    (timely : ¬ s.GrantsBlocked e) : (s.step e).Released := by
  obtain ⟨haccounted, hleases⟩ := h.accounted.step h.sound calm
  refine ⟨h.sound.step e, haccounted, ?_⟩
  intro j' hj' hover
  rcases hleases with hinherits | ⟨action, hgranting, hgrants⟩
  · rcases hinherits j' hj' with hlease | ⟨j, hj, _, hlease, hstage⟩
    · exact hlease
    · rw [hlease]
      exact h.leaseless j hj (hstage hover).1
  · rcases hgrants.2 j' hj' with ⟨j, hj, hlease, hstage⟩ | ⟨j, hj, _, hspent⟩
    · rw [hlease]
      exact h.leaseless j hj (hstage hover).1
    · rw [hspent] at hover
      rcases Core.spent_cases hover with hterm | hblocked
      · have halive : j.core.state.is_terminal = false := hgranting.job_alive h.sound hj
        rw [halive] at hterm
        cases hterm
      · obtain ⟨x, hanswering, hsame, hrest⟩ := hgranting
        subst hsame
        exact absurd ⟨x, hanswering, ⟨x, hanswering, rfl, hrest⟩, j, hj, hblocked⟩ timely

/-- A job that is blocked with its service up holds nothing, in a run in which no drain is granted
    to such a job. -/
theorem blocked_jobs_hold_nothing (events : List Event)
    (calm : Along step Faultless initial events)
    (timely : Along step (fun s e => ¬ s.GrantsBlocked e) initial events) (id : JobId)
    (j : MaintenanceJob) (hj : (initial.run events).job id = some j) (hstate : j.state = .Blocked)
    (kept : j.service_removed = false) :
    j.authority = ⟨0⟩ ∧ j.lease = ⟨0⟩ ∧
      ∀ r ∈ (initial.run events).ctl.store.state.ledger.reservations.rows,
        ¬ (r.job = j.id ∧ r.generation = j.generation) := by
  have hboth : Along step (fun s e => s.Faultless e ∧ ¬ s.GrantsBlocked e) initial events := by
    rw [Along.iff_forall] at calm timely ⊢
    exact fun mid e rest hsplit => ⟨calm mid e rest hsplit, timely mid e rest hsplit⟩
  have hreleased : (initial.run events).Released := by
    refine hboth.invariant (fun _ _ hcond hs => hs.step hcond.1 hcond.2) ?_
    exact ⟨sound_initial, accounted_initial, fun _ hj => by cases hj⟩
  have hmem : j ∈ (initial.run events).ctl.world.jobs.rows := Table.mem_of_find hj
  have hover : j.core.spent = true := by
    show Drive.gives_back j.state j.service_removed = true
    rw [hstate, kept]
    rfl
  obtain ⟨hauthority, hnone⟩ := hreleased.accounted.finished j hmem hover
  exact ⟨hauthority, hreleased.leaseless j hmem hover, fun r hr hsame => hnone r hr hsame.1⟩

end System

namespace Drill

/-- The authority of job 1 runs out while its drain request is under way, and it is not given
    another: the health of the switch is not known any more. -/
def overtaken : List Event := requested ++ [call (.tick 1 (ms 60000))] ++ pass 1

end Drill

namespace System

theorem blocked_jobs_hold_nothing_drill :
    ∃ j, (initial.run Drill.overtaken).job ⟨1⟩ = some j ∧
      j.authority = ⟨0⟩ ∧ j.lease = ⟨0⟩ ∧
      ∀ r ∈ (initial.run Drill.overtaken).ctl.store.state.ledger.reservations.rows,
        ¬ (r.job = j.id ∧ r.generation = j.generation) := by
  obtain ⟨j, hj, hfields⟩ := job_of_field (initial.run Drill.overtaken) ⟨1⟩
    (fun j => (j.state, j.service_removed)) (a := (.Blocked, false)) (by decide +kernel)
  obtain ⟨hstate, hkept⟩ := Prod.mk.inj hfields
  exact ⟨j, hj, blocked_jobs_hold_nothing Drill.overtaken (by decide +kernel) (by decide +kernel)
    _ j hj hstate hkept⟩

/-- The drain is granted to the blocked job all the same, and nothing releases it. -/
theorem blocked_job_gets_a_lease :
    Along step Faultless initial (Drill.overtaken ++ Drill.answer 0 (Drill.grant 1 1 1)) ∧
      (initial.run (Drill.overtaken ++ Drill.answer 0 (Drill.grant 1 1 1))).pass.isNone = true ∧
      ((initial.run (Drill.overtaken ++ Drill.answer 0 (Drill.grant 1 1 1))).job ⟨1⟩).map
        (fun j => (j.state, j.service_removed, j.lease)) = some (.Blocked, false, ⟨1⟩) := by
  decide +kernel

end System

end MaintenanceFabric
