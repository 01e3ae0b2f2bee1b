import MaintenanceFabric.Guarantees.Holdings

/-! # Re-arming

    A re-arm puts a job back to the start of its life under a new generation.
    It gives back what the job holds before it asks whether the move is legal,
    and the one stage it is never legal from is the one it leads to: a job
    that waits for its prerequisites is refused, and its authority is gone.
    From every other stage that has removed no service it works.
-/

namespace MaintenanceFabric

open Lib

/-- Of the stages that have not removed service only one refuses to be re-entered. -/
theorem rearm_legal_iff {state : JobState} (fits : state.fits false = true)
    (alive : state.is_terminal = false) :
    (check_transition state (Controller.rearm_state state) false).allowed = true ↔
      state ≠ .Prerequisites := by
  revert fits alive
  cases state <;> decide

namespace Drive

/-- The ledger's own refusals count as given up, so without a fault the authority is forgotten. -/
theorem release_authority_forgets {d : Drive} (calm : d.ctl.Calm) :
    d.release_authority.job.authority = ⟨0⟩ := by
  unfold release_authority
  by_cases hvalid : d.job.authority.valid = true
  · rw [if_pos hvalid]
    simp only
    rcases Store.release_authority_calm calm d.job.authority d.ctl.incarnation with
      ⟨e, hrelease, heq⟩ | ⟨hok, _⟩
    · have hgives : Controller.gives_up (.error e) = true := by
        unfold AuthorityLedger.release at hrelease
        split at hrelease
        · cases hrelease
          rfl
        · split at hrelease
          · cases hrelease
            rfl
          · cases hrelease
      rw [heq, if_pos hgives]
    · rw [hok]
      rfl
  · rw [if_neg hvalid]
    apply StrongId.ext
    by_contra hne
    exact hvalid (StrongId.valid_iff.mpr hne)

/-- Without a fault nothing stays with the job, whatever the ledger says. -/
theorem release_resources_forgets {d : Drive} (calm : d.ctl.Calm) :
    d.release_resources_locked.job = { d.job with authority := ⟨0⟩, lease := ⟨0⟩ } := by
  obtain ⟨a, l, hjob, _⟩ := release_resources_spec d
  obtain ⟨hcore, _⟩ := release_lease_core d.release_authority
  have hauthority : a = ⟨0⟩ := by
    have ha : a = d.release_resources_locked.job.core.authority := by rw [hjob]; rfl
    rw [ha, show d.release_resources_locked.job.core = _ from hcore]
    exact release_authority_forgets calm
  have hlease : l = ⟨0⟩ := by
    have hl : l = d.release_resources_locked.job.core.lease := by rw [hjob]; rfl
    rw [hl, show d.release_resources_locked.job.core = _ from hcore]
  rw [hjob, hauthority, hlease]

end Drive

namespace Controller

/-- What a re-arm of `j` is for: the job is a generation further, holds nothing, and is back at
    the stage it starts from. -/
structure Rearmed (j : MaintenanceJob) (answer : Status × Controller) : Prop where
  ok : answer.1 = ok_status
  job : ∃ j', answer.2.store.state.jobs.find j.id = some j' ∧
    j'.generation = j.generation.next ∧ j'.active_attempt = {} ∧ j'.authority = ⟨0⟩ ∧
    j'.lease = ⟨0⟩ ∧ j'.state = if j.state = .Proposed then .Validated else .Prerequisites

/-- Jobs, ledger, leases, and the releases that are queued or deferred are as they were. -/
structure Untouched (c c' : Controller) : Prop where
  jobs : c'.store.state.jobs = c.store.state.jobs
  ledger : c'.store.state.ledger = c.store.state.ledger
  leases : c'.store.state.leases = c.store.state.leases
  queued : c'.queued_releases = c.queued_releases
  deferred : c'.deferred_releases = c.deferred_releases

theorem Untouched.refl (c : Controller) : Untouched c c := ⟨rfl, rfl, rfl, rfl, rfl⟩

variable {c : Controller} {j : MaintenanceJob} {id : JobId}

/-- Where the move is legal nothing else stands in the way: the record of the job stays within
    its bounds, so the journal takes it. -/
theorem rearm_works (calm : c.Calm) (hfind : c.store.state.jobs.find j.id = some j)
    (hrec : Recordable j) (kept : j.service_removed = false) (alive : j.is_terminal = false)
    (legal : (check_transition j.state (rearm_state j.state) false).allowed = true)
    (actor : Text) (now : Nanos) : Rearmed j (c.rearm j.id actor now) := by
  have hjob :=
    Drive.release_resources_forgets (d := { ctl := c, job := j, actions := some [] }) calm
  obtain ⟨_, _, _, _, hcalm, hworld⟩ :=
    Drive.release_resources_spec { ctl := c, job := j, actions := some [] }
  unfold rearm
  rw [hfind]
  simp only [kept, alive, Bool.false_eq_true, if_false]
  generalize Drive.release_resources_locked { ctl := c, job := j, actions := some [] } = d
    at hjob hcalm hworld ⊢
  rw [hjob]
  have hcore := c.core_reentered j actor now ⟨0⟩ ⟨0⟩
  have hvalid : j.generation.next.valid = true := by
    simp [StrongId.valid, StrongId.next]
  have hwritten : Recordable (c.reentered_job
      (rearmed_job { j with authority := ⟨0⟩, lease := ⟨0⟩ } actor now) now) := by
    obtain ⟨ha, _⟩ := recordable_bounds hrec
    refine recordable_of_le hrec rfl hvalid rfl rfl rfl rfl ?_ (length_push_history _ _)
    simpa [reentered_job, MaintenanceJob.push_history, rearmed_job, fence_attempts] using ha
  rw [if_pos (by simpa [rearmed_job] using legal)]
  generalize c.reentered_job (rearmed_job { j with authority := ⟨0⟩, lease := ⟨0⟩ } actor now) now
    = updated at hcore hwritten ⊢
  have hid : updated.id = j.id := congrArg Core.id hcore
  have hstored : d.ctl.world.jobs.find updated.id = some j := by
    rw [hid]
    rcases hworld with hw | ⟨hw, _⟩
    · rw [hw]
      exact hfind
    · rw [hw]
      exact hfind
  -- The job is still there to be replaced, and the journal takes the new version.
  have hok : (d.ctl.commit_job_locked updated now).1 = ok_status :=
    commit_job_locked_ok (hcalm calm) hstored hwritten
  rcases commit_job_locked_cases d.ctl updated now with ⟨e, he, _⟩ | ⟨_, j', hj', _, hw⟩
  · rw [hok] at he
    cases he
  · generalize d.ctl.commit_job_locked updated now = committed at hok hw ⊢
    obtain ⟨status, c'⟩ := committed
    cases hok
    have hj' : j'.core = j.core.rearm ⟨0⟩ ⟨0⟩ := hj'.trans hcore
    refine ⟨rfl, j', ?_, congrArg Core.generation hj', congrArg Core.active_attempt hj',
      congrArg Core.authority hj', congrArg Core.lease hj', congrArg Core.state hj'⟩
    have hjobs : c'.world.jobs = d.ctl.world.jobs.put j' := by rw [hw]
    show c'.world.jobs.find j.id = some j'
    rw [hjobs, show j.id = j'.id from (congrArg Core.id hj').symm]
    exact Table.find_put_self _ _

/-- What a refusal for any other reason leaves behind. -/
theorem rearm_refused_early (hearly : ∀ j, c.store.state.jobs.find id = some j →
    j.service_removed = true ∨ j.is_terminal = true) (actor : Text) (now : Nanos) :
    (c.rearm id actor now).2 = c := by
  unfold rearm
  cases hfind : c.store.state.jobs.find id with
  | none => rfl
  | some j =>
    simp only
    by_cases hremoved : j.service_removed = true
    · rw [if_pos hremoved]
    · have hterm := (hearly j hfind).resolve_left hremoved
      rw [if_neg hremoved, if_pos hterm]

/-- A job that waits for its prerequisites is refused, after its resources have been given back. -/
theorem rearm_refused_late (hfind : c.store.state.jobs.find id = some j)
    (kept : j.service_removed = false) (hstate : j.state = .Prerequisites) (actor : Text)
    (now : Nanos) : c.rearm id actor now =
      (.error (make_error .StateConflict (text "no-op transition")),
        (Drive.release_resources_locked { ctl := c, job := j, actions := some [] }).ctl) := by
  obtain ⟨a, l, hjob, _⟩ :=
    Drive.release_resources_spec { ctl := c, job := j, actions := some [] }
  have halive : j.is_terminal = false := by
    simp [MaintenanceJob.is_terminal, hstate, JobState.is_terminal]
  unfold rearm
  rw [hfind]
  simp only [kept, halive, Bool.false_eq_true, if_false, hjob]
  simp [rearmed_job, rearm_state, hstate, check_transition]

end Controller

namespace System

/-- A re-arm does what it is for, and a refused one nothing, exactly for the jobs that do not wait
    for their prerequisites. -/
theorem rearm_works_iff (events : List Event) (id : JobId) (actor : Text) (now : Nanos) :
    let c := under (initial.run events).ctl []
    ((∀ j, c.store.state.jobs.find id = some j → j.is_terminal = false →
        j.service_removed = false → Controller.Rearmed j (c.rearm id actor now)) ∧
      (∀ e, (c.rearm id actor now).1 = .error e → c.Untouched (c.rearm id actor now).2)) ↔
    ∀ j, c.store.state.jobs.find id = some j → j.state ≠ .Prerequisites := by
  intro c
  have calm : c.Calm := rfl
  have hsound : ∀ j, c.store.state.jobs.find id = some j →
      j.state.fits j.service_removed = true ∧ Recordable j ∧ j.id = id := by
    intro j hj
    obtain ⟨hcore, hrec⟩ := (sound_run events).world.jobs j (Table.mem_of_find hj)
    exact ⟨hcore.fits, hrec, Table.key_of_find hj⟩
  constructor
  · intro ⟨hworks, _⟩ j hj hstate
    obtain ⟨hfits, _, _⟩ := hsound j hj
    have hkept : j.service_removed = false := by
      rw [hstate] at hfits
      simpa [JobState.fits] using hfits
    have halive : j.is_terminal = false := by
      simp [MaintenanceJob.is_terminal, hstate, JobState.is_terminal]
    have hok := (hworks j hj halive hkept).ok
    rw [Controller.rearm_refused_late hj hkept hstate] at hok
    cases hok
  · intro hstate
    -- A job that may be re-armed is re-armed, so an error comes before anything is given back.
    have hworks : ∀ j, c.store.state.jobs.find id = some j → j.is_terminal = false →
        j.service_removed = false → Controller.Rearmed j (c.rearm id actor now) := by
      intro j hj halive hkept
      obtain ⟨hfits, hrec, rfl⟩ := hsound j hj
      rw [hkept] at hfits
      exact Controller.rearm_works calm hj hrec hkept halive
        ((rearm_legal_iff hfits halive).mpr (hstate j hj)) actor now
    refine ⟨hworks, ?_⟩
    intro e he
    have hearly : ∀ j, c.store.state.jobs.find id = some j →
        j.service_removed = true ∨ j.is_terminal = true := by
      intro j hj
      by_contra hmay
      simp only [not_or, Bool.not_eq_true] at hmay
      have hok := (hworks j hj hmay.2 hmay.1).ok
      rw [he] at hok
      cases hok
    rw [Controller.rearm_refused_early hearly]
    exact .refl c

/-- While the drain of job 1 is asked for, its re-arm is refused and its reservation is gone. The
    job still names it. -/
theorem rearm_of_waiting_job_drops_authority :
    let c := under (initial.run Drill.requested).ctl []
    let answer := c.rearm ⟨1⟩ (text "operator") (Drill.ms 110)
    (c.store.state.jobs.find ⟨1⟩).map (fun j => (j.state, j.service_removed, j.authority)) =
        some (.Prerequisites, false, ⟨1⟩) ∧
      answer.1 = .error (make_error .StateConflict (text "no-op transition")) ∧
      c.store.state.ledger.reservations.rows.map (fun r => r.id) = [⟨1⟩] ∧
      answer.2.store.state.ledger.reservations.rows = [] ∧
      (answer.2.store.state.jobs.find ⟨1⟩).map (fun j => j.authority) = some ⟨1⟩ := by
  decide +kernel

end System

end MaintenanceFabric
