import MaintenanceFabric.Runtime.Edits

/-! # Effects of the controller's building blocks

    What committing, transitions, releases, evidence writes and attempt
    minting do, in the vocabulary of edits and changes.  Each building block
    gets one specification, and the drive functions and calls use nothing else.
-/

namespace MaintenanceFabric

open Lib

/-! ## Cores -/

@[simp] theorem core_clipped_job (j : MaintenanceJob) : (clipped_job j).core = j.core := by
  simp [MaintenanceJob.core, clipped_job, Function.comp_def, recorded_entry,
    HistoryEntry.transition]

theorem core_push_history (j : MaintenanceJob) (e : HistoryEntry) :
    (j.push_history e).core =
      let trail := j.core.trail ++ [e.transition]
      let excess := trail.length - limits.kMaxJobHistoryEntries
      { j.core with trail := trail.drop excess, dropped := j.core.dropped + excess } := by
  simp [MaintenanceJob.core, MaintenanceJob.push_history, List.map_drop]

/-- Entering a state moves the core, except that the attempt is closed separately. -/
theorem core_entered (j : MaintenanceJob) (to_state : JobState) (reason : BlockReason)
    (detail : Text) (now : Nanos) (by_ : ControllerIncarnation) :
    (Drive.entered j to_state reason detail now by_).core =
      { j.core.move to_state with active_attempt := j.active_attempt } := by
  cases to_state <;>
    simp [Drive.entered, MaintenanceJob.core, MaintenanceJob.push_history, Core.move, List.map_drop,
      HistoryEntry.transition]

theorem core_resources (j : MaintenanceJob) (authority : AuthorityId) (lease : DrainLeaseId) :
    ({ j with authority, lease } : MaintenanceJob).core = { j.core with authority, lease } := rfl

@[simp] theorem core_closed (j : MaintenanceJob) (to_state : JobState) (now : Nanos) :
    (Drive.closed j to_state now).core = { j.core with active_attempt := {} } := rfl

@[simp] theorem core_new_attempt_locked (c : Controller) (j : MaintenanceJob) (now : Nanos) :
    (c.new_attempt_locked j now).core = j.core.mint := rfl

theorem core_with_attempt (c : Controller) (j : MaintenanceJob) (now : Nanos) :
    (Drive.with_attempt c j now).core = j.core.with_attempt := by
  unfold Drive.with_attempt Core.with_attempt
  by_cases h : j.active_attempt.valid
  · rw [if_pos h, if_pos (show j.core.active_attempt.valid = true from h)]
  · rw [if_neg h, if_neg (show ¬ j.core.active_attempt.valid = true from h)]
    rfl

/-! ## Records that decode -/

/-- What of a job decides whether its record decodes. -/
theorem recordable_of_le {j j' : MaintenanceJob} (h : Recordable j) (hid : j'.id = j.id)
    (hgen : j'.generation.valid = true) (ht : j'.targets = j.targets)
    (hr : j'.removal_set = j.removal_set) (hd : j'.depends_on = j.depends_on)
    (hw : j'.window_filter = j.window_filter)
    (ha : j'.attempts.length ≤ limits.kMaxAttemptsPerJob)
    (hh : j'.history.length ≤ limits.kMaxJobHistoryEntries) : Recordable j' := by
  unfold Recordable at h ⊢
  simp only [check_job_record, Result.bind_eq_ok, refuse_if_eq_ok] at h ⊢
  obtain ⟨_, h1, _, h2, _, h3, _, h4, _, h5, _, h6, h7⟩ := h
  refine ⟨(), ht ▸ h1, (), hr ▸ h2, (), hd ▸ h3, (), hw ▸ h4, (), ?_, (), ?_, ?_⟩
  · simpa using ha
  · simpa using hh
  · simp only [Bool.or_eq_false_iff, Bool.not_eq_false'] at h7 ⊢
    exact ⟨hid ▸ h7.1, hgen⟩

theorem recordable_bounds {j : MaintenanceJob} (h : Recordable j) :
    j.attempts.length ≤ limits.kMaxAttemptsPerJob ∧
      j.history.length ≤ limits.kMaxJobHistoryEntries := by
  unfold Recordable at h
  simp only [check_job_record, Result.bind_eq_ok, refuse_if_eq_ok] at h
  obtain ⟨_, _, _, _, _, _, _, _, _, h5, _, h6, _⟩ := h
  simpa using And.intro h5 h6

/-- History is cut to its bound whenever an entry is pushed. -/
theorem length_push_history (j : MaintenanceJob) (e : HistoryEntry) :
    (j.push_history e).history.length ≤ limits.kMaxJobHistoryEntries := by
  simp only [MaintenanceJob.push_history, List.length_drop, List.length_append, List.length_cons,
    List.length_nil]
  omega

theorem length_entered (j : MaintenanceJob) (to_state : JobState) (reason : BlockReason)
    (detail : Text) (now : Nanos) (by_ : ControllerIncarnation) :
    (Drive.entered j to_state reason detail now by_).history.length ≤
      limits.kMaxJobHistoryEntries := by
  cases to_state <;> simp only [Drive.entered, length_push_history]

theorem recordable_entered {j : MaintenanceJob} (h : Recordable j) (to_state : JobState)
    (reason : BlockReason) (detail : Text) (now : Nanos) (by_ : ControllerIncarnation) :
    Recordable (Drive.entered j to_state reason detail now by_) := by
  have hgen := (check_job_record_valid h).2
  have ha := (recordable_bounds h).1
  have hh := length_entered j to_state reason detail now by_
  cases to_state <;> exact recordable_of_le h rfl hgen rfl rfl rfl rfl ha hh

theorem recordable_closed {j : MaintenanceJob} (h : Recordable j) (to_state : JobState)
    (now : Nanos) : Recordable (Drive.closed j to_state now) := by
  obtain ⟨ha, hh⟩ := recordable_bounds h
  exact recordable_of_le h rfl (check_job_record_valid h).2 rfl rfl rfl rfl
    (by simpa [Drive.closed] using ha) hh

theorem recordable_resources {j : MaintenanceJob} (h : Recordable j) (authority : AuthorityId)
    (lease : DrainLeaseId) : Recordable { j with authority, lease } := by
  obtain ⟨ha, hh⟩ := recordable_bounds h
  exact recordable_of_le h rfl (check_job_record_valid h).2 rfl rfl rfl rfl ha hh

/-! ## Worlds -/

namespace Controller

theorem world_of_books {c : Controller} {s : Store} (h : s.books = c.store.books) :
    ({ c with store := s } : Controller).world = c.world := by
  simp [world, h]

/-- The journal accepts whatever this step still writes. -/
def Calm (c : Controller) : Prop := c.store.verdicts = []

/-- A stretch of a step that edits no job. -/
structure Quietly (L : License) (c c' : Controller) : Prop where
  changes : Changes L c.world c'.world
  jobs : c'.world.jobs = c.world.jobs
  calm : c.Calm → c'.Calm

namespace Quietly

variable {L : License} {c c' c'' : Controller}

theorem refl (c : Controller) : Quietly L c c := ⟨Changes.refl _, rfl, id⟩

theorem trans (h : Quietly L c c') (h' : Quietly L c' c'') : Quietly L c c'' :=
  ⟨h.changes.trans h'.changes, h'.jobs.trans h.jobs, fun hc => h'.calm (h.calm hc)⟩

theorem of_world_eq (h : c'.world = c.world) (hc : c.Calm → c'.Calm) : Quietly L c c' :=
  ⟨Changes.of_eq h, by rw [h], hc⟩

/-- A loop of quiet bodies is quiet. -/
theorem foldl {α : Type} {f : Controller → α → Controller} (h : ∀ c a, Quietly L c (f c a)) :
    ∀ (l : List α) (c : Controller), Quietly L c (l.foldl f c)
  | [], c => refl c
  | a :: l, c => (h c a).trans (foldl h l (f c a))

end Quietly

/-! ## Evidence -/

/-- A write of the controller's own is one change, whatever the store answers. -/
theorem quietly_author_evidence {L : License} (c : Controller) (kind : EvidenceKind)
    (target : TargetId) (source : SourceId) (now : Nanos) (payload : EvidencePayload) (job : JobId)
    (attempt : AttemptId)
    (licensed : ∀ r : EvidenceRecord, r.key = ⟨kind, EvidenceSubject.of target, source⟩ →
      r.job = job → r.attempt = attempt → r.payload = payload → L.writes r) :
    Quietly L c (c.author_evidence kind target source now payload job attempt).2 := by
  unfold author_evidence
  simp only
  generalize hm : c.make_evidence_locked kind (EvidenceSubject.of target) source now
    (c.policy.ttl_for kind) payload job attempt = made
  obtain ⟨r, c₁⟩ := made
  simp only [make_evidence_locked, Prod.mk.injEq] at hm
  obtain ⟨hr, hc⟩ := hm
  -- The record is numbered before it is handed to the store, whatever the store makes of it.
  have hrev : r.revision = ⟨c.world.counter + 1⟩ := by rw [← hr]; rfl
  have hlic : L.writes r := licensed r (by rw [← hr]) (by rw [← hr]) (by rw [← hr]) (by rw [← hr])
  have hbooks : c₁.store.books = c.store.books := by rw [← hc]; rfl
  have hcounter : c₁.evidence_revision = c.evidence_revision + 1 := by rw [← hc]
  have hinc : c₁.incarnation = c.incarnation := by rw [← hc]
  have hwritten : c₁.written = c.written := by rw [← hc]
  have hcalm : c.Calm → c₁.Calm := by rw [← hc]; exact id
  unfold write_evidence_locked
  refine ⟨?_, ?_, fun h => Store.verdicts_observe_evidence (hcalm h) r⟩
  · rcases Store.observe_evidence_cases c₁.store r with ⟨e, he, hb, hstale⟩ | ⟨staging, ho, he, hb⟩
    · have hans : Answer c.world.evidence r (.error e) c.world.evidence := by
        refine .refused ?_
        rw [hbooks] at hstale
        exact hstale
      have hstep := Change.authored hrev hlic hans
      refine Changes.single ?_
      convert hstep using 1
      simp [world, hb, hbooks, he, hinc, hcounter, hwritten]
    · have hans : Answer c.world.evidence r ok_status staging := by
        refine .accepted ?_
        rw [hbooks] at ho
        exact ho
      have hstep := Change.authored hrev hlic hans
      refine Changes.single ?_
      convert hstep using 1
      simp [world, hb, hbooks, he, hinc, hcounter, hwritten]
  · rcases Store.observe_evidence_cases c₁.store r with ⟨e, he, hb, hstale⟩ | ⟨staging, ho, he, hb⟩
    · simp [world, hb, hbooks]
    · simp [world, hb, hbooks]

/-! ## Job commits -/

/-- A commit installs a job with the given core, or changes nothing. -/
theorem commit_job_locked_cases (c : Controller) (job : MaintenanceJob) (now : Nanos) :
    (∃ e, (c.commit_job_locked job now).1 = .error e ∧
      (c.commit_job_locked job now).2.world = c.world) ∨
    (c.commit_job_locked job now).1 = ok_status ∧
      ∃ j', j'.core = job.core ∧ Recordable j' ∧
        (c.commit_job_locked job now).2.world = { c.world with jobs := c.world.jobs.put j' } := by
  unfold commit_job_locked
  split
  · exact .inl ⟨_, rfl, rfl⟩
  · next current hfind =>
    simp only
    rcases Store.commit_job_cases c.store (revised job current.revision.next now) with
      ⟨e, he, hb⟩ | ⟨hok, hrec, hb⟩
    · exact .inl ⟨e, he, world_of_books hb⟩
    · refine .inr ⟨hok, clipped_job (revised job current.revision.next now),
        core_clipped_job _, ?_, ?_⟩
      · unfold Recordable
        rw [check_job_record_clipped]
        exact hrec
      · simp [world, hb]

theorem commit_job_locked_ok {c : Controller} {job stored : MaintenanceJob} {now : Nanos}
    (hc : c.Calm) (hfind : c.world.jobs.find job.id = some stored) (hrec : Recordable job) :
    (c.commit_job_locked job now).1 = ok_status := by
  unfold commit_job_locked JobTable.find
  rw [show c.store.state.jobs.jobs.find job.id = some stored from hfind]
  exact Store.commit_job_ok hc hfind rfl hrec

/-- Committing a licensed edit of a stored job. -/
theorem changes_commit {L : License} {c : Controller} {j job : MaintenanceJob} {k : EditKind}
    {now : Nanos} (stored : c.world.jobs.find j.id = some j) (edit : Edit k j.core job.core)
    (licensed : L.edits j.id k)
    (authority : job.authority = j.authority ∨ job.authority = ⟨0⟩ ∨
      ∃ r ∈ c.world.ledger.reservations.rows, r.id = job.authority ∧ r.job = j.id) :
    Changes L c.world (c.commit_job_locked job now).2.world := by
  rcases commit_job_locked_cases c job now with ⟨e, _, hw⟩ | ⟨_, j', hcore, hrec, hw⟩
  · exact Changes.of_eq hw
  · have ha : j'.authority = job.authority := congrArg Core.authority hcore
    rw [hw]
    refine Changes.single (.edited stored (hcore ▸ edit) licensed ?_ hrec)
    rw [ha]
    exact authority

end Controller

/-! ## Releases and transitions -/

namespace Drive

/-- Releasing changes the two resource fields of the job and at most its own ledger row. -/
theorem release_resources_spec (d : Drive) :
    ∃ a l, d.release_resources_locked.job = { d.job with authority := a, lease := l } ∧
      (a = d.job.authority ∨ a = ⟨0⟩) ∧
      (d.ctl.Calm → d.release_resources_locked.ctl.Calm) ∧
      (d.release_resources_locked.ctl.world = d.ctl.world ∨
        d.release_resources_locked.ctl.world =
          { d.ctl.world with ledger := d.ctl.world.ledger.without d.job.authority } ∧
          d.job.authority.valid = true) := by
  -- The lease is given back in the copy of the job alone; the store is not touched.
  have hlease : ∀ e : Drive, ∃ l, e.release_lease.job = { e.job with lease := l } ∧
      e.release_lease.ctl = e.ctl := by
    intro e
    unfold release_lease
    split
    · exact ⟨⟨0⟩, rfl, rfl⟩
    · exact ⟨e.job.lease, rfl, rfl⟩
  obtain ⟨l, hjob, hctl⟩ := hlease d.release_authority
  unfold release_resources_locked
  rw [hjob, hctl]
  unfold release_authority
  split
  · next hvalid =>
    simp only
    generalize hr : d.ctl.store.release_authority d.job.authority d.ctl.incarnation = released
    have hb := Store.release_authority_books d.ctl.store d.job.authority d.ctl.incarnation
    have hc : d.ctl.Calm → released.2.verdicts = [] := by
      intro h
      rw [← hr]
      exact Store.verdicts_release_authority h _ _
    rw [hr] at hb
    have hw : ({ d.ctl with store := released.2 } : Controller).world = d.ctl.world ∨
        ({ d.ctl with store := released.2 } : Controller).world =
          { d.ctl.world with ledger := d.ctl.world.ledger.without d.job.authority } ∧
          d.job.authority.valid = true := by
      rcases hb with hb | hb
      · exact .inl (Controller.world_of_books hb)
      · exact .inr ⟨by simp [Controller.world, hb, AuthorityLedger.without], hvalid⟩
    split
    · exact ⟨⟨0⟩, l, rfl, .inr rfl, hc, hw⟩
    · exact ⟨d.job.authority, l, rfl, .inl rfl, hc, hw⟩
  · exact ⟨d.job.authority, l, rfl, .inl rfl, id, .inl rfl⟩

/-- What a successful transition has done. -/
structure Moved (d : Drive) (to_state : JobState) (d' : Drive) : Prop where
  core : ∃ a l, d'.job.core = { d.job.core.move to_state with authority := a, lease := l } ∧
    (a = d.job.authority ∨ a = ⟨0⟩)
  calm : d.ctl.Calm → d'.ctl.Calm
  recordable : Recordable d.job → Recordable d'.job
  world : d'.ctl.world = d.ctl.world ∨
    d'.ctl.world = { d.ctl.world with ledger := d.ctl.world.ledger.without d.job.authority } ∧
      gives_back to_state d.job.service_removed = true ∧ d.job.authority.valid = true

/-- Service removed by the transition itself plays no part in what it gives back. -/
theorem gives_back_entered (j : MaintenanceJob) (to_state : JobState) (reason : BlockReason)
    (detail : Text) (now : Nanos) (by_ : ControllerIncarnation) :
    gives_back to_state (entered j to_state reason detail now by_).service_removed =
      gives_back to_state j.service_removed := by
  cases to_state <;> simp [gives_back, entered, MaintenanceJob.push_history]

theorem entered_authority (j : MaintenanceJob) (to_state : JobState) (reason : BlockReason)
    (detail : Text) (now : Nanos) (by_ : ControllerIncarnation) :
    (entered j to_state reason detail now by_).authority = j.authority :=
  congrArg Core.authority (core_entered j to_state reason detail now by_)

/-- The state change and the release, before the attempt is closed. -/
theorem freed_spec (d : Drive) (to_state : JobState) (reason : BlockReason) (detail : Text)
    (now : Nanos) :
    let job := entered d.job to_state reason detail now d.ctl.incarnation
    let freed := if gives_back to_state job.service_removed
      then { d with job }.release_resources_locked else { d with job }
    ∃ a l, freed.job = { job with authority := a, lease := l } ∧
      (a = d.job.authority ∨ a = ⟨0⟩) ∧ (d.ctl.Calm → freed.ctl.Calm) ∧
      (freed.ctl.world = d.ctl.world ∨
        freed.ctl.world =
          { d.ctl.world with ledger := d.ctl.world.ledger.without d.job.authority } ∧
          gives_back to_state job.service_removed = true ∧ d.job.authority.valid = true) := by
  intro job freed
  have hauth : job.authority = d.job.authority := entered_authority _ _ _ _ _ _
  by_cases hg : gives_back to_state job.service_removed = true
  · have hfreed : freed = { d with job }.release_resources_locked := if_pos hg
    obtain ⟨a, l, hjob, ha, hc, hw⟩ := release_resources_spec { d with job }
    rw [hauth] at ha hw
    rw [hfreed]
    exact ⟨a, l, hjob, ha, hc, hw.imp_right (fun h => ⟨h.1, hg, h.2⟩)⟩
  · have hfreed : freed = { d with job } := if_neg hg
    rw [hfreed]
    exact ⟨job.authority, job.lease, rfl, .inl hauth, id, .inl rfl⟩

/-- A transition is refused and changes nothing, or it is legal and moves the job. -/
theorem transition_cases (d : Drive) (to_state : JobState) (reason : BlockReason) (detail : Text)
    (now : Nanos) :
    d.transition_locked to_state reason detail now = (false, d) ∨
    (check_transition d.job.state to_state d.job.service_removed).allowed = true ∧
      (d.transition_locked to_state reason detail now).1 = true ∧
      Moved d to_state (d.transition_locked to_state reason detail now).2 := by
  unfold transition_locked
  by_cases hallowed : (check_transition d.job.state to_state d.job.service_removed).allowed = true
  · rw [if_pos hallowed]
    refine .inr ⟨hallowed, rfl, ?_⟩
    obtain ⟨a, l, hjob, ha, hc, hw⟩ := freed_spec d to_state reason detail now
    simp only
    generalize (if gives_back to_state _ = true then _ else _ : Drive) = freed at hjob hc hw ⊢
    have hcore := core_entered d.job to_state reason detail now d.ctl.incarnation
    have hrec : Recordable d.job → Recordable freed.job := by
      intro h
      have hent := recordable_entered h to_state reason detail now d.ctl.incarnation
      generalize entered d.job to_state reason detail now d.ctl.incarnation = job at hent hjob
      rw [hjob]
      exact recordable_resources hent a l
    have hfreed : freed.job.core = { d.job.core.move to_state with
        active_attempt := d.job.active_attempt, authority := a, lease := l } := by
      rw [hjob, core_resources, hcore]
    rw [gives_back_entered] at hw
    -- A job that is closed loses its attempt, as the move in its core does.
    by_cases hterm : to_state.is_terminal = true
    · rw [if_pos hterm]
      refine ⟨⟨a, l, ?_, ha⟩, hc, fun h => recordable_closed (hrec h) to_state now, hw⟩
      simp only [core_closed, hfreed, Core.move, if_pos hterm]
    · rw [if_neg hterm]
      refine ⟨⟨a, l, ?_, ha⟩, hc, hrec, hw⟩
      simp only [hfreed, Core.move, if_neg hterm]
      rfl
  · rw [if_neg hallowed]
    exact .inl rfl

end Drive

end MaintenanceFabric
