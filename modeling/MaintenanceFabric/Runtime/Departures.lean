import MaintenanceFabric.Runtime.Steps

/-! # How a job gets further

    Most of what a step does leaves a job that has not been validated where it
    is: it is withdrawn, reconciled or touched.  It gets further by its own
    drive, its approval or its re-arm, and by nothing else.
-/

namespace MaintenanceFabric

open Lib

/-- The edits that are made to a job without a drive, an approval or a re-arm of it, and without an
    answer of the drain port to its attempt. -/
def EditKind.aside (k : EditKind) : Prop := k = .touched ∨ k = .moved .Cancelled ∨ k = .reconciled

/-- A kind of jobs that new jobs belong to, and that asides do not lead out of. -/
structure Abiding (Q : Core → Prop) : Prop where
  fresh : ∀ {c : Core}, c.Fresh → Q c
  aside : ∀ {k : EditKind} {c c' : Core}, Edit k c c' → k.aside → Q c → Q c'
  /-- Only jobs that wait for authority are denied it. -/
  undenied : ∀ {c : Core}, Q c → c.state ≠ .Prerequisites
  /-- Only jobs with an attempt are answered by the drain port. -/
  idle : ∀ {c : Core}, Q c → c.active_attempt.valid = false

variable {Q : Core → Prop}

theorem Changes.abide {L : License} {w w' : World} {id : JobId}
    (h : Changes L w w') (hQ : Abiding Q)
    (hlicensed : ∀ k, L.edits id k → k.aside)
    (hw : ∀ j, w.jobs.find id = some j → Q j.core) {j' : MaintenanceJob}
    (hj' : w'.jobs.find id = some j') : Q j'.core := by
  refine h.preserves (P := fun w => ∀ j, w.jobs.find id = some j → Q j.core) ?_ hw j' hj'
  intro a b ha hstep x hx
  rcases hstep.job_cases id with hsame | ⟨m, m', k, hm, hm', edit, licensed⟩ | ⟨_, m', hm', hfresh⟩
  · exact ha x (hsame ▸ hx)
  · cases Option.some.inj (hx.symm.trans hm')
    exact hQ.aside edit (hlicensed k licensed) (ha m hm)
  · cases Option.some.inj (hx.symm.trans hm')
    exact hQ.fresh hfresh

/-! ## Calls -/

namespace Controller

variable {c : Controller} {job id : JobId} {actor : Text}

/-- A commit stores the job it is given under its next revision, or fails and stores nothing. -/
theorem commit_stores (c : Controller) (job : MaintenanceJob) (now : Nanos) :
    (c.commit_job_locked job now).2.world.jobs = c.world.jobs ∨
      Status.isOk (c.commit_job_locked job now).1 = true ∧ ∃ revision,
        (c.commit_job_locked job now).2.world.jobs =
          c.world.jobs.put (clipped_job (revised job revision now)) := by
  unfold commit_job_locked
  split
  · exact .inl rfl
  · next current _ =>
    simp only
    rcases Store.commit_job_cases c.store (revised job current.revision.next now) with
      ⟨_, _, hb⟩ | ⟨hok, _, hb⟩
    · exact .inl (congrArg (fun b => b.jobs) hb)
    · exact .inr ⟨by rw [hok]; rfl, current.revision.next, congrArg (fun b => b.jobs) hb⟩

theorem commit_puts (c : Controller) (job : MaintenanceJob) (now : Nanos) :
    (c.commit_job_locked job now).2.world.jobs = c.world.jobs ∨
      Status.isOk (c.commit_job_locked job now).1 = true ∧
        ∃ j', j'.core = job.core ∧ j'.approved = job.approved ∧
          (c.commit_job_locked job now).2.world.jobs = c.world.jobs.put j' := by
  rcases c.commit_stores job now with hkept | ⟨hok, revision, hput⟩
  · exact .inl hkept
  · exact .inr ⟨hok, clipped_job (revised job revision now), core_clipped_job _, rfl, hput⟩

/-- An approval commits one version of its job. -/
theorem approve_commits (c : Controller) (job : JobId) (actor : Text) (entry_at commit_at : Nanos) :
    (c.approve job actor entry_at commit_at).2.world.jobs = c.world.jobs ∨
      Status.isOk (c.approve job actor entry_at commit_at).1 = true ∧
        ∃ j j', c.world.jobs.find job = some j ∧ j.state = .Proposed ∧
          j'.core = j.core.move .Validated ∧ j'.approved = true ∧
          (c.approve job actor entry_at commit_at).2.world.jobs = c.world.jobs.put j' := by
  unfold approve
  split
  · exact .inl rfl
  · next j hfind =>
    split
    · exact .inl rfl
    · next hstate =>
      have hproposed : j.state = .Proposed := not_not.mp hstate
      rcases c.commit_puts (c.approved_job j actor entry_at) commit_at with
        hjobs | ⟨hok, j', hcore, happroved, hjobs⟩
      · exact .inl hjobs
      · exact .inr ⟨hok, j, j', hfind, hproposed,
          hcore.trans (core_approved c actor entry_at hproposed), happroved, hjobs⟩

/-- A re-arm commits one version of its job. -/
theorem rearm_commits (c : Controller) (job : JobId) (actor : Text) (now : Nanos) :
    (c.rearm job actor now).2.world.jobs = c.world.jobs ∨
      ∃ j j' a l, c.world.jobs.find job = some j ∧ j.state.is_terminal = false ∧
        j'.core = j.core.rearm a l ∧ (c.rearm job actor now).2.world.jobs =
          c.world.jobs.put j' := by
  unfold rearm
  split
  · exact .inl rfl
  · next j hfind =>
    split
    · exact .inl rfl
    · split
      · exact .inl rfl
      · next halive =>
        obtain ⟨a, l, hjob, _, _, hworld⟩ :=
          Drive.release_resources_spec { ctl := c, job := j, actions := some [] }
        simp only
        generalize Drive.release_resources_locked { ctl := c, job := j, actions := some [] } = d
          at hjob hworld ⊢
        -- The release may reach the ledger, never the jobs.
        have hjobs : d.ctl.world.jobs = c.world.jobs := by
          rcases hworld with hw | ⟨hw, _⟩
          · rw [hw]
          · rw [hw]
        rw [hjob]
        have hcore := c.core_reentered j actor now a l
        split
        · rcases commit_job_locked_cases d.ctl
            (c.reentered_job
              (rearmed_job { j with authority := a, lease := l } actor now) now) now with
            ⟨e, he, hw⟩ | ⟨hok, j', hj', _, hw⟩
          · left
            split
            · next heq =>
              rw [heq] at hw
              exact (congrArg (fun w => w.jobs) hw).trans hjobs
            · next heq =>
              rw [heq] at hw
              exact (congrArg (fun w => w.jobs) hw).trans hjobs
          · right
            refine ⟨j, j', a, l, hfind, Bool.eq_false_iff.mpr halive, hj'.trans hcore, ?_⟩
            rw [← hjobs]
            split
            · next heq =>
              rw [heq] at hw
              exact congrArg (fun w => w.jobs) hw
            · next heq =>
              rw [heq] at hw
              exact congrArg (fun w => w.jobs) hw
        · exact .inl hjobs

/-- A license of the calls that neither approve nor re-arm. -/
def aside_license : License where
  edits _ k := k.aside
  writes _ := True
  observes _ := True
  expires _ := True
  restarts := True
  faulty := True

/-- A call takes a job out of its kind only if it approves or re-arms it. -/
theorem call_abides {c' : Controller} {label : Label} (hcall : c.call label = some c')
    (halive : ∀ i j, c.world.jobs.find i = some j → j.active_attempt.valid = true →
      j.state.is_terminal = false)
    (hQ : Abiding Q) (happrove : ∀ actor entry_at commit_at,
      label ≠ .approve id actor entry_at commit_at)
    (hrearm : ∀ actor clock, label ≠ .rearm id actor clock)
    (hstored : ∀ j, c.world.jobs.find id = some j → Q j.core) {j' : MaintenanceJob}
    (hj' : c'.world.jobs.find id = some j') : Q j'.core := by
  have haside : Changes aside_license c.world c'.world → Q j'.core :=
    fun h => h.abide hQ (fun _ hk => hk) hstored hj'
  have hsame : c'.world.jobs.find id = c.world.jobs.find id → Q j'.core :=
    fun h => hstored j' (h ▸ hj')
  unfold call at hcall
  -- The cases are the calls in the order of `call`; two of them take a job out of its kind.
  split at hcall
  case h_1 => cases hcall; exact haside (Changes.of_eq (world_set_topology _ _))
  case h_2 => cases hcall; exact haside (Changes.of_eq (world_set_policy _ _))
  case h_3 => cases hcall; exact haside (changes_propose _ _ _ _)
  case h_4 job actor entry_at commit_at =>
    cases hcall
    have hid : job ≠ id := by
      rintro rfl
      exact happrove _ _ _ rfl
    rcases c.approve_commits job actor entry_at commit_at with
      hjobs | ⟨_, j, x, hj, _, hcore, _, hjobs⟩
    · exact hsame (by rw [hjobs])
    · refine hsame ?_
      rw [hjobs]
      have hkey : x.id = job :=
        (congrArg Core.id hcore).trans (Table.key_of_find hj : j.id = job)
      exact Table.find_put_of_ne _ (hkey ▸ hid)
  case h_5 job actor clock =>
    cases hcall
    have hid : job ≠ id := by
      rintro rfl
      exact hrearm _ _ rfl
    rcases c.rearm_commits job actor clock with hjobs | ⟨j, x, a, l, hj, _, hcore, hjobs⟩
    · exact hsame (by rw [hjobs])
    · refine hsame ?_
      rw [hjobs]
      have hkey : x.id = job :=
        (congrArg Core.id hcore).trans (Table.key_of_find hj : j.id = job)
      exact Table.find_put_of_ne _ (hkey ▸ hid)
  case h_6 => cases hcall; exact haside (changes_cancel _ _ _ _ _ (fun _ => .inr (.inl rfl)))
  case h_7 => cases hcall; exact haside (changes_observe _ _ (fun _ _ _ _ _ => trivial))
  case h_8 =>
    cases hcall
    exact haside (changes_report_completion _ _ _ _ _ _ (fun _ => .inl rfl)
      (fun _ _ _ _ => trivial))
  case h_9 job attempt target restored detail clock =>
    cases hcall
    exact haside (changes_report_restoration _ _ _ _ _ _ _ (fun _ => .inl rfl)
      (fun _ _ _ _ _ _ => trivial) (fun j hj hvalid => halive job j hj hvalid))
  case h_10 => cases hcall; exact haside (Changes.of_eq (world_clear_quarantine _ _ _ _ _))
  case h_11 => cases hcall

end Controller

/-! ## Steps -/

namespace System

variable {s : System} {e : Event} {id : JobId} {j' : MaintenanceJob}

/-- A call that may take the job further: its approval or its re-arm. -/
def Calls (s : System) (e : Event) (id : JobId) (ctl : Controller) : Prop :=
  s.up = true ∧ s.pass = none ∧ (under s.ctl e.verdicts).call e.label = some ctl ∧
    ((∃ actor entry_at commit_at, e.label = .approve id actor entry_at commit_at) ∨
      ∃ actor clock, e.label = .rearm id actor clock)

/-- A step keeps a job of an abiding kind in it, or drives, approves or re-arms it. -/
theorem Sound.abides (h : s.Sound) (hQ : Abiding Q) (hstored : ∀ j, s.job id = some j → Q j.core)
    (hj' : (s.step e).job id = some j') :
    Q j'.core ∨
    (∃ p x, s.driving e = some (p, x) ∧ x.id = id ∧ s.up = true) ∨
    ∃ ctl, s.Calls e id ctl ∧ (s.step e).ctl = ctl := by
  have hjobs : ∀ j, (under s.ctl e.verdicts).world.jobs.find id = some j → Q j.core := hstored
  have hchanges := changes_step h e
  have haside : (∀ k, (s.license e).edits id k → k.aside) → Q j'.core :=
    fun hlicensed => hchanges.abide hQ hlicensed hstored hj'
  have hsame : (s.step e).job id = s.job id → Q j'.core := fun heq => hstored j' (heq ▸ hj')
  have hdid := s.step_did e
  generalize s.step e = s' at hdid hj' hsame haside hchanges
  clear hchanges
  cases hdid with
  | nothing => exact .inl (hsame rfl)
  | restarted label =>
    refine .inl (haside ?_)
    unfold license
    rw [label]
    exact fun _ hk => .inr (.inr hk)
  | @drove p driven rest label up pass remaining =>
    cases hfind : s.job driven with
    | none =>
      -- Nothing is driven.
      refine .inl (haside ?_)
      unfold license
      simp only [label, pass, remaining]
      rintro k ⟨_, x, hx, _⟩
      have hx : s.job driven = some x := hx
      rw [hfind] at hx
      cases hx
    | some x =>
      have hkey : x.id = driven := Table.key_of_find hfind
      by_cases hid : driven = id
      · exact .inr (.inl ⟨p, x, driving_eq label pass remaining hfind, hkey.trans hid, up⟩)
      · refine .inl (haside ?_)
        unfold license
        simp only [label, pass, remaining]
        intro k hk
        exact absurd hk.1.symm hid
  | closed label up pass remaining =>
    refine .inl (haside ?_)
    unfold license
    simp only [label, pass, remaining]
    rintro k (hk | ⟨_, x, hx, hwaits⟩)
    · exact .inl hk
    · exact absurd hwaits (hQ.undenied (hjobs x hx))
  | ticked label up pass unused => exact .inl (hsame rfl)
  | @began thread t label up pass found ready =>
    refine .inl (haside ?_)
    unfold license
    simp only [label, found]
    exact fun _ hk => hk.elim
  | marked label up pass found actions =>
    refine .inl (hsame ?_)
    unfold System.job
    simp only
    split <;> rfl
  | @answered thread answer t action rest label up pass found actions marked =>
    refine .inl (haside ?_)
    unfold license
    simp only [label, found, actions]
    rintro k (hk | ⟨_, _, hkind, _, x, hx, hattempt⟩)
    · exact .inl hk
    · have htoken : action.attempt.valid = true :=
        h.threads t (Table.mem_of_find found) action
          (by rw [actions]; exact List.mem_cons_self) hkind
      rw [← hattempt, show x.active_attempt.valid = false from hQ.idle (hjobs x hx)] at htoken
      cases htoken
  | finished label up pass found done => exact .inl (hsame rfl)
  | @called ctl up pass call =>
    by_cases hcalls : (∃ actor entry_at commit_at, e.label = .approve id actor entry_at commit_at) ∨
        ∃ actor clock, e.label = .rearm id actor clock
    · exact .inr (.inr ⟨ctl, ⟨up, pass, call, hcalls⟩, rfl⟩)
    · obtain ⟨happrove, hrearm⟩ := not_or.mp hcalls
      refine .inl (Controller.call_abides call
        (fun i x hx hvalid => h.world.alive_of_attempt hx hvalid) hQ ?_ ?_ hjobs hj')
      · exact fun actor entry_at commit_at label => happrove ⟨actor, entry_at, commit_at, label⟩
      · exact fun actor clock label => hrearm ⟨actor, clock, label⟩

end System

end MaintenanceFabric
