import MaintenanceFabric.Runtime.CallEffects
import MaintenanceFabric.Runtime.Drains
import MaintenanceFabric.Runtime.Grants
import MaintenanceFabric.Runtime.Holdings
import MaintenanceFabric.Runtime.Invariants

/-! # Accounting across a step

    Arbitration, the answers of the drain port, the calls of the interface and
    a restart keep every job accountable for its reservations.  Only a grant
    of the drain port gives a lease to a job, whatever stage the job is in.
-/

namespace MaintenanceFabric

open Lib

/-! ## Arbitration -/

namespace ArbitrationContext

variable (c : ArbitrationContext)

/-- A job that is granted authority had none in the ledger the arbitration started from. -/
theorem decide_all_unheld : ∀ (candidates : List ArbitrationCandidate) (position granted : Nat)
    (ledger : AuthorityLedger), (∀ r ∈ ledger.reservations.rows, r.id < ledger.next_id) →
    ∀ d ∈ (c.decide_all candidates position granted ledger).1, d.outcome = .Granted →
      ∀ j, c.jobs.find d.job = some j → ∀ r ∈ ledger.reservations.rows,
        ¬ (r.job = j.id ∧ r.generation = j.generation)
  | [], _, _, _, _, _, hd, _ => by cases hd
  | candidate :: rest, position, granted, ledger, hids, d, hd, hgranted => by
      unfold decide_all at hd
      have hcases := c.decide_candidate_cases candidate position granted ledger
      generalize c.decide_candidate candidate position granted ledger = decided at hcases hd
      obtain ⟨decision, next⟩ := decided
      simp only at hcases hd
      obtain ⟨hjob, hcases⟩ := hcases
      -- The induction is on the candidates; what is granted first stays in the ledger of the rest.
      rcases List.mem_cons.mp hd with rfl | hd
      · rcases hcases with ⟨hout, _⟩ | ⟨_, j', g, hj', hreserve, _⟩
        · exact absurd hgranted hout
        · intro j hj r hr
          rw [hjob, hj'] at hj
          cases hj
          exact AuthorityLedger.reserve_unheld hreserve r hr
      · rcases hcases with ⟨_, rfl⟩ | ⟨_, j', g, hj', hreserve, _⟩
        · exact decide_all_unheld rest _ _ next hids d hd hgranted
        · obtain ⟨hg, hnext, _, _⟩ := AuthorityLedger.reserve_ok hreserve
          have hgid : g.id = ledger.next_id := by rw [hg]
          have hnid : next.next_id = ledger.next_id.next := by rw [hnext]
          have hlater : ledger.next_id < ledger.next_id.next :=
            StrongId.lt_iff.mpr (Nat.lt_succ_self _)
          have hmem : ∀ r, r ∈ next.reservations.rows ↔
              r = g ∨ r ∈ ledger.reservations.rows ∧ r.id ≠ g.id := by
            intro r
            rw [hnext]
            exact Table.mem_put
          have hids' : ∀ r ∈ next.reservations.rows, r.id < next.next_id := by
            intro r hr
            rw [hnid]
            rcases (hmem r).mp hr with rfl | ⟨hr, _⟩
            · rw [hgid]
              exact hlater
            · exact lt_trans (hids r hr) hlater
          intro j hj r hr
          refine decide_all_unheld rest _ _ next hids' d hd hgranted j hj r ((hmem r).mpr ?_)
          refine .inr ⟨hr, ?_⟩
          rw [hgid]
          exact (hids r hr).ne

theorem Upcoming.staged {staging : AuthorityLedger} : ∀ {ds : List ArbitrationDecision}
    {floor : AuthorityId}, c.Upcoming staging floor ds → ∀ d ∈ ds, d.outcome = .Granted →
    ∃ j g, c.Staged staging d j g
  | [], _, _, _, hd, _ => by cases hd
  | first :: rest, floor, h, d, hd, hgranted => by
      rcases List.mem_cons.mp hd with rfl | hd
      · obtain ⟨j, g, hstaged, _⟩ := h.1 hgranted
        exact ⟨j, g, hstaged⟩
      · by_cases hfirst : first.outcome = .Granted
        · obtain ⟨_, g, _, _, hrest⟩ := h.1 hfirst
          exact Upcoming.staged hrest d hd hgranted
        · exact Upcoming.staged (h.2 hfirst) d hd hgranted

end ArbitrationContext

namespace Controller

/-- What applying one decision does to the others. -/
structure Decided (c c' : Controller) (job : JobId) : Prop where
  tidies : Tidies c c'
  others : ∀ id, id ≠ job → c'.world.jobs.find id = c.world.jobs.find id
  incarnation : c'.incarnation = c.incarnation
  rows : ∀ r ∈ c'.world.ledger.reservations.rows, r.job ≠ job →
    ∃ r' ∈ c.world.ledger.reservations.rows, r'.job = r.job

theorem Orderly.undecided {c c' : Controller} (h : c.Orderly) (haside : Drive.Aside c c')
    (job : JobId) : Decided c c' job := by
  refine ⟨h.aside haside, ?_, haside.incarnation, ?_⟩
  · intro id _
    rw [haside.jobs]
  · intro r hr _
    rw [haside.ledger] at hr
    exact ⟨r, hr, rfl⟩

/-- A commit concerns one job. -/
theorem commit_frame (c : Controller) (job : MaintenanceJob) (now : Nanos) :
    (c.commit_job_locked job now).2.world.ledger = c.world.ledger ∧
      ∀ id, id ≠ job.id →
        (c.commit_job_locked job now).2.world.jobs.find id = c.world.jobs.find id := by
  rcases commit_job_locked_cases c job now with ⟨e, _, hw⟩ | ⟨_, j', hcore, _, hw⟩
  · rw [hw]
    exact ⟨rfl, fun _ _ => rfl⟩
  · rw [hw]
    refine ⟨rfl, ?_⟩
    intro id hne
    refine Table.find_put_of_ne _ ?_
    rw [show j'.id = job.id from congrArg Core.id hcore]
    exact hne.symm

theorem Orderly.apply_denial {c : Controller} (h : c.Orderly) (d : ArbitrationDecision)
    (now : Nanos) : Decided c (c.apply_denial d now) d.job := by
  unfold Controller.apply_denial
  split
  · exact h.undecided (.refl c) _
  · next j hfind =>
    split
    · exact h.undecided (.refl c) _
    · have hid : j.id = d.job := Table.key_of_find hfind
      have stored : c.world.jobs.find j.id = some j := by
        rw [hid]
        exact hfind
      have hsettles := Drive.settles_moved (d := { ctl := c, job := j, actions := some [] })
        h.calm h.fine (h.held j (Table.mem_of_find stored)) .Blocked d.reason d.detail now
      have htidies := (h.settled stored hsettles now).2
      simp only
      generalize (Drive.transition_locked { ctl := c, job := j, actions := some [] } .Blocked
        d.reason d.detail now).2 = blocked at hsettles htidies ⊢
      obtain ⟨hledger, hothers⟩ := blocked.ctl.commit_frame blocked.job now
      refine ⟨htidies, ?_, ?_, ?_⟩
      · intro id hne
        rw [hothers id (by rw [hsettles.id]; exact hid ▸ hne), hsettles.jobs]
      · exact (blocked.ctl.frame_commit _ _).incarnation.trans hsettles.incarnation
      · intro r hr _
        rw [hledger] at hr
        obtain ⟨r', hr', _, hjob, _⟩ := hsettles.within r hr
        exact ⟨r', hr', hjob.symm⟩

/-- The reservation and the job that names it are installed together. -/
theorem Orderly.apply_grant {c : Controller} (h : c.Orderly) {context : ArbitrationContext}
    {staging : AuthorityLedger} {d : ArbitrationDecision} {j : MaintenanceJob}
    {g : AuthorityReservation} (now : Nanos) (staged : context.Staged staging d j g)
    (hcurrent : context.current = c.incarnation) (stored : c.world.jobs.find d.job = some j)
    (hstate : j.state = .Prerequisites)
    (hnone : ∀ r ∈ c.world.ledger.reservations.rows, r.job ≠ d.job) :
    Decided c (c.apply_grant staging d now) d.job := by
  have hid : j.id = d.job := Table.key_of_find stored
  have hgid : g.id = d.authority := Table.key_of_find staged.staged
  have hmem : j ∈ c.world.jobs.rows := Table.mem_of_find stored
  unfold Controller.apply_grant
  rw [show c.store.state.jobs.find d.job = some j from stored, staged.staged]
  simp only
  have hverdicts := Store.verdicts_insert_authority h.calm g
  -- The reservation is written first: what the journal refuses leaves the job undecided.
  rcases Store.insert_authority_cases c.store g with ⟨e, he, hb⟩ | ⟨ledger, hadopt, hok, hb⟩
  · split
    · next store heq =>
      rw [heq] at hb hverdicts
      have haside : Drive.Aside c { c with store } :=
        ⟨congrArg (fun b => b.jobs) hb, congrArg (fun b => b.ledger) hb, rfl, fun _ => hverdicts⟩
      exact h.undecided haside _
    · next heq =>
      rw [heq] at he
      cases he
  · split
    · next heq =>
      rw [heq] at hok
      cases hok
    · next store heq =>
      rw [heq] at hb hverdicts
      -- The adopted reservation takes the place of one with its id.
      have hrows : ∀ r, r ∈ ({ c with store } : Controller).world.ledger.reservations.rows ↔
          r = g ∨ r ∈ c.world.ledger.reservations.rows ∧ r.id ≠ g.id := by
        intro r
        show r ∈ store.books.ledger.reservations.rows ↔ _
        rw [hb, AuthorityLedger.adopt_ok hadopt]
        exact Table.mem_put
      have hjobs : ({ c with store } : Controller).world.jobs = c.world.jobs := by
        show store.books.jobs = _
        rw [hb]
        rfl
      have hcalm : ({ c with store } : Controller).Calm := hverdicts
      generalize hnamed : ({ j with
        authority := d.authority
        preconditions_at := now
        preconditions_digest := d.impact_digest
        last_detail := text "maintenance authority " ++ d.authority.to_string ++
          text " granted by arbitration at position " ++ decimal d.position ++
          text " [" ++ d.ordering_key ++ text "]" } : MaintenanceJob) = named
      have hcore : named.core = { j.core with authority := d.authority } := by
        rw [← hnamed]
        rfl
      have hrec : Recordable named := by
        rw [← hnamed]
        have hj := h.recordable j hmem
        exact recordable_of_le hj rfl (check_job_record_valid hj).2 rfl rfl rfl rfl
          (recordable_bounds hj).1 (recordable_bounds hj).2
      have hnid : named.id = j.id := congrArg Core.id hcore
      have hfound : ({ c with store } : Controller).world.jobs.find named.id = some j := by
        rw [hjobs, hnid, hid]
        exact stored
      have hincarnation : ({ c with store } : Controller).incarnation = c.incarnation := rfl
      generalize ({ c with store } : Controller) = c₁ at hrows hjobs hcalm hfound hincarnation ⊢
      have hcommitted := @commit_job_locked_ok _ _ _ now hcalm hfound hrec
      have hframe := (c₁.frame_commit named now).incarnation.trans hincarnation
      have hafter := calm_commit hcalm named now
      obtain ⟨hledger, hothers⟩ := c₁.commit_frame named now
      -- The second write cannot fail here: the job fits a record, and the journal takes it.
      rcases commit_job_locked_cases c₁ named now with ⟨e, he, _⟩ | ⟨_, j', hcore', hrec', hw⟩
      · rw [he] at hcommitted
        cases hcommitted
      · have htable : (c₁.commit_job_locked named now).2.world.jobs = c.world.jobs.put j' := by
          rw [hw, hjobs]
        generalize (c₁.commit_job_locked named now).2 = c₂ at hframe hafter hledger hothers htable ⊢
        have hj'id : j'.id = j.id := (congrArg Core.id hcore').trans hnid
        have hj'core : j'.core = { j.core with authority := d.authority } := hcore'.trans hcore
        -- The job names the new reservation, and no other job held one of its own before.
        refine ⟨⟨⟨hafter, ?_, ?_, ?_⟩, ?_⟩, ?_, hframe, ?_⟩
        · intro r hr
          rw [hledger] at hr
          rcases (hrows r).mp hr with rfl | ⟨hr, _⟩
          · exact ⟨AuthorityLedger.adopt_valid hadopt, staged.attempt.2⟩
          · exact h.fine r hr
        · rw [htable]
          intro x hx
          rcases Table.mem_put.mp hx with rfl | ⟨hx, _⟩
          · exact hrec'
          · exact h.recordable x hx
        · rw [htable, hledger, hframe]
          intro x hx
          rcases Table.mem_put.mp hx with rfl | ⟨hx, hother⟩
          · rw [hj'core]
            have hspent : ({ j.core with authority := d.authority } : Core).spent = false := by
              show Drive.gives_back j.state j.service_removed = false
              rw [hstate]
              rfl
            refine ⟨?_, fun h => absurd h (by rw [hspent]; simp)⟩
            intro r hr hjob
            rcases (hrows r).mp hr with rfl | ⟨hr, _⟩
            · exact ⟨hgid, staged.generation, staged.attempt.1, staged.owner.trans hcurrent, hspent⟩
            · exact absurd (show r.job = d.job from hjob.trans hid) (hnone r hr)
          · refine ⟨?_, (h.held x hx).spent⟩
            intro r hr hjob
            rcases (hrows r).mp hr with rfl | ⟨hr, _⟩
            · have hsame : x.id = j.id := hjob.symm.trans staged.job
              exact absurd (hsame.trans hj'id.symm) hother
            · exact (h.held x hx).rows r hr hjob
        · unfold Inherits
          rw [htable]
          intro x hx
          rcases Table.mem_put.mp hx with rfl | ⟨hx, _⟩
          · refine .inr ⟨j, hmem, hj'id.symm, congrArg Core.lease hj'core, ?_⟩
            intro hspent
            rw [hj'core] at hspent
            exact ⟨hspent, congrArg Core.state hj'core⟩
          · exact .inr ⟨x, hx, rfl, rfl, fun hspent => ⟨hspent, rfl⟩⟩
        · intro id hne
          rw [hothers id (by rw [hnid, hid]; exact hne), hjobs]
        · intro r hr hother
          rw [hledger] at hr
          rcases (hrows r).mp hr with rfl | ⟨hr, _⟩
          · exact absurd (staged.job.trans hid) hother
          · exact ⟨r, hr, rfl⟩

theorem Orderly.apply_decisions {context : ArbitrationContext} {staging : AuthorityLedger}
    (now : Nanos) : ∀ (ds : List ArbitrationDecision) {c : Controller}, c.Orderly →
    (ds.map ArbitrationDecision.job).Nodup → context.current = c.incarnation →
    (∀ d ∈ ds, d.outcome = .Granted → ∃ j g, context.Staged staging d j g) →
    (∀ d ∈ ds, c.world.jobs.find d.job = context.jobs.find d.job) →
    (∀ d ∈ ds, ∀ j, context.jobs.find d.job = some j → j.state = .Prerequisites) →
    (∀ d ∈ ds, d.outcome = .Granted → ∀ r ∈ c.world.ledger.reservations.rows, r.job ≠ d.job) →
    Tidies c (ds.foldl (apply_decision staging now) c)
  | [], c, h, _, _, _, _, _, _ => h.aside (.refl c)
  | d :: ds, c, h, hnd, hcurrent, hstaged, hsame, hstate, hnone => by
      obtain ⟨hfirst, hnd⟩ := List.nodup_cons.mp hnd
      have hdecided : Decided c (apply_decision staging now c d) d.job := by
        unfold apply_decision
        cases hout : d.outcome with
        | Denied => exact h.apply_denial d now
        | Deferred => exact h.undecided (.refl c) _
        | Granted =>
          obtain ⟨j, g, staged⟩ := hstaged d List.mem_cons_self hout
          have hj := (hsame d List.mem_cons_self).trans staged.found
          exact h.apply_grant now staged hcurrent hj (hstate d List.mem_cons_self j staged.found)
            (hnone d List.mem_cons_self hout)
      rw [List.foldl_cons]
      generalize apply_decision staging now c d = c' at hdecided
      -- No job is decided twice, so what the first decision changed is not looked at again.
      have hne : ∀ d' ∈ ds, d'.job ≠ d.job := by
        intro d' hd' he
        exact hfirst (he ▸ List.mem_map_of_mem hd')
      refine hdecided.tidies.trans (Orderly.apply_decisions now ds hdecided.tidies.orderly hnd
        (hcurrent.trans hdecided.incarnation.symm)
        (fun d' hd' => hstaged d' (List.mem_cons_of_mem _ hd')) ?_
        (fun d' hd' => hstate d' (List.mem_cons_of_mem _ hd')) ?_)
      · intro d' hd'
        rw [hdecided.others _ (hne d' hd')]
        exact hsame d' (List.mem_cons_of_mem _ hd')
      · intro d' hd' hgranted r hr hjob
        have hother : r.job ≠ d.job := by
          rw [hjob]
          exact hne d' hd'
        obtain ⟨r', hr', hjob'⟩ := hdecided.rows r hr hother
        exact hnone d' (List.mem_cons_of_mem _ hd') hgranted r' hr' (hjob'.trans hjob)

/-- One arbitration grants each job at most once, and only a job without a reservation. -/
theorem Orderly.arbitrate_locked {c : Controller} (h : c.Orderly) (sound : c.world.Sound)
    (context : PassContext) : Tidies c (c.arbitrate_locked context) := by
  obtain ⟨hnd, hstate, hupcoming⟩ := c.decisions_spec context
  have hunheld := (c.arbitration_context context).decide_all_unheld (order_candidates
    ((c.arbitration_candidates context.now).filterMap c.store.state.jobs.find) c.policy) 0 0
    c.store.state.ledger (fun r hr => (sound.ids.2 r hr).2)
  unfold Controller.arbitrate_locked
  simp only
  refine h.apply_decisions context.now _ hnd rfl (hupcoming.staged _) (fun _ _ => rfl) hstate ?_
  intro d hd hgranted r hr hjob
  obtain ⟨j, g, hstaged⟩ := hupcoming.staged _ d hd hgranted
  have hj : c.world.jobs.find d.job = some j := hstaged.found
  have hid : j.id = d.job := Table.key_of_find hj
  -- The ledger refuses a second reservation for the generation, and the job has no older one.
  have haccounts := (h.held j (Table.mem_of_find hj)).rows r hr (hjob.trans hid.symm)
  exact hunheld d hd hgranted j hstaged.found r hr ⟨hjob.trans hid.symm, haccounts.generation⟩

theorem Orderly.sweep_orphans {c : Controller} (h : c.Orderly) (actions : List DrainAction) :
    Tidies c (c.sweep_orphans actions).1 :=
  h.aside ⟨rfl, rfl, rfl, id⟩

/-! ## Answers of the drain port -/

/-- A job is committed with nothing changed but, perhaps, its lease. -/
theorem Orderly.leased {c c₁ : Controller} (h : c.Orderly) (haside : Drive.Aside c c₁)
    {j job : MaintenanceJob} (stored : c.world.jobs.find j.id = some j) {lease : DrainLeaseId}
    (hcore : job.core = { j.core with lease }) (now : Nanos) :
    (c₁.commit_job_locked job now).2.Orderly := by
  have hbalances : Drive.Balances { ctl := c, job := j } { ctl := c₁, job } := by
    refine ⟨haside.calm, haside.incarnation, haside.jobs, congrArg Core.id hcore,
      .of_eq haside.ledger, ?_⟩
    intro hheld
    show Held c₁.world.ledger c₁.incarnation job.core
    rw [haside.ledger, haside.incarnation, hcore]
    exact hheld.of_same rfl rfl rfl rfl id
  exact (h.balanced stored hbalances now).2

/-- The same for a lease that is kept or given up. -/
theorem Orderly.touched {c c₁ : Controller} (h : c.Orderly) (haside : Drive.Aside c c₁)
    {j job : MaintenanceJob} (stored : c.world.jobs.find j.id = some j)
    (hcore : job.core = j.core ∨ job.core = { j.core with lease := ⟨0⟩ }) (now : Nanos) :
    Tidies c (c₁.commit_job_locked job now).2 := by
  have hsettles : Drive.Settles { ctl := c, job := j } { ctl := c₁, job } := by
    rcases hcore with hcore | hcore
    · exact Drive.settles_touched haside ⟨_, _, hcore⟩
    · refine ⟨⟨haside.calm, haside.incarnation, haside.jobs, congrArg Core.id hcore,
        .of_eq haside.ledger, ?_⟩, .inl (congrArg Core.lease hcore)⟩
      intro hheld
      show Held c₁.world.ledger c₁.incarnation job.core
      rw [haside.ledger, haside.incarnation, hcore]
      exact hheld.of_same rfl rfl rfl rfl id
  exact (h.settled stored hsettles now).2

/-- Of a step whose effect on the journal does not matter any more: the jobs account for what
    they hold, and no lease has come. -/
def Keeps (c c' : Controller) : Prop :=
  (∀ j ∈ c'.world.jobs.rows, Held c'.world.ledger c'.incarnation j.core) ∧ Inherits c c'

theorem Tidies.keeps {c c' : Controller} (h : Tidies c c') : Keeps c c' :=
  ⟨h.orderly.held, h.inherits⟩

theorem Orderly.of_world {c c' : Controller} (h : c.Orderly) (hw : c'.world = c.world) :
    Keeps c c' := by
  have hincarnation : c'.world.incarnation = c.world.incarnation := by rw [hw]
  refine ⟨?_, .of_jobs (by rw [hw])⟩
  show ∀ j ∈ c'.world.jobs.rows, Held c'.world.ledger c'.world.incarnation j.core
  rw [hw]
  exact h.held

theorem Orderly.expire_authority {c : Controller} (h : c.Orderly) (now : Nanos)
    (deferred : List DrainAction) : Keeps c
      { c with store := c.store.expire_authority now, deferred_releases := deferred } := by
  have hbooks : (c.store.expire_authority now).books.jobs = c.world.jobs ∧
      c.world.ledger.Within (c.store.expire_authority now).books.ledger := by
    rcases c.store.expire_authority_books now with hbooks | hbooks
    · rw [hbooks]
      exact ⟨rfl, .refl _⟩
    · rw [hbooks]
      exact ⟨rfl, .of_subset (fun r hr => (Table.mem_filter.mp hr).1)⟩
  refine ⟨?_, .of_jobs hbooks.1⟩
  intro j hj
  have hstored : j ∈ (c.store.expire_authority now).books.jobs.rows := hj
  rw [hbooks.1] at hstored
  exact (h.held j hstored).within hbooks.2

theorem Orderly.forget_lease {c c₁ : Controller} (h : c.Orderly) (haside : Drive.Aside c c₁)
    (lease : DrainLeaseId) (now : Nanos) : Keeps c (c₁.forget_lease lease now) := by
  unfold Controller.forget_lease
  split
  · exact (h.aside haside).keeps
  · next candidate hfind =>
    have hmem : candidate ∈ c₁.world.jobs.rows := List.mem_of_find?_eq_some hfind
    rw [haside.jobs] at hmem
    exact (h.touched haside (Table.find_iff_mem.mpr hmem) (.inr rfl) now).keeps

theorem Orderly.apply_failure {c : Controller} (h : c.Orderly) {j : MaintenanceJob}
    (stored : c.world.jobs.find j.id = some j) (e : Error) (now : Nanos) :
    Keeps c (c.apply_failure j e now) := by
  unfold Controller.apply_failure
  simp only
  split
  · have hsettles := Drive.settles_prepared (d := { ctl := c, job := j })
      (p := { ctl := c, job := { j with
        drain_failures := j.drain_failures + 1
        last_detail := text "drain request failed: " ++ format_error e } }) h.calm h.fine
      (h.held j (Table.mem_of_find stored)) (.refl _) ⟨_, _, rfl⟩ .Blocked .DrainFailed
      (text "drain request failed: " ++ format_error e) now
    exact (h.settled stored hsettles now).2.keeps
  · refine (h.touched ?_ stored ?_ now).keeps
    · exact .refl c
    · exact .inl rfl

theorem aside_record_drain (c : Controller) (job : MaintenanceJob) (drained : Bool) (now : Nanos) :
    Drive.Aside c (c.record_drain job drained now) := by
  unfold record_drain
  apply Drive.Aside.foldl
  intro c target
  exact Drive.aside_author_evidence c _ _ _ _ _ _ _

theorem aside_commit_lease {c : Controller} {store : Store} {lease : DrainLease} {r : Status}
    (h : c.store.commit_lease lease = (r, store)) (calm : c.Calm) :
    Drive.Aside c { c with store } := by
  have hbooks := Store.books_commit_lease c.store lease
  have hverdicts := Store.verdicts_commit_lease calm lease
  rw [h] at hbooks hverdicts
  exact ⟨congrArg (fun b => b.jobs) hbooks, congrArg (fun b => b.ledger) hbooks, rfl,
    fun _ => hverdicts⟩

/-- The job of a granted request, in the stage it had, is the only one that gets a lease. -/
def Grants (c c' : Controller) (job : JobId) : Prop :=
  (∀ j ∈ c'.world.jobs.rows, Held c'.world.ledger c'.incarnation j.core) ∧
    ∀ j' ∈ c'.world.jobs.rows, (∃ j ∈ c.world.jobs.rows, j'.lease = j.lease ∧
        (j'.core.spent = true → j.core.spent = true ∧ j'.state = j.state)) ∨
      ∃ j, c.world.jobs.find job = some j ∧ j'.state = j.state ∧ j'.core.spent = j.core.spent

theorem Orderly.apply_granted {c : Controller} (h : c.Orderly) {j : MaintenanceJob}
    (stored : c.world.jobs.find j.id = some j) (lease : DrainLease) (now : Nanos) :
    Keeps c (c.apply_granted j lease now) ∨
      (lease.id.valid = true ∧ Status.isOk (c.store.commit_lease lease).1 = true) ∧
        Grants c (c.apply_granted j lease now) j.id := by
  unfold Controller.apply_granted
  split
  · exact .inl (h.aside (.refl c)).keeps
  · next hvalid =>
    split
    · next store heq =>
      exact .inl (h.aside (aside_commit_lease heq h.calm)).keeps
    · next store heq =>
      refine .inr ⟨⟨by simpa using hvalid, by rw [heq]; rfl⟩, ?_⟩
      have hstored := aside_commit_lease heq h.calm
      simp only
      generalize hjob : ({ j with
        lease := lease.id
        last_detail := text "drain lease " ++ lease.id.to_string ++ text " granted in state " ++
          lease.state.to_string } : MaintenanceJob) = job
      have hcore : job.core = { j.core with lease := lease.id } := by
        rw [← hjob]
        rfl
      -- A lease that is drained or draining is recorded as evidence before the job is committed.
      have hrecorded : Drive.Aside c (if lease.state = .Drained ∨ lease.state = .Draining then
          ({ c with store } : Controller).record_drain job (decide (lease.state = .Drained)) now
          else { c with store }) := by
        split
        · exact hstored.trans (aside_record_drain _ _ _ _)
        · exact hstored
      generalize (if lease.state = .Drained ∨ lease.state = .Draining then
          ({ c with store } : Controller).record_drain job (decide (lease.state = .Drained)) now
          else { c with store }) = c₁ at hrecorded
      refine ⟨(h.leased hrecorded stored hcore now).held, ?_⟩
      rcases commit_job_locked_cases c₁ job now with ⟨e, _, hw⟩ | ⟨_, j', hcore', _, hw⟩
      · rw [hw, hrecorded.jobs]
        exact fun x hx => .inl ⟨x, hx, rfl, fun hspent => ⟨hspent, rfl⟩⟩
      · rw [hw]
        intro x hx
        rcases Table.mem_put.mp hx with rfl | ⟨hx, _⟩
        · refine .inr ⟨j, stored, ?_, ?_⟩
          · exact congrArg Core.state (hcore'.trans hcore)
          · rw [hcore', hcore]
            rfl
        · rw [hrecorded.jobs] at hx
          exact .inl ⟨x, hx, rfl, fun hspent => ⟨hspent, rfl⟩⟩

/-- Only an ok answer to a request that is still waited for gives a lease. -/
theorem Orderly.apply_outcome {c : Controller} (h : c.Orderly) (action : DrainAction)
    (response : DrainResponse) (now : Nanos) :
    Keeps c (c.apply_outcome action response now) ∨
      (action.kind = .Request ∧ c.drain_stale action = false ∧
        Status.isOk response.status = true ∧ response.lease.id.valid = true ∧
        Status.isOk (c.store.commit_lease response.lease).1 = true) ∧
      Grants c (c.apply_outcome action response now) action.job := by
  -- Taking the mark back touches neither the books nor what the store answers.
  have hunmarked : Drive.Aside c (c.unmark action) := ⟨rfl, rfl, rfl, id⟩
  have horderly := (h.aside hunmarked).orderly
  have hworld : (c.unmark action).world = c.world := rfl
  have hstale : (c.unmark action).drain_stale action = c.drain_stale action := rfl
  have hstore : (c.unmark action).store = c.store := rfl
  have hkeeps : ∀ c', Keeps (c.unmark action) c' → Keeps c c' := fun _ hk => hk
  have hgrants : ∀ c' job, Grants (c.unmark action) c' job → Grants c c' job := fun _ _ hg => hg
  rw [apply_outcome_eq]
  generalize c.unmark action = c₁ at horderly hworld hstale hstore hkeeps hgrants
  cases hkind : action.kind with
  | Release =>
    refine .inl (hkeeps _ ?_)
    unfold apply_release
    simp only
    have hbooks := Store.books_commit_lease_erased c₁.store (granted_lease action response)
    have hverdicts :=
      Store.verdicts_commit_lease_erased horderly.calm (granted_lease action response)
    split
    · refine horderly.forget_lease ?_ _ now
      exact ⟨congrArg (fun b => b.jobs) hbooks, congrArg (fun b => b.ledger) hbooks, rfl,
        fun _ => hverdicts⟩
    · exact horderly.of_world rfl
  | Request =>
    simp only
    split
    · exact .inl (hkeeps _ (horderly.of_world (world_apply_stale _ _ _)))
    · next hfresh =>
      split
      · exact .inl (hkeeps _ (horderly.of_world rfl))
      · next j hfind =>
        have hid : j.id = action.job := Table.key_of_find hfind
        have stored : c₁.world.jobs.find j.id = some j := by
          rw [hid]
          exact hfind
        split
        · next e _ => exact .inl (hkeeps _ (horderly.apply_failure stored e now))
        -- A grant is kept only if the lease is valid and the journal takes it.
        · next hok =>
          rcases horderly.apply_granted stored response.lease now with
            hkept | ⟨⟨hvalid, haccepted⟩, hgranted⟩
          · exact .inl (hkeeps _ hkept)
          · refine .inr ⟨⟨trivial, ?_, by rw [hok]; rfl, hvalid, ?_⟩, ?_⟩
            · rw [← hstale]
              simpa using hfresh
            · rw [← hstore]
              exact haccepted
            · rw [← hid]
              exact hgrants _ _ hgranted

/-! ## Calls -/

theorem Orderly.propose {c : Controller} (h : c.Orderly) (sound : c.world.Sound)
    (request : MaintenanceRequest) (actor : Text) (clock : Nanos) :
    Keeps c (c.propose request actor clock).2 := by
  unfold Controller.propose
  split
  · exact h.of_world rfl
  · simp only
    rcases Store.create_job_cases c.store (c.proposed_job request actor clock) with
      hb | ⟨id, hnone, _, hb⟩
    · exact h.of_world (world_of_books hb)
    -- What is installed is the image of the record that was written, with the same core.
    · generalize hjob : clipped_job { c.proposed_job request actor clock with
        id, revision := ⟨1⟩ } = job at hb
      have hcore : job.core =
          ({ c.proposed_job request actor clock with id,
                                                     revision := ⟨1⟩ } : MaintenanceJob).core := by
        rw [← hjob]
        exact core_clipped_job _
      have hid : job.id = id := congrArg Core.id hcore
      have hnone : c.world.jobs.find id = none := hnone
      have hw : ({ c with store := (c.store.create_job
          (c.proposed_job request actor clock)).2 } : Controller).world =
          { c.world with jobs := c.world.jobs.put job } := by
        simp [world, hb]
      refine ⟨?_, ?_⟩
      · rw [hw]
        intro x hx
        rcases Table.mem_put.mp hx with rfl | ⟨hx, _⟩
        · -- No reservation is made for a job that does not exist.
          refine .of_none ?_ ?_
          · intro r hr hr'
            obtain ⟨k, hk, _⟩ := (sound.holds r hr).job
            rw [show r.job = id from hr'.trans hid, hnone] at hk
            cases hk
          · intro _
            rw [hcore]
            rfl
        · exact h.held x hx
      · unfold Inherits
        rw [hw]
        intro x hx
        rcases Table.mem_put.mp hx with rfl | ⟨hx, _⟩
        · exact .inl (congrArg Core.lease hcore)
        · exact .inr ⟨x, hx, rfl, rfl, fun hspent => ⟨hspent, rfl⟩⟩

theorem Orderly.approve {c : Controller} (h : c.Orderly) (job : JobId) (actor : Text)
    (entry_at commit_at : Nanos) : Keeps c (c.approve job actor entry_at commit_at).2 := by
  unfold Controller.approve
  split
  · exact h.of_world rfl
  · next j hfind =>
    split
    · exact h.of_world rfl
    · next hstate =>
      have hid : j.id = job := Table.key_of_find hfind
      have stored : c.world.jobs.find j.id = some j := by
        rw [hid]
        exact hfind
      have hcore := c.core_approved actor entry_at (not_not.mp hstate)
      have hstage : (j.core.move .Validated).spent = false := by
        simp [Core.spent, Drive.gives_back, Core.move, JobState.is_terminal]
      have hsettles : Drive.Settles { ctl := c, job := j }
          { ctl := c, job := c.approved_job j actor entry_at } := by
        refine ⟨⟨id, rfl, rfl, congrArg Core.id hcore, .refl _, ?_⟩,
          .inr ⟨congrArg Core.lease hcore, ?_⟩⟩
        · intro hheld
          show Held _ _ (c.approved_job j actor entry_at).core
          rw [hcore]
          exact hheld.onward rfl hstage
        · intro hspent
          have hspent : (c.approved_job j actor entry_at).core.spent = true := hspent
          rw [hcore, hstage] at hspent
          cases hspent
      exact (h.settled stored hsettles commit_at).2.keeps

/-- A re-armed job has given everything back before its generation moves on. -/
theorem Orderly.rearm {c : Controller} (h : c.Orderly) (job : JobId) (actor : Text) (now : Nanos) :
    Keeps c (c.rearm job actor now).2 := by
  unfold Controller.rearm
  split
  · exact h.of_world rfl
  · next j hfind =>
    have hid : j.id = job := Table.key_of_find hfind
    have stored : c.world.jobs.find j.id = some j := by
      rw [hid]
      exact hfind
    have hheld := h.held j (Table.mem_of_find stored)
    split
    · exact h.of_world rfl
    · split
      · exact h.of_world rfl
      · obtain ⟨a, l, hjob, _, hcalm, _⟩ :=
          Drive.release_resources_spec { ctl := c, job := j, actions := some [] }
        have hincarnation := (Drive.keeps_release_resources
          { ctl := c, job := j, actions := some [] }).frame.incarnation
        have hfreed : Drive.Freed { ctl := c, job := j, actions := some [] }
            (Drive.release_resources_locked { ctl := c, job := j, actions := some [] }) := by
          refine Drive.release_resources_frees h.calm h.fine ?_
          intro r hr hr'
          exact ⟨(hheld.rows r hr hr').id, (hheld.rows r hr hr').owner⟩
        simp only
        generalize Drive.release_resources_locked { ctl := c, job := j, actions := some [] } = d
          at hjob hcalm hincarnation hfreed ⊢
        -- Both ids of the copy are cleared: an orderly journal takes everything.
        have hzero : a = ⟨0⟩ ∧ l = ⟨0⟩ := by
          have hcore := hfreed.core
          rw [hjob] at hcore
          exact ⟨congrArg Core.authority hcore, congrArg Core.lease hcore⟩
        rw [hjob]
        split
        · have hcore := c.core_reentered j actor now a l
          generalize c.reentered_job
            (rearmed_job { j with authority := a, lease := l } actor now) now
            = updated at hcore ⊢
          -- The copy that is stored names nothing, and nothing is left that names it.
          have hsettles : Drive.Settles { ctl := c, job := j, actions := some [] }
              { d with job := updated } := by
            refine ⟨⟨hcalm, hincarnation, hfreed.jobs, congrArg Core.id hcore, hfreed.within, ?_⟩,
              .inl ((congrArg Core.lease hcore).trans hzero.2)⟩
            intro _
            refine .of_none ?_ (fun _ => (congrArg Core.authority hcore).trans hzero.1)
            intro r hr hr'
            exact hfreed.none_left r hr (hr'.trans (congrArg Core.id hcore))
          have hkeeps := (h.settled stored hsettles now).2.keeps
          split
          · next heq =>
            rw [show ({ d with job := updated } : Drive).ctl = d.ctl from rfl] at hkeeps
            rw [heq] at hkeeps
            exact hkeeps
          · next heq =>
            rw [show ({ d with job := updated } : Drive).ctl = d.ctl from rfl] at hkeeps
            rw [heq] at hkeeps
            exact hkeeps
        · -- Refused after the release: the job stays, its reservation does not.
          refine ⟨?_, .of_jobs hfreed.jobs⟩
          show ∀ x ∈ d.ctl.world.jobs.rows, Held d.ctl.world.ledger d.ctl.incarnation x.core
          rw [hfreed.jobs, hincarnation]
          exact fun x hx => (h.held x hx).within hfreed.within

theorem Orderly.cancel {c : Controller} (h : c.Orderly) (job : JobId) (actor reason : Text)
    (now : Nanos) : Keeps c (c.cancel job actor reason now).2 := by
  unfold Controller.cancel
  split
  · exact h.of_world rfl
  · next j hfind =>
    have hid : j.id = job := Table.key_of_find hfind
    have stored : c.world.jobs.find j.id = some j := by
      rw [hid]
      exact hfind
    split
    · exact h.of_world rfl
    · split
      · exact h.of_world rfl
      · have hsettles := Drive.settles_moved (d := { ctl := c, job := j, actions := some [] })
          h.calm h.fine (h.held j (Table.mem_of_find stored)) .Cancelled .None
          (text "cancelled by " ++ actor ++ text ": " ++ reason) now
        obtain ⟨hctl, hcommit⟩ := h.settled stored hsettles now
        generalize Drive.transition_locked { ctl := c, job := j, actions := some [] } .Cancelled
          .None (text "cancelled by " ++ actor ++ text ": " ++ reason) now = out at hctl hcommit ⊢
        obtain ⟨moved, d⟩ := out
        -- A job whose move is refused is not committed.
        cases moved with
        | false => exact hctl.keeps
        | true =>
          simp only
          have hkeeps := hcommit.keeps
          split
          · next heq =>
            rw [heq] at hkeeps
            exact hkeeps
          · next heq =>
            rw [heq] at hkeeps
            exact hkeeps

theorem Orderly.observe {c : Controller} (h : c.Orderly) (e : EvidenceRecord) :
    Keeps c (c.observe e).2 := by
  obtain ⟨_, _, _, _, hw⟩ := c.completed_evidence_spec e
  have hframe : (c.completed_evidence e).2.incarnation = c.incarnation :=
    show (c.completed_evidence e).2.world.incarnation = c.world.incarnation by rw [hw]
  unfold Controller.observe
  simp only
  generalize c.completed_evidence e = completed at hw hframe ⊢
  have hbooks : ∃ evidence, (completed.2.store.observe_evidence completed.1).2.books =
      { completed.2.store.books with evidence } := by
    rcases Store.observe_evidence_cases completed.2.store completed.1 with
      ⟨_, _, hb, _⟩ | ⟨staging, _, _, hb⟩
    · exact ⟨_, hb⟩
    · exact ⟨staging, hb⟩
  obtain ⟨evidence, hbooks⟩ := hbooks
  have hjobs : (completed.2.store.observe_evidence completed.1).2.books.jobs = c.world.jobs := by
    rw [hbooks, ← hw]
    rfl
  have hledger : (completed.2.store.observe_evidence completed.1).2.books.ledger =
      c.world.ledger := by
    rw [hbooks, ← hw]
    rfl
  refine ⟨?_, .of_jobs hjobs⟩
  show ∀ j ∈ (completed.2.store.observe_evidence completed.1).2.books.jobs.rows,
    Held (completed.2.store.observe_evidence completed.1).2.books.ledger
      completed.2.incarnation j.core
  rw [hjobs, hledger, hframe]
  exact h.held

theorem aside_record_completion (job : JobId) (attempt : AttemptId) (succeeded : Bool)
    (now : Nanos) : ∀ (targets : List TargetId) (c : Controller),
    Drive.Aside c (record_completion job attempt succeeded now c targets).2
  | [], c => .refl c
  | target :: rest, c => by
      have haside := Drive.aside_author_evidence c .MaintenanceCompletion target ⟨1⟩ now
        { result := succeeded, health := if succeeded then .Degraded else .Down } job attempt
      unfold record_completion
      split
      · next heq =>
        rw [heq] at haside
        exact haside
      · next heq =>
        rw [heq] at haside
        exact haside.trans (aside_record_completion job attempt succeeded now rest _)

theorem Orderly.report_completion {c : Controller} (h : c.Orderly) (job : JobId)
    (attempt : AttemptId) (succeeded : Bool) (detail : Text) (now : Nanos) :
    Keeps c (c.report_completion job attempt succeeded detail now).2 := by
  unfold Controller.report_completion
  split
  · exact h.of_world rfl
  · next j hfind =>
    have hid : j.id = job := Table.key_of_find hfind
    have stored : c.world.jobs.find j.id = some j := by
      rw [hid]
      exact hfind
    split
    · exact h.of_world rfl
    · split
      · exact h.of_world rfl
      · have haside := aside_record_completion job attempt succeeded now j.removal_set c
        split
        · next heq =>
          rw [heq] at haside
          exact (h.aside haside).keeps
        · next heq =>
          rw [heq] at haside
          refine (h.touched haside stored ?_ now).keeps
          exact .inl rfl

theorem Orderly.report_restoration {c : Controller} (h : c.Orderly) (job : JobId)
    (attempt : AttemptId) (target : TargetId) (restored : Bool) (detail : Text) (now : Nanos) :
    Keeps c (c.report_restoration job attempt target restored detail now).2 := by
  unfold Controller.report_restoration
  split
  · exact h.of_world rfl
  · next j hfind =>
    have hid : j.id = job := Table.key_of_find hfind
    have stored : c.world.jobs.find j.id = some j := by
      rw [hid]
      exact hfind
    split
    · exact h.of_world rfl
    · split
      · exact h.of_world rfl
      · have haside := Drive.aside_author_evidence c .RestorationCheck target ⟨2⟩ now
          { result := restored, health := if restored then .Healthy else .Down } job attempt
        split
        · next heq =>
          rw [heq] at haside
          exact (h.aside haside).keeps
        · next heq =>
          rw [heq] at haside
          refine (h.touched haside stored ?_ now).keeps
          exact .inl rfl

theorem Orderly.call {c c' : Controller} {label : Label} (h : c.Orderly) (sound : c.world.Sound)
    (hcall : c.call label = some c') : Keeps c c' := by
  unfold Controller.call at hcall
  split at hcall
  case h_1 => cases hcall; exact h.of_world (world_set_topology _ _)
  case h_2 => cases hcall; exact h.of_world (world_set_policy _ _)
  case h_3 => cases hcall; exact h.propose sound _ _ _
  case h_4 => cases hcall; exact h.approve _ _ _ _
  case h_5 => cases hcall; exact h.rearm _ _ _
  case h_6 => cases hcall; exact h.cancel _ _ _ _
  case h_7 => cases hcall; exact h.observe _
  case h_8 => cases hcall; exact h.report_completion _ _ _ _ _
  case h_9 => cases hcall; exact h.report_restoration _ _ _ _ _ _
  case h_10 => cases hcall; exact h.of_world (world_clear_quarantine _ _ _ _ _)
  case h_11 => cases hcall

end Controller

end MaintenanceFabric
