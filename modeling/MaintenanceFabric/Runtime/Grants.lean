import MaintenanceFabric.Runtime.Effects

/-! # Arbitration as changes

    The arbitrator decides on a staging copy of the ledger and the controller
    then applies the decisions one by one.  What ties the two together is that
    staged identities lie above everything the live ledger has handed out, and
    that a job is decided at most once.
-/

namespace MaintenanceFabric

open Lib

/-! ## Decisions -/

namespace ArbitrationContext

variable (c : ArbitrationContext)

/-- The staged reservation behind a grant. -/
structure Staged (staging : AuthorityLedger) (d : ArbitrationDecision) (j : MaintenanceJob)
    (g : AuthorityReservation) : Prop where
  found : c.jobs.find d.job = some j
  staged : staging.find d.authority = some g
  job : g.job = j.id
  generation : g.generation = j.generation
  attempt : g.attempt = j.active_attempt ∧ g.attempt.valid = true
  owner : g.owner = c.current
  scope : ∀ t, t ∈ g.targets ↔ t ∈ j.removal_set
  nonempty : g.targets ≠ []

/-- The decisions still to be applied, with the identities of their grants ascending from
    `floor`. -/
def Upcoming (staging : AuthorityLedger) : AuthorityId → List ArbitrationDecision → Prop
  | _, [] => True
  | floor, d :: ds =>
      (d.outcome = .Granted →
        ∃ j g, c.Staged staging d j g ∧ floor ≤ g.id ∧ Upcoming staging g.id.next ds) ∧
      (d.outcome ≠ .Granted → Upcoming staging floor ds)

/-- One decision leaves the ledger alone or grants under its next identity. -/
theorem decide_candidate_cases (candidate : ArbitrationCandidate) (position granted : Nat)
    (ledger : AuthorityLedger) :
    let decided := c.decide_candidate candidate position granted ledger
    decided.1.job = candidate.job ∧
      (decided.1.outcome ≠ .Granted ∧ decided.2 = ledger ∨
       decided.1.outcome = .Granted ∧ ∃ j g, c.jobs.find candidate.job = some j ∧
        ledger.reserve (c.acquire_context ledger j).reservation = .ok (g, decided.2) ∧
        decided.1.authority = g.id) := by
  intro decided
  simp only [decided]
  unfold decide_candidate
  simp only
  split
  · exact ⟨rfl, .inl ⟨by simp, rfl⟩⟩
  · next j hj =>
    split
    · exact ⟨rfl, .inl ⟨by simp, rfl⟩⟩
    · split
      · exact ⟨rfl, .inl ⟨by simp, rfl⟩⟩
      · split
        · exact ⟨rfl, .inl ⟨by simp, rfl⟩⟩
        · next g staged impact hacq =>
          have hres := (acquire_authority_ok (congrArg Prod.fst hacq)).1
          exact ⟨rfl, .inr ⟨rfl, j, g, hj, hres, rfl⟩⟩

/-- Deciding the rest keeps every identity handed out so far. -/
theorem decide_all_find : ∀ (candidates : List ArbitrationCandidate) (position granted : Nat)
    (ledger : AuthorityLedger) {id : AuthorityId}, id < ledger.next_id →
    (c.decide_all candidates position granted ledger).2.find id = ledger.find id
  | [], _, _, _, _, _ => rfl
  | candidate :: rest, position, granted, ledger, id, h => by
      unfold decide_all
      have hcases := c.decide_candidate_cases candidate position granted ledger
      generalize c.decide_candidate candidate position granted ledger = decided at hcases ⊢
      obtain ⟨decision, next⟩ := decided
      simp only at hcases ⊢
      obtain ⟨_, ⟨_, rfl⟩ | ⟨_, j, g, _, hres, _⟩⟩ := hcases
      · exact decide_all_find rest _ _ _ h
      · obtain ⟨hg, hnext, -, -⟩ := AuthorityLedger.reserve_ok hres
        have hid : g.id = ledger.next_id := by rw [hg]
        have hlt : id < next.next_id := by
          rw [hnext]
          exact lt_trans h (StrongId.lt_iff.mpr (Nat.lt_succ_self _))
        rw [decide_all_find rest _ _ _ hlt, hnext]
        unfold AuthorityLedger.find
        exact Table.find_put_of_ne _ (by rw [hid]; exact h.ne')

theorem decide_all_upcoming : ∀ (candidates : List ArbitrationCandidate) (position granted : Nat)
    (ledger : AuthorityLedger),
    c.Upcoming (c.decide_all candidates position granted ledger).2 ledger.next_id
      (c.decide_all candidates position granted ledger).1
  | [], _, _, _ => trivial
  | candidate :: rest, position, granted, ledger => by
      unfold decide_all
      have hcases := c.decide_candidate_cases candidate position granted ledger
      generalize c.decide_candidate candidate position granted ledger = decided at hcases ⊢
      obtain ⟨decision, next⟩ := decided
      simp only at hcases ⊢
      obtain ⟨hjob, ⟨hout, rfl⟩ | ⟨hout, j, g, hj, hres, hauth⟩⟩ := hcases
      · refine ⟨fun h => absurd h hout, fun _ => ?_⟩
        exact decide_all_upcoming rest _ _ next
      -- What is granted takes the next id, so the ids of later grants are above it.
      · obtain ⟨hg, hnext, hattempt, hnonempty⟩ := AuthorityLedger.reserve_ok hres
        have hid : g.id = ledger.next_id := by rw [hg]
        have hnid : next.next_id = g.id.next := by rw [hnext, hid]
        refine ⟨fun _ => ⟨j, g, ?_, le_of_eq hid.symm, ?_⟩, fun h => absurd hout h⟩
        · constructor
          case found => rw [hjob]; exact hj
          case staged =>
            have hlt : g.id < next.next_id := by
              rw [hnid]
              exact StrongId.lt_iff.mpr (Nat.lt_succ_self _)
            rw [hauth, decide_all_find c rest _ _ next hlt, hnext]
            exact Table.find_put_self _ _
          case job => rw [hg]; rfl
          case generation => rw [hg]; rfl
          case attempt => rw [hg]; exact ⟨rfl, hattempt⟩
          case owner => rw [hg]; rfl
          case scope =>
            intro t
            rw [hg]
            exact mem_sorted_unique
          case nonempty => rw [hg]; exact hnonempty
        · rw [← hnid]
          exact decide_all_upcoming rest _ _ next

/-- There is one decision per candidate, in the candidates' order. -/
theorem decide_all_jobs : ∀ (candidates : List ArbitrationCandidate) (position granted : Nat)
    (ledger : AuthorityLedger),
    (c.decide_all candidates position granted ledger).1.map ArbitrationDecision.job =
      candidates.map ArbitrationCandidate.job
  | [], _, _, _ => rfl
  | candidate :: rest, position, granted, ledger => by
      unfold decide_all
      have hcases := c.decide_candidate_cases candidate position granted ledger
      generalize c.decide_candidate candidate position granted ledger = decided at hcases ⊢
      obtain ⟨decision, next⟩ := decided
      simp only at hcases ⊢
      rw [List.map_cons, List.map_cons, hcases.1, decide_all_jobs rest _ _ next]

end ArbitrationContext

/-! ## Candidates -/

namespace Controller

variable (c : Controller)

/-- The candidates are stored jobs that wait in `Prerequisites`, each once. -/
theorem candidates_spec (now : Nanos) :
    let jobs := (c.arbitration_candidates now).filterMap c.store.state.jobs.find
    (jobs.map MaintenanceJob.id).Nodup ∧
      ∀ j ∈ jobs, c.world.jobs.find j.id = some j ∧ j.state = .Prerequisites := by
  intro jobs
  -- Looking the rows up again by their ids gives the rows back.
  have hrows : ∀ rows : List MaintenanceJob, (∀ j ∈ rows, j ∈ c.world.jobs.rows) →
      (rows.map MaintenanceJob.id).filterMap c.store.state.jobs.find = rows := by
    intro rows
    induction rows with
    | nil => intro _; rfl
    | cons j rows ih =>
      intro h
      have hj : c.store.state.jobs.find j.id = some j :=
        Table.find_iff_mem.mpr (h j List.mem_cons_self)
      rw [List.map_cons, List.filterMap_cons_some hj,
        ih (fun x hx => h x (List.mem_cons_of_mem _ hx))]
  let waiting := (c.world.jobs.rows.filter (c.wants_authority now)).take
    limits.kMaxJobsPerArbitration
  have hsub : ∀ j ∈ waiting, j ∈ c.world.jobs.rows.filter (c.wants_authority now) :=
    fun j hj => List.mem_of_mem_take hj
  have hjobs : jobs = waiting := by
    have := hrows waiting (fun j hj => (List.mem_filter.mp (hsub j hj)).1)
    rw [List.map_take] at this
    exact this
  rw [hjobs]
  constructor
  · have hsorted : (waiting.map MaintenanceJob.id).Pairwise (· < ·) := by
      refine List.pairwise_map.mpr ?_
      exact (c.world.jobs.sorted.filter _).sublist (List.take_sublist _ _)
    exact hsorted.imp (fun h => h.ne)
  · intro j hj
    obtain ⟨hmem, hwants⟩ := List.mem_filter.mp (hsub j hj)
    refine ⟨Table.find_iff_mem.mpr hmem, ?_⟩
    simp only [wants_authority, Bool.and_eq_true, decide_eq_true_eq] at hwants
    exact hwants.1.1

end Controller

/-! ## Applying the decisions -/

/-- Arbitration may only block jobs that were waiting for authority. -/
def arbitration_license (jobs : JobTable) : License where
  edits i k := k = .touched ∨
    k = .moved .Blocked ∧ ∃ j, jobs.find i = some j ∧ j.state = .Prerequisites
  writes _ := False
  observes _ := False
  expires _ := False
  restarts := False
  faulty := False
  grants := True

namespace Controller

/-- What applying one decision may do: changes, to no job but the decided one, and no identity
    beyond `ceiling` is handed out. -/
structure Applied (L : License) (c c' : Controller) (job : JobId)
    (ceiling : AuthorityId) : Prop where
  changes : Changes L c.world c'.world
  others : ∀ id, id ≠ job → c'.world.jobs.find id = c.world.jobs.find id
  incarnation : c'.incarnation = c.incarnation
  next_id : c.world.ledger.next_id ≤ ceiling → c'.world.ledger.next_id ≤ ceiling

theorem Applied.of_eq {L : License} {c c' : Controller} {job : JobId} {ceiling : AuthorityId}
    (h : c'.world = c.world) : Applied L c c' job ceiling where
  changes := Changes.of_eq h
  others := fun _ _ => by rw [h]
  incarnation := show c'.world.incarnation = c.world.incarnation by rw [h]
  next_id := fun hc => by rw [h]; exact hc

/-- Committing the decided job touches no other. -/
theorem applied_commit {L : License} {c : Controller} {j job : MaintenanceJob} {k : EditKind}
    {now : Nanos} {ceiling : AuthorityId} (stored : c.world.jobs.find j.id = some j)
    (edit : Edit k j.core job.core) (licensed : L.edits j.id k)
    (authority : job.authority = j.authority ∨ job.authority = ⟨0⟩ ∨
      ∃ r ∈ c.world.ledger.reservations.rows, r.id = job.authority ∧ r.job = j.id) :
    Applied L c (c.commit_job_locked job now).2 j.id ceiling := by
  have hchanges : Changes L c.world (c.commit_job_locked job now).2.world :=
    changes_commit stored edit licensed authority
  rcases commit_job_locked_cases c job now with ⟨e, _, hw⟩ | ⟨_, j', hcore, _, hw⟩
  · exact .of_eq hw
  · refine ⟨hchanges, ?_, ?_, ?_⟩
    · intro id hne
      rw [hw]
      refine Table.find_put_of_ne _ ?_
      rw [show j'.id = job.id from congrArg Core.id hcore, show job.id = j.id from edit.id_eq]
      exact hne.symm
    · show (c.commit_job_locked job now).2.world.incarnation = _
      rw [hw]
      rfl
    · intro h
      rw [hw]
      exact h

theorem applied_denial {L : License} (c : Controller) (d : ArbitrationDecision) (now : Nanos)
    (ceiling : AuthorityId) (touch : L.edits d.job .touched)
    (block : ∀ j, c.world.jobs.find d.job = some j → j.state = .Prerequisites →
      L.edits d.job (.moved .Blocked)) : Applied L c (c.apply_denial d now) d.job ceiling := by
  unfold apply_denial
  split
  · exact .of_eq rfl
  · next j hfind =>
    have hid : j.id = d.job := Table.key_of_find hfind
    have stored : c.world.jobs.find j.id = some j := by rw [hid]; exact hfind
    split
    · exact .of_eq rfl
    · next hcond =>
      obtain ⟨hstate, hauth⟩ := not_or.mp hcond
      have hstate : j.state = .Prerequisites := not_not.mp hstate
      have block := block j hfind hstate
      simp only
      rw [← hid] at touch block ⊢
      rcases Drive.transition_cases { ctl := c, job := j, actions := some [] } .Blocked d.reason
          d.detail now with hno | ⟨hallowed, _, hmoved⟩
      · rw [hno]
        refine applied_commit stored (k := .touched) ?_ touch (.inl rfl)
        exact .touched j.authority j.lease
          (show j.state.is_terminal = false by rw [hstate]; rfl)
      · generalize (Drive.transition_locked { ctl := c, job := j, actions := some [] } .Blocked
          d.reason d.detail now).2 = blocked at hmoved ⊢
        obtain ⟨a, l, hcore, ha⟩ := hmoved.core
        -- The job holds no authority, so there is none to give back.
        have hw : blocked.ctl.world = c.world :=
          hmoved.world.resolve_right (fun h => hauth h.2.2)
        have hinc : blocked.ctl.incarnation = c.incarnation :=
          show blocked.ctl.world.incarnation = c.world.incarnation by rw [hw]
        have happlied : Applied L blocked.ctl (blocked.ctl.commit_job_locked blocked.job now).2 j.id
            ceiling := by
          refine applied_commit (k := .moved .Blocked) ?_ ?_ block ?_
          · rw [hw]
            exact stored
          · rw [hcore]
            exact .moved .Blocked a l hallowed (by simp)
          · rw [show blocked.job.authority = a from congrArg Core.authority hcore]
            exact ha.imp_right .inl
        refine ⟨?_, ?_, happlied.incarnation.trans hinc, ?_⟩
        · rw [← hw]
          exact happlied.changes
        · rw [← hw]
          exact happlied.others
        · rw [← hw]
          exact happlied.next_id

theorem applied_grant {L : License} (c : Controller) {context : ArbitrationContext}
    {staging : AuthorityLedger}
    {d : ArbitrationDecision} {j : MaintenanceJob} {g : AuthorityReservation} (now : Nanos)
    (staged : context.Staged staging d j g) (hcurrent : context.current = c.incarnation)
    (stored : c.world.jobs.find d.job = some j) (hstate : j.state = .Prerequisites)
    (hfresh : c.world.ledger.next_id ≤ g.id) (touch : L.edits d.job .touched) (grants : L.grants) :
    Applied L c (c.apply_grant staging d now) d.job g.id.next := by
  have hid : j.id = d.job := Table.key_of_find stored
  have hgid : g.id = d.authority := Table.key_of_find staged.staged
  have stored' : c.world.jobs.find j.id = some j := by rw [hid]; exact stored
  unfold apply_grant
  rw [show c.store.state.jobs.find d.job = some j from stored, staged.staged]
  simp only
  rcases Store.insert_authority_cases c.store g with ⟨e, he, hb⟩ | ⟨ledger, hadopt, hok, hb⟩
  · split
    · next heq =>
      rw [heq] at hb
      exact .of_eq (world_of_books hb)
    · next heq =>
      rw [heq] at he
      cases he
  · split
    · next heq =>
      rw [heq] at hok
      cases hok
    · next store heq =>
      rw [heq] at hb
      -- The granted id is the next one, so adopting it moves the counter on.
      have hledger : ledger = ⟨c.world.ledger.reservations.put g, g.id.next⟩ := by
        rw [AuthorityLedger.adopt_ok hadopt,
          if_pos (show g.id ≥ c.store.books.ledger.next_id from hfresh)]
        rfl
      have hw : ({ c with store } : Controller).world =
          { c.world with ledger := ⟨c.world.ledger.reservations.put g, g.id.next⟩ } := by
        rw [← hledger]
        simp [world, hb]
      have hres : Change L c.world ({ c with store } : Controller).world := by
        rw [hw]
        refine .reserved (j := j) ⟨stored', ?_, ?_, staged.job, staged.generation,
          staged.attempt.2, ?_, staged.scope, staged.nonempty, hfresh⟩ (.inl ⟨hstate, grants⟩)
        · rw [hstate]
          rfl
        · rw [hstate]
          simp
        · rw [staged.owner, hcurrent]
          rfl
      -- The job only takes the authority on; the texts beside it do not reach its core.
      have install : ∀ job : MaintenanceJob, job.core = { j.core with authority := d.authority } →
          Applied L c (commit_job_locked { c with store } job now).2 d.job g.id.next := by
        intro job hcore
        have hauth : job.authority = d.authority := congrArg Core.authority hcore
        have happlied : Applied L { c with store } (commit_job_locked { c with store } job now).2
            j.id g.id.next := by
          refine applied_commit (j := j) (k := .touched) ?_ ?_ (hid.symm ▸ touch)
            (.inr (.inr ⟨g, ?_, ?_, ?_⟩))
          · rw [hw]
            exact stored'
          · rw [hcore]
            exact .touched d.authority j.lease
              (show j.state.is_terminal = false by rw [hstate]; rfl)
          · rw [hw]
            exact Table.mem_put.mpr (.inl rfl)
          · rw [hauth]
            exact hgid
          · exact staged.job
        refine ⟨(Changes.single hres).trans happlied.changes, ?_, happlied.incarnation, ?_⟩
        · intro id hne
          rw [happlied.others id (hid ▸ hne), hw]
        · intro _
          apply happlied.next_id
          rw [hw]
      exact install _ rfl

/-- Applying the decisions in order. -/
theorem changes_apply_decisions {context : ArbitrationContext} {staging : AuthorityLedger}
    (now : Nanos) : ∀ (ds : List ArbitrationDecision) (c : Controller) (floor : AuthorityId),
    context.Upcoming staging floor ds → (ds.map ArbitrationDecision.job).Nodup →
    context.current = c.incarnation → c.world.ledger.next_id ≤ floor →
    (∀ d ∈ ds, c.world.jobs.find d.job = context.jobs.find d.job) →
    (∀ d ∈ ds, ∀ j, context.jobs.find d.job = some j → j.state = .Prerequisites) →
    Changes (arbitration_license context.jobs) c.world
      (ds.foldl (apply_decision staging now) c).world
  | [], c, _, _, _, _, _, _, _ => Changes.refl _
  | d :: ds, c, floor, hup, hnd, hcur, hfloor, hsame, hstate => by
      obtain ⟨hnot, hnd⟩ := List.nodup_cons.mp hnd
      -- After this decision the remaining ones face the jobs they were decided on.
      have next : ∀ (c' : Controller) (ceiling : AuthorityId),
          Applied (arbitration_license context.jobs) c c' d.job ceiling →
          floor ≤ ceiling → context.Upcoming staging ceiling ds →
          Changes (arbitration_license context.jobs) c.world
            (ds.foldl (apply_decision staging now) c').world := by
        intro c' ceiling happlied hle hup'
        refine happlied.changes.trans (changes_apply_decisions now ds c' ceiling hup' hnd
          (hcur.trans happlied.incarnation.symm) (happlied.next_id (hfloor.trans hle)) ?_ ?_)
        · intro d' hd'
          have hne : d'.job ≠ d.job := by
            intro he
            exact hnot (he ▸ List.mem_map_of_mem hd')
          rw [happlied.others _ hne]
          exact hsame d' (List.mem_cons_of_mem _ hd')
        · exact fun d' hd' => hstate d' (List.mem_cons_of_mem _ hd')
      rw [List.foldl_cons]
      cases hout : d.outcome with
      | Granted =>
        obtain ⟨j, g, staged, hle, hup'⟩ := hup.1 hout
        have hj := hsame d List.mem_cons_self
        rw [staged.found] at hj
        have hgrant := applied_grant c now staged hcur hj
          (hstate d List.mem_cons_self j staged.found) (hfloor.trans hle)
          (L := arbitration_license context.jobs) (.inl rfl) trivial
        refine next _ g.id.next ?_ (hle.trans (StrongId.le_iff.mpr (Nat.le_succ _))) hup'
        simpa [apply_decision, hout] using hgrant
      | Denied =>
        refine next _ floor ?_ le_rfl (hup.2 (by simp [hout]))
        have hdenial :=
          applied_denial (L := arbitration_license context.jobs) c d now floor (.inl rfl)
          (fun j hj hwaits => .inr ⟨rfl, j, (hsame d List.mem_cons_self).symm.trans hj, hwaits⟩)
        simpa [apply_decision, hout] using hdenial
      | Deferred =>
        refine next _ floor ?_ le_rfl (hup.2 (by simp [hout]))
        simpa [apply_decision, hout] using Applied.of_eq rfl

/-- The decisions of a pass: one per waiting job, with the identities of the grants ascending. -/
theorem decisions_spec (c : Controller) (context : PassContext) :
    let decided := arbitrate (c.arbitration_context context) c.store.state.ledger
    (decided.1.map ArbitrationDecision.job).Nodup ∧
      (∀ d ∈ decided.1, ∀ j, c.store.state.jobs.find d.job = some j → j.state = .Prerequisites) ∧
      (c.arbitration_context context).Upcoming decided.2
        c.store.state.ledger.next_id decided.1 := by
  intro decided
  obtain ⟨hnd, hspec⟩ := c.candidates_spec context.now
  have hdecided : decided = (c.arbitration_context context).decide_all (order_candidates
      ((c.arbitration_candidates context.now).filterMap c.store.state.jobs.find) c.policy) 0 0
      c.store.state.ledger := rfl
  generalize hcands : order_candidates _ _ = candidates at hdecided
  -- Ordering the candidates neither adds one nor drops one.
  have hperm : (candidates.map ArbitrationCandidate.job).Perm
      (((c.arbitration_candidates context.now).filterMap c.store.state.jobs.find).map
        MaintenanceJob.id) := by
    rw [← hcands]
    unfold order_candidates
    refine ((List.perm_insertionSort _ _).map _).trans ?_
    rw [List.map_map]
    exact List.Perm.refl _
  have hjobs := (c.arbitration_context context).decide_all_jobs candidates 0 0 c.store.state.ledger
  rw [hdecided]
  refine ⟨?_, ?_, (c.arbitration_context context).decide_all_upcoming candidates 0 0
    c.store.state.ledger⟩
  · rw [hjobs]
    exact hperm.nodup_iff.mpr hnd
  · intro d hd j hj
    have hmem : d.job ∈ candidates.map ArbitrationCandidate.job := by
      rw [← hjobs]
      exact List.mem_map_of_mem hd
    obtain ⟨j', hj', hid⟩ := List.mem_map.mp (hperm.mem_iff.mp hmem)
    obtain ⟨hfind, hstate⟩ := hspec j' hj'
    have hsame : c.world.jobs.find d.job = some j := hj
    rw [← hid, hfind] at hsame
    cases hsame
    exact hstate

/-- Arbitration edits waiting jobs and reserves for them, and does nothing else. -/
theorem changes_arbitrate_locked (c : Controller) (context : PassContext) :
    Changes (arbitration_license c.store.state.jobs) c.world
      (c.arbitrate_locked context).world := by
  obtain ⟨hnd, hstate, hupcoming⟩ := c.decisions_spec context
  unfold arbitrate_locked
  simp only
  exact changes_apply_decisions context.now _ c c.world.ledger.next_id hupcoming hnd rfl le_rfl
    (fun _ _ => rfl) hstate

end Controller

end MaintenanceFabric
